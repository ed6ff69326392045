import Mathlib.Data.Finset.Max
import Handleplan.Domain.FrontierV2Exact
import Handleplan.Domain.TravelContracts
import Handleplan.Lib.Positions

/-!
# Representatives of the frontier

At most seven plans are published. A larger frontier is reduced to its endpoints, then one plan for
each number of stores not yet shown, then the plans farthest from those already chosen. Whoever
receives the plans projects them again and compares.

## Main definitions

* `FrontierV2.projectRepresentativesV2` — the published plans.
* `FrontierV2.canonicalProjectedPlanResultsV2` — the projection the verifiers repeat.
* `FrontierV2.canonicalPlans`, `PlansAreProjected` — the checks of the explanation
  module and of the response schema.
* `FrontierV2.Represents` — what the choice of representatives keeps of the frontier.

## Main results

* `FrontierV2.represents_projectRepresentativesV2` — the representatives are a sublist
  of the frontier with its endpoints.
* `FrontierV2.length_projectRepresentativesV2` — as many plans as allowed are chosen.

## Implementation notes

A JavaScript set of indices is a `Finset ℕ`: the loops read its size, its members and the distance
to them, and its elements are sorted before they are used. The second loop takes fuel, of which
`maximum` is enough since each round adds a position.
-/

namespace Handleplan.FrontierV2

open JsString Sorting Positions

/-! ### Choosing positions -/

/-- `distanceFromSelected`. -/
def distanceFromSelected (index : ℕ) (selected : Finset ℕ) : ℕ :=
  ((selected.image fun chosen : ℕ => ((chosen : ℤ) - index).natAbs).min).untopD 0

/-- The first position after sorting by decreasing distance from those selected, then by index. -/
def farthest (indices : List ℕ) (selected : Finset ℕ) : Option ℕ :=
  least (compareLex (descending (compareOn (distanceFromSelected · selected))) (compareOn id))
    indices

/-- `ordered[index]?.chains.length`. -/
def storeCountAt (ordered : List FrontierPlanV2) (index : ℕ) : Option ℕ :=
  (ordered[index]?).map (·.plan.chains.length)

/-- The loop over the store counts: one plan for each count that is not shown yet. -/
def selectStoreCounts (ordered : List FrontierPlanV2) (maximum : ℕ) :
    List ℕ → Finset ℕ → Finset ℕ
  | [], selected => selected
  | storeCount :: storeCounts, selected =>
    if maximum ≤ selected.card then selected
    else if ∃ index ∈ selected, storeCountAt ordered index = some storeCount then
      selectStoreCounts ordered maximum storeCounts selected
    else
      match farthest ((List.range ordered.length).filter fun index =>
          storeCountAt ordered index = some storeCount) selected with
      | none => selectStoreCounts ordered maximum storeCounts selected
      | some representative =>
        selectStoreCounts ordered maximum storeCounts (insert representative selected)

/-- The loop that adds the farthest plan until `maximum` plans are selected. -/
def fillSelected (ordered : List FrontierPlanV2) (maximum : ℕ) : ℕ → Finset ℕ → Finset ℕ
  | 0, selected => selected
  | fuel + 1, selected =>
    if selected.card < maximum then
      match farthest ((List.range ordered.length).filter (· ∉ selected)) selected with
      | none => selected
      | some next => fillSelected ordered maximum fuel (insert next selected)
    else selected

/-- The selected positions of a frontier with more than `maximum` plans, for `maximum ≥ 2`. -/
def selectPositions (ordered : List FrontierPlanV2) (maximum : ℕ) : Finset ℕ :=
  let storeCounts := sortBy compare (ordered.map (·.plan.chains.length)).dedup
  fillSelected ordered maximum maximum
    (selectStoreCounts ordered maximum storeCounts {0, ordered.length - 1})

/-- `projectRepresentativesV2`. -/
def projectRepresentativesV2 (candidates : List CandidateInput) (maximum : ℕ) :
    List FrontierPlanV2 :=
  if maximum < 1 ∨ 7 < maximum then []
  else
    let ordered := paretoFrontierV2 candidates
    if ordered.length ≤ maximum then ordered
    else if maximum = 1 then ordered.take 1
    else pick ordered (selectPositions ordered maximum)

/-- `canonicalProjectedPlanResultsV2`. -/
def canonicalProjectedPlanResultsV2 (plans : List CandidateInput) (maximum : ℕ)
    (travelEvidence : Option (List PlanTravelEvidence)) : Option (List PlanResultV2) :=
  let attached := attachOptionalTravelEvidenceV2 plans travelEvidence
  if attached.length ≠ plans.length ∨
      (travelEvidence.isSome = true ∧ ∃ candidate ∈ attached, hasTravel candidate = false) then
    none
  else
    let projected :=
      projectRepresentativesV2 ((paretoFrontierV2 (attached.map (·.toInput))).map (·.toInput))
        maximum
    if ∀ candidate ∈ projected, PlanResultV2Schema candidate.plan then
      some (projected.map (·.plan))
    else none

/-! ### The verifiers -/

/-- A plan without travel, as a candidate. -/
def planInput (plan : PlanResultV2) : CandidateInput := .record plan none

/-- The travel evidence a verifier makes of the routes of the plans. -/
def routeEvidence (routes : List TravelRouteEvidence) : List PlanTravelEvidence :=
  routes.map fun route => ⟨route.planId, .calculated route.aggregate.travel⟩

/-- `canonicalPlans` of the explanation module. -/
def canonicalPlans (plans : List PlanResultV2) (routes : Option (List TravelRouteEvidence)) :
    Option (List PlanResultV2) :=
  if ¬ ((∀ plan ∈ plans, PlanResultV2Schema plan) ∧ plans.length ≤ 7) then none
  else
    match routes with
    | none =>
      if canonicalProjectedPlanResultsV2 (plans.map planInput) 7 none = some plans then some plans
      else none
    | some routes =>
      if ¬ ((∀ route ∈ routes, TravelRouteEvidenceSchema route) ∧ routes.length ≤ 7) then none
      else if routes.map (·.planId) ≠ plans.map (·.id) then none
      else if canonicalProjectedPlanResultsV2 (plans.map planInput) 7
          (some (routeEvidence routes)) = some plans then some plans
      else none

/-- The check of the public response schema on its plans. -/
def PlansAreProjected (plans : List PlanResultV2) (routes : Option (List TravelRouteEvidence)) :
    Prop :=
  canonicalProjectedPlanResultsV2 (plans.map planInput) 7 (routes.map routeEvidence) = some plans

/-! ### The selected positions -/

section Positions

variable {ordered : List FrontierPlanV2} {maximum : ℕ}

variable {selected : Finset ℕ} {index : ℕ}

theorem mem_of_farthest {indices : List ℕ} (h : farthest indices selected = some index) :
    index ∈ indices := least_mem h

/-- What both loops keep: the positions are positions of the list, no position is given up, and no
more than `maximum` of them are selected. -/
structure Selects (ordered : List FrontierPlanV2) (maximum : ℕ) (before after : Finset ℕ) :
    Prop where
  subset : before ⊆ after
  lt : ∀ i ∈ after, i < ordered.length
  card_le : after.card ≤ maximum

/-- Nothing more is selected. -/
theorem Selects.refl (hlt : ∀ i ∈ selected, i < ordered.length) (hcard : selected.card ≤ maximum) :
    Selects ordered maximum selected selected :=
  ⟨Finset.Subset.refl _, hlt, hcard⟩

/-- One more is selected. -/
theorem Selects.of_insert {after : Finset ℕ}
    (h : Selects ordered maximum (insert index selected) after) :
    Selects ordered maximum selected after :=
  ⟨(Finset.subset_insert index selected).trans h.subset, h.lt, h.card_le⟩

theorem lt_insert (hlt : ∀ i ∈ selected, i < ordered.length) (hindex : index < ordered.length) :
    ∀ i ∈ insert index selected, i < ordered.length := by
  intro i hi
  rcases Finset.mem_insert.mp hi with rfl | hi
  · exact hindex
  · exact hlt i hi

/-- Representatives of each number of stores are added while there is room. -/
theorem selects_selectStoreCounts (storeCounts : List ℕ) (hlt : ∀ i ∈ selected, i < ordered.length)
    (hcard : selected.card ≤ maximum) :
    Selects ordered maximum selected (selectStoreCounts ordered maximum storeCounts selected) := by
  induction storeCounts generalizing selected with
  | nil => exact Selects.refl hlt hcard
  | cons storeCount storeCounts ih =>
    unfold selectStoreCounts
    split_ifs with hfull hshown
    · exact Selects.refl hlt hcard
    · exact ih hlt hcard
    · split
      · exact ih hlt hcard
      · rename_i representative hrepresentative
        have hmem := List.mem_of_mem_filter (mem_of_farthest hrepresentative)
        refine (ih (lt_insert hlt (List.mem_range.mp hmem)) ?_).of_insert
        exact (Finset.card_insert_le _ _).trans (by omega)

/-- The others are added while there is room. -/
theorem selects_fillSelected (fuel : ℕ) (hlt : ∀ i ∈ selected, i < ordered.length)
    (hcard : selected.card ≤ maximum) :
    Selects ordered maximum selected (fillSelected ordered maximum fuel selected) := by
  induction fuel generalizing selected with
  | zero => exact Selects.refl hlt hcard
  | succ fuel ih =>
    unfold fillSelected
    split_ifs with hroom
    · split
      · exact Selects.refl hlt hcard
      · rename_i next hnext
        have hmem := List.mem_of_mem_filter (mem_of_farthest hnext)
        refine (ih (lt_insert hlt (List.mem_range.mp hmem)) ?_).of_insert
        exact (Finset.card_insert_le _ _).trans (by omega)
    · exact Selects.refl hlt hcard

/-- With enough fuel the loop ends by its own condition: it fills all places. -/
theorem card_fillSelected (fuel : ℕ) (hlt : ∀ i ∈ selected, i < ordered.length)
    (hcard : selected.card ≤ maximum) (hlength : maximum < ordered.length)
    (hfuel : maximum ≤ selected.card + fuel) :
    (fillSelected ordered maximum fuel selected).card = maximum := by
  induction fuel generalizing selected with
  | zero => exact le_antisymm hcard (by simpa [fillSelected] using hfuel)
  | succ fuel ih =>
    unfold fillSelected
    split_ifs with hroom
    · split
      · rename_i hnone
        -- some position is still free, since fewer than all are selected
        have hfree : ∃ i ∈ Finset.range ordered.length, i ∉ selected := by
          refine Finset.exists_mem_notMem_of_card_lt_card ?_
          rw [Finset.card_range]
          omega
        obtain ⟨i, hi, hnot⟩ := hfree
        rw [farthest, least_eq_none_iff, List.filter_eq_nil_iff] at hnone
        exact absurd (decide_eq_true hnot)
          (hnone i (List.mem_range.mpr (Finset.mem_range.mp hi)))
      · rename_i next hnext
        obtain ⟨hmem, hnot⟩ := List.mem_filter.mp (mem_of_farthest hnext)
        have hcardNext := Finset.card_insert_of_notMem (of_decide_eq_true hnot)
        exact ih (lt_insert hlt (List.mem_range.mp hmem)) (by omega) (by omega)
    · omega

/-- The first and the last position are positions. -/
theorem lt_endpoints (h : ordered ≠ []) :
    ∀ i ∈ ({0, ordered.length - 1} : Finset ℕ), i < ordered.length := by
  have hpos := List.length_pos_iff.mpr h
  intro i hi
  rcases Finset.mem_insert.mp hi with rfl | hi
  · exact hpos
  · rw [Finset.mem_singleton.mp hi]
    omega

/-- As many positions are selected as there may be, the ends among them. -/
theorem selects_selectPositions (hlength : maximum < ordered.length) (hmaximum : 2 ≤ maximum) :
    Selects ordered maximum {0, ordered.length - 1} (selectPositions ordered maximum) ∧
      (selectPositions ordered maximum).card = maximum := by
  have hne : ordered ≠ [] := List.length_pos_iff.mp (by omega)
  have hstores := selects_selectStoreCounts
    (sortBy compare (ordered.map (·.plan.chains.length)).dedup) (lt_endpoints hne)
    (Finset.card_le_two.trans hmaximum)
  have hfill := selects_fillSelected maximum hstores.lt hstores.card_le
  exact ⟨⟨hstores.subset.trans hfill.subset, hfill.lt, hfill.card_le⟩,
    card_fillSelected maximum hstores.lt hstores.card_le hlength (by omega)⟩

end Positions

/-! ### Representatives -/

/-- A list of representatives: a sublist of the frontier with both of its ends, unless it is too
short to have two. -/
structure Represents (ordered representatives : List FrontierPlanV2) : Prop where
  sublist : representatives.Sublist ordered
  ends : 2 ≤ representatives.length →
    representatives.head? = ordered.head? ∧ representatives.getLast? = ordered.getLast?

section Representatives

variable (candidates : List CandidateInput) {maximum : ℕ}

/-- The projection is a selection of the frontier in order. -/
theorem represents_projectRepresentativesV2 (maximum : ℕ) :
    Represents (paretoFrontierV2 candidates) (projectRepresentativesV2 candidates maximum) := by
  unfold projectRepresentativesV2
  dsimp only
  split_ifs with hrange hall hone
  · exact ⟨List.nil_sublist _, fun h => absurd h (by simp)⟩
  · exact ⟨List.Sublist.refl _, fun _ => ⟨rfl, rfl⟩⟩
  · refine ⟨List.take_sublist _ _, fun h => absurd h ?_⟩
    rw [List.length_take]
    omega
  · have hlength : maximum < (paretoFrontierV2 candidates).length := by omega
    have hselects := (selects_selectPositions hlength (by omega)).1
    refine ⟨pick_sublist hselects.lt, fun _ => ⟨?_, ?_⟩⟩
    · exact head?_pick hselects.lt (hselects.subset (by simp))
    · exact getLast?_pick hselects.lt (hselects.subset (by simp))

/-- **As many plans are published as there are and as are allowed.** -/
theorem length_projectRepresentativesV2 (h : 1 ≤ maximum ∧ maximum ≤ 7) :
    (projectRepresentativesV2 candidates maximum).length =
      min maximum (paretoFrontierV2 candidates).length := by
  unfold projectRepresentativesV2
  dsimp only
  split_ifs with hrange hall hone
  · omega
  · exact (min_eq_right hall).symm
  · rw [List.length_take, hone]
  · have hlength : maximum < (paretoFrontierV2 candidates).length := by omega
    obtain ⟨hselects, hcard⟩ := selects_selectPositions hlength (by omega)
    rw [length_pick hselects.lt, hcard]
    omega

end Representatives

end Handleplan.FrontierV2
