import Handleplan.Domain.FrontierV2Canonical

/-!
# What the representatives of a frontier show

The endpoints are chosen first, then one plan for each number of stores not yet shown, then the
plans farthest from those chosen. No phase gives up what an earlier one chose, and as long as there
is room for one plan of each number of stores, each number is shown.

## Main definitions

* `FrontierV2.SortedFrontier` — a frontier in the frontier order.
* `FrontierV2.IsProjection` — what the chosen plans keep of a frontier.

## Main results

* `FrontierV2.sortedFrontier_paretoFrontierV2` — what the frontier function returns is a
  frontier in order, so that it is its own frontier.
* `FrontierV2.shows_selectStoreCounts` — with room for one plan each, the loop over the
  store counts shows all of them.
* `FrontierV2.isProjection_projectRepresentativesV2` — the chosen plans are a projection.

## Design

The room left for the store counts is measured by the chosen positions together with the counts
still to be shown. A round adds one to the first and takes at least one from the second.
-/

namespace Handleplan.FrontierV2

open JsString Sorting Positions

/-! ### Frontiers in order -/

/-- A frontier in the frontier order: valid plans in canonical form with distinct identifiers, none
of them dominated, as `orderCandidates` orders them. -/
structure SortedFrontier (P : List FrontierPlanV2) : Prop where
  schema : ∀ c ∈ P, PlanResultV2Schema c.plan ∧ ∀ t ∈ c.travel, TravelCalculatedSchema t
  canonical : ∀ c ∈ P, canonicalPlan c.plan = c.plan
  nodup : (P.map (·.id)).Nodup
  antichain : ∀ c ∈ P, ∀ other ∈ P, dominates other c = false
  ordered : orderCandidates P = P

/-- A frontier in order is its own frontier. -/
theorem SortedFrontier.paretoFrontierV2 {P : List FrontierPlanV2} (h : SortedFrontier P) :
    FrontierV2.paretoFrontierV2 (P.map (·.toInput)) = P := by
  rw [paretoFrontierV2_eq, undominated, canonicalCandidates_eq h.schema h.canonical h.nodup,
    Pareto.frontier_eq_self h.antichain, h.ordered]

/-- What `paretoFrontierV2` returns is a frontier in order. -/
theorem sortedFrontier_paretoFrontierV2 (candidates : List CandidateInput) :
    SortedFrontier (paretoFrontierV2 candidates) := by
  have hmem : ∀ c ∈ paretoFrontierV2 candidates, c ∈ canonicalCandidates candidates ∧
      ∀ other ∈ canonicalCandidates candidates, dominates other c = false := fun c hc =>
    mem_paretoFrontierV2.mp hc
  have hnodup := nodup_ids_undominated candidates
  refine
    { schema := fun c hc => (schema_of_mem_canonicalCandidates (hmem c hc).1).1
      canonical := fun c hc => (schema_of_mem_canonicalCandidates (hmem c hc).1).2
      nodup := nodup_ids_paretoFrontierV2 candidates
      antichain := fun c hc other hother => (hmem c hc).2 other (hmem other hother).1
      ordered := ?_ }
  rw [paretoFrontierV2_eq]
  exact (orderCandidates_eq_of_perm hnodup (orderCandidates_perm hnodup).symm).symm

/-! ### Store counts -/

/-- The numbers of stores of the plans. -/
def storeCounts (plans : List FrontierPlanV2) : Finset ℕ :=
  (plans.map (·.plan.chains.length)).toFinset

/-- The numbers of stores of the first and the last plan. -/
def endpointStoreCounts (plans : List FrontierPlanV2) : Finset ℕ :=
  storeCounts (plans.head?.toList ++ plans.getLast?.toList)

theorem mem_storeCounts {plans : List FrontierPlanV2} {storeCount : ℕ} :
    storeCount ∈ storeCounts plans ↔ ∃ c ∈ plans, c.plan.chains.length = storeCount := by
  simp [storeCounts]

/-- **What a projection of a frontier to at most `maximum` plans is**: as many of its plans as are
allowed, in their order and none of them twice, with both ends, and with a plan for each number of
stores where there is room for one. -/
structure IsProjection (maximum : ℕ) (frontier projected : List FrontierPlanV2) : Prop where
  /-- The plans are plans of the frontier, in its order. -/
  sublist : projected.Sublist frontier
  /-- There are as many as there can be. -/
  length : projected.length = min maximum frontier.length
  /-- No plan comes twice, nor its identifier. -/
  nodup : (projected.map (·.id)).Nodup
  /-- The first and the last plan stay, where there is room for two. -/
  ends : 2 ≤ maximum → 2 ≤ frontier.length →
    projected.head? = frontier.head? ∧ projected.getLast? = frontier.getLast?
  /-- Each number of stores stays, where there is room for those the endpoints do not show. -/
  covers : 2 + (storeCounts frontier \ endpointStoreCounts frontier).card ≤ maximum →
    storeCounts projected = storeCounts frontier

/-! ### Showing all store counts -/

section Positions

variable {ordered : List FrontierPlanV2} {maximum : ℕ}

/-- A plan with this number of stores is selected. -/
def Shows (ordered : List FrontierPlanV2) (selected : Finset ℕ) (storeCount : ℕ) : Prop :=
  ∃ index ∈ selected, storeCountAt ordered index = some storeCount

instance (selected : Finset ℕ) : DecidablePred (Shows ordered selected) :=
  fun _ => inferInstanceAs (Decidable (∃ _ ∈ _, _))

variable {selected : Finset ℕ} {storeCount : ℕ}

theorem Shows.mono {after : Finset ℕ} (h : Shows ordered selected storeCount)
    (hsubset : selected ⊆ after) :
    Shows ordered after storeCount := by
  obtain ⟨index, hindex, heq⟩ := h
  exact ⟨index, hsubset hindex, heq⟩

/-- The store counts of a list that are not shown. -/
def notShown (ordered : List FrontierPlanV2) (selected : Finset ℕ) (counts : List ℕ) : List ℕ :=
  counts.filter fun storeCount => ¬ Shows ordered selected storeCount

theorem length_notShown_mono (ordered : List FrontierPlanV2) {after : Finset ℕ}
    (h : selected ⊆ after) (counts : List ℕ) :
    (notShown ordered after counts).length ≤ (notShown ordered selected counts).length := by
  refine (List.monotone_filter_right counts fun storeCount hnot => ?_).length_le
  rw [decide_eq_true_eq] at hnot ⊢
  exact fun hshows => hnot (hshows.mono h)

/-- There is a plan with this number of stores. -/
def Occurs (ordered : List FrontierPlanV2) (storeCount : ℕ) : Prop :=
  ∃ index < ordered.length, storeCountAt ordered index = some storeCount

/-- **With room for one plan each, the loop shows every store count it is given.** -/
theorem shows_selectStoreCounts (counts : List ℕ) (hlt : ∀ i ∈ selected, i < ordered.length)
    (hoccurs : ∀ storeCount ∈ counts, Occurs ordered storeCount)
    (hroom : selected.card + (notShown ordered selected counts).length ≤ maximum) :
    ∀ storeCount ∈ counts,
      Shows ordered (selectStoreCounts ordered maximum counts selected) storeCount := by
  induction counts generalizing selected with
  | nil => simp
  | cons first counts ih =>
    have hrest : ∀ storeCount ∈ counts, Occurs ordered storeCount := fun storeCount hmem =>
      hoccurs storeCount (List.mem_cons_of_mem first hmem)
    unfold selectStoreCounts
    split_ifs with hfull hshown
    · -- no room is left, so nothing is left to be shown
      have hnil : (notShown ordered selected (first :: counts)).length = 0 := by omega
      intro storeCount hmem
      have hfilter := List.filter_eq_nil_iff.mp (List.length_eq_zero_iff.mp hnil) storeCount hmem
      simpa using hfilter
    · have hskip : notShown ordered selected (first :: counts) =
          notShown ordered selected counts :=
        List.filter_cons_of_neg (by simpa using show Shows ordered selected first from hshown)
      rw [hskip] at hroom
      have hselects : Selects ordered maximum selected _ :=
        selects_selectStoreCounts counts hlt (by omega)
      refine List.forall_mem_cons.mpr ⟨?_, ih hlt hrest hroom⟩
      exact Shows.mono hshown hselects.subset
    · have hkeep : notShown ordered selected (first :: counts) =
          first :: notShown ordered selected counts :=
        List.filter_cons_of_pos
          (by simpa using show ¬ Shows ordered selected first from hshown)
      rw [hkeep, List.length_cons] at hroom
      split
      · -- some plan has this number of stores
        rename_i hnone
        obtain ⟨index, hindex, heq⟩ := hoccurs first List.mem_cons_self
        rw [farthest, least_eq_none_iff, List.filter_eq_nil_iff] at hnone
        exact absurd (decide_eq_true heq) (hnone index (List.mem_range.mpr hindex))
      · rename_i representative hrepresentative
        obtain ⟨hmem, heq⟩ := List.mem_filter.mp (mem_of_farthest hrepresentative)
        have hinserted := lt_insert hlt (List.mem_range.mp hmem)
        have hfresh : representative ∉ selected := fun hin =>
          hshown ⟨representative, hin, of_decide_eq_true heq⟩
        have hcard := Finset.card_insert_of_notMem hfresh
        have hless := length_notShown_mono ordered
          (Finset.subset_insert representative selected) counts
        have hselects : Selects ordered maximum (insert representative selected) _ :=
          selects_selectStoreCounts counts hinserted (by omega)
        refine List.forall_mem_cons.mpr ⟨?_, ih hinserted hrest (by omega)⟩
        exact ⟨representative, hselects.subset (Finset.mem_insert_self _ _),
          of_decide_eq_true heq⟩

theorem shows_iff_mem_pick :
    Shows ordered selected storeCount ↔
      ∃ c ∈ pick ordered selected, c.plan.chains.length = storeCount := by
  constructor
  · rintro ⟨index, hindex, heq⟩
    obtain ⟨c, hc, hlength⟩ := Option.map_eq_some_iff.mp heq
    exact ⟨c, mem_pick.mpr ⟨index, hindex, hc⟩, hlength⟩
  · rintro ⟨c, hc, hlength⟩
    obtain ⟨index, hindex, heq⟩ := mem_pick.mp hc
    exact ⟨index, hindex, Option.map_eq_some_iff.mpr ⟨c, heq, hlength⟩⟩

theorem occurs_of_mem (h : storeCount ∈ storeCounts ordered) :
    Occurs ordered storeCount := by
  obtain ⟨c, hc, hlength⟩ := mem_storeCounts.mp h
  obtain ⟨index, hindex, heq⟩ := List.mem_iff_getElem.mp hc
  refine ⟨index, hindex, Option.map_eq_some_iff.mpr ⟨c, ?_, hlength⟩⟩
  rw [List.getElem?_eq_getElem hindex, heq]

/-- The endpoints show their numbers of stores. -/
theorem shows_endpoints (h : storeCount ∈ endpointStoreCounts ordered) :
    Shows ordered {0, ordered.length - 1} storeCount := by
  obtain ⟨c, hc, hlength⟩ := mem_storeCounts.mp h
  rcases List.mem_append.mp hc with hfirst | hlast
  · rw [Option.mem_toList, List.head?_eq_getElem?] at hfirst
    exact ⟨0, by simp, Option.map_eq_some_iff.mpr ⟨c, hfirst, hlength⟩⟩
  · rw [Option.mem_toList, List.getLast?_eq_getElem?] at hlast
    exact ⟨ordered.length - 1, by simp, Option.map_eq_some_iff.mpr ⟨c, hlast, hlength⟩⟩

/-- The store counts that the endpoints leave to be shown. -/
theorem length_notShown_endpoints_le {counts : List ℕ} (hnodup : counts.Nodup)
    (hcounts : ∀ storeCount ∈ counts, storeCount ∈ storeCounts ordered) :
    (notShown ordered {0, ordered.length - 1} counts).length ≤
      (storeCounts ordered \ endpointStoreCounts ordered).card := by
  have hcard := List.toFinset_card_of_nodup
    (hnodup.filter fun storeCount => ¬ Shows ordered {0, ordered.length - 1} storeCount)
  rw [notShown, ← hcard]
  refine Finset.card_le_card fun storeCount hmem => ?_
  obtain ⟨hcount, hnot⟩ := List.mem_filter.mp (List.mem_toFinset.mp hmem)
  rw [decide_eq_true_eq] at hnot
  exact Finset.mem_sdiff.mpr ⟨hcounts storeCount hcount, fun hend => hnot (shows_endpoints hend)⟩

/-- **The selected positions show every number of stores of the frontier**, where there is room for
those the endpoints do not show. -/
theorem shows_selectPositions (hlength : maximum < ordered.length)
    (hroom : 2 + (storeCounts ordered \ endpointStoreCounts ordered).card ≤ maximum) :
    ∀ storeCount ∈ storeCounts ordered,
      Shows ordered (selectPositions ordered maximum) storeCount := by
  have hne : ordered ≠ [] := List.length_pos_iff.mp (by omega)
  have hlt := lt_endpoints hne
  have hends : ({0, ordered.length - 1} : Finset ℕ).card ≤ 2 := Finset.card_le_two
  set counts := sortBy compare (ordered.map (·.plan.chains.length)).dedup with hdef
  have hmem : ∀ storeCount, storeCount ∈ counts ↔ storeCount ∈ storeCounts ordered := by
    intro storeCount
    rw [hdef, mem_sortBy, List.mem_dedup, storeCounts, List.mem_toFinset]
  have hnodup : counts.Nodup := nodup_sortBy.mpr (List.nodup_dedup _)
  have hleft := length_notShown_endpoints_le hnodup fun storeCount => (hmem storeCount).mp
  have hstores : Selects ordered maximum {0, ordered.length - 1} _ :=
    selects_selectStoreCounts counts hlt (by omega)
  intro storeCount hcount
  have hshows : Shows ordered (selectStoreCounts ordered maximum counts {0, ordered.length - 1})
      storeCount :=
    shows_selectStoreCounts counts hlt
      (fun other hother => occurs_of_mem ((hmem other).mp hother)) (by omega)
      storeCount ((hmem storeCount).mpr hcount)
  exact hshows.mono (selects_fillSelected maximum hstores.lt hstores.card_le).subset

end Positions

/-! ### The projection -/

/-- For two positions and more, all store counts are kept where there is room. -/
theorem storeCounts_projectRepresentativesV2 {candidates : List CandidateInput} {maximum : ℕ}
    (hmaximum : maximum ≤ 7)
    (hroom : 2 + (storeCounts (paretoFrontierV2 candidates) \
      endpointStoreCounts (paretoFrontierV2 candidates)).card ≤ maximum) :
    storeCounts (projectRepresentativesV2 candidates maximum) =
      storeCounts (paretoFrontierV2 candidates) := by
  unfold projectRepresentativesV2
  dsimp only
  split_ifs with hrange hall hone
  · omega
  · rfl
  · omega
  · have hlength : maximum < (paretoFrontierV2 candidates).length := by omega
    have hselects := (selects_selectPositions hlength (by omega)).1
    refine Finset.Subset.antisymm (fun storeCount hmem => ?_) fun storeCount hmem => ?_
    · obtain ⟨c, hc, heq⟩ := mem_storeCounts.mp hmem
      exact mem_storeCounts.mpr ⟨c, (pick_sublist hselects.lt).subset hc, heq⟩
    · have hshows := shows_selectPositions hlength hroom storeCount hmem
      exact mem_storeCounts.mpr (shows_iff_mem_pick.mp hshows)

theorem isProjection_of_candidates (candidates : List CandidateInput) {maximum : ℕ}
    (hmaximum : 1 ≤ maximum ∧ maximum ≤ 7) :
    IsProjection maximum (paretoFrontierV2 candidates)
      (projectRepresentativesV2 candidates maximum) := by
  have hrepresents := represents_projectRepresentativesV2 candidates maximum
  have hlength := length_projectRepresentativesV2 candidates hmaximum
  exact
    { sublist := hrepresents.sublist
      length := hlength
      nodup := (nodup_ids_paretoFrontierV2 candidates).sublist (hrepresents.sublist.map _)
      ends := fun htwo hfrontier => hrepresents.ends (by omega)
      covers := storeCounts_projectRepresentativesV2 hmaximum.2 }

/-- **The representatives are a projection of the frontier**: of the frontier of any candidates, and
of a list that is a frontier in order already. -/
theorem isProjection_projectRepresentativesV2 {maximum : ℕ}
    (hmaximum : 1 ≤ maximum ∧ maximum ≤ 7) :
    (∀ candidates, IsProjection maximum (paretoFrontierV2 candidates)
      (projectRepresentativesV2 candidates maximum)) ∧
    ∀ P, SortedFrontier P →
      IsProjection maximum P (projectRepresentativesV2 (P.map (·.toInput)) maximum) := by
  refine ⟨fun candidates => isProjection_of_candidates candidates hmaximum, fun P hP => ?_⟩
  have hprojection := isProjection_of_candidates (P.map (·.toInput)) hmaximum
  rwa [hP.paretoFrontierV2] at hprojection

/-- Two plans equal but for their identifiers, projected to one, and their frontier to two. -/
theorem isProjection_twinCandidates :
    IsProjection 1 (paretoFrontierV2 twinCandidates) (projectRepresentativesV2 twinCandidates 1) ∧
      IsProjection 2 (paretoFrontierV2 twinCandidates)
        (projectRepresentativesV2 ((paretoFrontierV2 twinCandidates).map (·.toInput)) 2) :=
  ⟨(isProjection_projectRepresentativesV2 (by decide)).1 twinCandidates,
    (isProjection_projectRepresentativesV2 (by decide)).2 _
      (sortedFrontier_paretoFrontierV2 twinCandidates)⟩

end Handleplan.FrontierV2
