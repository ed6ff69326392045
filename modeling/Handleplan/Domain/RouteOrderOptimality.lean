import Handleplan.Domain.RouteOrder

/-!
# The round trip chosen is the least one

All safe round trips are compared by duration, distance and the branches in the order of the visit.
The least of them is chosen, and neither the order of the branches nor that of the required chains
matters.

## Main definitions

* `MatrixBranchCandidate.parsed`, `chooseBestRoundTripFrom` — the search on branches as
  they are passed, before their texts are trimmed.
* `compareByBranches` — round trips by duration, distance and the list of their branches.
* `ChoosesBest` — what the choice of a round trip satisfies.

## Main results

* `branchOptions_perm` — the branches of each chain do not depend on the order of the
  input.
* `compareRoutes_eq` — without null characters in the identifiers the order of the source
  is the lexicographic one.
* `choosesBest_chooseBestRoundTripFrom` — the choice is the least round trip.

## Implementation notes

The source compares the visits as the identifiers joined by null characters. An identifier may
contain one, and then the joined texts are not ordered as the lists are.
-/

namespace Handleplan

open JsString Sorting

/-! ### The search on unparsed branches -/

/-- The branch that `matrixBranchCandidateSchema` gives back: its texts are trimmed. -/
def MatrixBranchCandidate.parsed (branch : MatrixBranchCandidate) : MatrixBranchCandidate :=
  { branch with branchId := trim branch.branchId, name := trim branch.name }

/-- `chooseBestRoundTrip`, which parses the branches before it looks at them. -/
def chooseBestRoundTripFrom (branches : List MatrixBranchCandidate) (matrix : RouteMatrix)
    (requiredChains : List Chain) : Option BestRoundTrip :=
  chooseBestRoundTrip (branches.map (·.parsed)) matrix requiredChains

/-! ### What a choice is -/

/-- Round trips by duration, distance and the identifiers of their branches, these compared one
after the other. -/
def compareByBranches : BestRoundTrip → BestRoundTrip → Ordering :=
  compareLex (compareOn (·.durationSeconds)) <|
    compareLex (compareOn (·.distanceMeters)) <|
      on (fun route => route.stops.map (·.branchId)) compare

/-- A safe round trip on the given branches: the evaluation of an order that visits one branch of
each required chain. -/
def IsRoundTrip (branches : List MatrixBranchCandidate) (matrix : RouteMatrix)
    (requiredChains : List Chain) (route : BestRoundTrip) : Prop :=
  ∃ order, Visits branches requiredChains order ∧ evaluateOrder order matrix = some route

/-- **What the choice of a round trip satisfies.** -/
structure ChoosesBest (branches : List MatrixBranchCandidate) (matrix : RouteMatrix)
    (requiredChains : List Chain) : Prop where
  /-- One is found exactly when the input is valid and some order has all its cells, with safe
  sums. -/
  found : (∃ route, chooseBestRoundTripFrom branches matrix requiredChains = some route) ↔
    RoundTripInput (branches.map (·.parsed)) matrix requiredChains ∧
      ∃ order, Visits (branches.map (·.parsed)) requiredChains order ∧ SafeRoundTrip matrix order
  /-- It is a round trip, and none comes before it in the order of the source. -/
  least : ∀ route, chooseBestRoundTripFrom branches matrix requiredChains = some route →
    IsRoundTrip (branches.map (·.parsed)) matrix requiredChains route ∧
      ∀ other, IsRoundTrip (branches.map (·.parsed)) matrix requiredChains other →
        (compareRoutes route other).isLE = true
  /-- Where no identifier contains a null character, none comes before it lexicographically. -/
  lexicographic : (∀ branch ∈ branches, 0 ∉ branch.branchId) →
    ∀ route, chooseBestRoundTripFrom branches matrix requiredChains = some route →
      ∀ other, IsRoundTrip (branches.map (·.parsed)) matrix requiredChains other →
        (compareByBranches route other).isLE = true
  /-- The order of the branches and of the required chains does not matter. -/
  permuted : ∀ branches' requiredChains', branches'.Perm branches →
    requiredChains'.Perm requiredChains →
      chooseBestRoundTripFrom branches' matrix requiredChains' =
        chooseBestRoundTripFrom branches matrix requiredChains

/-! ### The order of the input -/

section Permuted

variable {branches branches' : List MatrixBranchCandidate} {matrix : RouteMatrix}
  {requiredChains requiredChains' : List Chain}

/-- The order of branches and chains does not matter. -/
theorem RoundTripInput.of_perm (h : RoundTripInput branches matrix requiredChains)
    (hbranches : branches'.Perm branches) (hchains : requiredChains'.Perm requiredChains) :
    RoundTripInput branches' matrix requiredChains' where
  validMatrix := h.validMatrix
  length_chains := hchains.length_eq ▸ h.length_chains
  length_branches := hbranches.length_eq ▸ h.length_branches
  validBranches branch hbranch := h.validBranches branch (hbranches.mem_iff.mp hbranch)
  uniqueChains := hchains.nodup_iff.mpr h.uniqueChains
  uniqueBranches := (hbranches.map _).nodup_iff.mpr h.uniqueBranches
  uniqueIndices := (hbranches.map _).nodup_iff.mpr h.uniqueIndices
  known branch hbranch := by
    obtain ⟨hchain, hindex⟩ := h.known branch (hbranches.mem_iff.mp hbranch)
    exact ⟨hchains.mem_iff.mpr hchain, hindex⟩
  options chain hchain := by
    rw [(hbranches.filter _).length_eq]
    exact h.options chain (hchains.mem_iff.mp hchain)

/-- The branches of each chain are sorted, by identifiers that are distinct: they do not depend on
the order of the input. -/
theorem branchOptions_perm (h : RoundTripInput branches matrix requiredChains)
    (hbranches : branches'.Perm branches) (hchains : requiredChains'.Perm requiredChains) :
    branchOptions branches' requiredChains' = branchOptions branches requiredChains := by
  have hsorted : sortBy compareChains requiredChains' = sortBy compareChains requiredChains :=
    sortBy_eq_of_perm hchains fun _ _ _ _ => compareChains_eq_iff.mp
  unfold branchOptions
  rw [hsorted]
  refine List.map_congr_left fun chain _ => ?_
  refine sortBy_eq_of_perm (hbranches.filter _) fun a ha b hb hcompare => ?_
  have hid : a.branchId = b.branchId := on_eq_iff.mp hcompare
  have hmem : ∀ c ∈ branches'.filter (·.chainId = chain), c ∈ branches := fun c hc =>
    hbranches.mem_iff.mp (List.mem_of_mem_filter hc)
  exact List.inj_on_of_nodup_map h.uniqueBranches (hmem a ha) (hmem b hb) hid

/-- **The choice does not depend on the order of the input.** -/
theorem chooseBestRoundTrip_perm (hbranches : branches'.Perm branches)
    (hchains : requiredChains'.Perm requiredChains) :
    chooseBestRoundTrip branches' matrix requiredChains' =
      chooseBestRoundTrip branches matrix requiredChains := by
  unfold chooseBestRoundTrip
  by_cases h : RoundTripInput branches matrix requiredChains
  · rw [if_pos h, if_pos (h.of_perm hbranches hchains), branchOptions_perm h hbranches hchains]
  · rw [if_neg h, if_neg fun h' => h (h'.of_perm hbranches.symm hchains.symm)]

end Permuted

/-! ### The least round trip -/

section Least

variable {branches : List MatrixBranchCandidate} {matrix : RouteMatrix}
  {requiredChains : List Chain}

instance : Std.TransCmp compareRoutes := inferInstanceAs (Std.TransCmp (compareLex _ _))

/-- The round trip chosen is not above any other in the order of the source. -/
theorem isLE_compareRoutes_of_chooseBestRoundTrip {route other : BestRoundTrip}
    (h : chooseBestRoundTrip branches matrix requiredChains = some route)
    (hother : IsRoundTrip branches matrix requiredChains other) :
    (compareRoutes route other).isLE = true := by
  unfold chooseBestRoundTrip at h
  split_ifs at h with hinput
  obtain ⟨order, hvisits, heval⟩ := hother
  refine least_isLE h (List.mem_filterMap.mpr ⟨order, ?_, heval⟩)
  exact List.mem_flatMap.mpr (mem_orders_iff.mpr hvisits)

/-- A round trip stops at the branches of its order. -/
theorem IsRoundTrip.exists_order {route : BestRoundTrip}
    (h : IsRoundTrip branches matrix requiredChains route) :
    ∃ order, Visits branches requiredChains order ∧
      route.stops.map (·.branchId) = order.map (·.branchId) := by
  obtain ⟨order, hvisits, heval⟩ := h
  refine ⟨order, hvisits, ?_⟩
  rw [(evaluateOrder_eq_some_iff.mp heval).2.1]
  exact map_stopsOf _ _ fun _ _ => rfl

/-- All round trips have as many stops as there are required chains. -/
theorem IsRoundTrip.length_stops {route : BestRoundTrip}
    (h : IsRoundTrip branches matrix requiredChains route) :
    (route.stops.map (·.branchId)).length = requiredChains.length := by
  obtain ⟨order, hvisits, heq⟩ := h.exists_order
  have hlength := hvisits.chains.length_eq
  rw [List.length_map] at hlength
  rw [heq, List.length_map, hlength]

/-- **Without null characters the order of the source is the lexicographic one.** -/
theorem compareRoutes_eq (hnull : ∀ branch ∈ branches, 0 ∉ branch.branchId)
    {route other : BestRoundTrip} (hroute : IsRoundTrip branches matrix requiredChains route)
    (hother : IsRoundTrip branches matrix requiredChains other) :
    compareRoutes route other = compareByBranches route other := by
  have hstops : ∀ trip, IsRoundTrip branches matrix requiredChains trip →
      ∀ id ∈ trip.stops.map (·.branchId), 0 ∉ id := by
    intro trip htrip
    obtain ⟨order, hvisits, heq⟩ := htrip.exists_order
    rw [heq]
    exact List.forall_mem_map.mpr fun branch hbranch => hnull branch (hvisits.subset branch hbranch)
  have htext := compareText_joinWith (hroute.length_stops.trans hother.length_stops.symm)
    (hstops route hroute) (hstops other hother)
  unfold compareRoutes compareByBranches
  simp only [compareLex, on, htext]

/-- Trimming a text adds no character. -/
theorem zero_notMem_trim {s : JsString} (h : 0 ∉ s) : 0 ∉ trim s := by
  intro hmem
  have hdrop := (List.rdropWhile_prefix isSpace (s.dropWhile isSpace)).subset hmem
  exact h ((List.dropWhile_suffix isSpace).subset hdrop)

end Least

/-- **The round trip chosen is the least one.** -/
theorem choosesBest_chooseBestRoundTripFrom (branches : List MatrixBranchCandidate)
    (matrix : RouteMatrix) (requiredChains : List Chain) :
    ChoosesBest branches matrix requiredChains where
  found := exists_chooseBestRoundTrip_iff
  least route hroute := by
    obtain ⟨-, order, hvisits, heval⟩ := exists_order_of_chooseBestRoundTrip hroute
    exact ⟨⟨order, hvisits, heval⟩, fun other hother =>
      isLE_compareRoutes_of_chooseBestRoundTrip hroute hother⟩
  lexicographic hnull route hroute other hother := by
    have hparsed : ∀ branch ∈ branches.map (·.parsed), 0 ∉ branch.branchId :=
      List.forall_mem_map.mpr fun branch hbranch => zero_notMem_trim (hnull branch hbranch)
    obtain ⟨-, order, hvisits, heval⟩ := exists_order_of_chooseBestRoundTrip hroute
    rw [← compareRoutes_eq hparsed ⟨order, hvisits, heval⟩ hother]
    exact isLE_compareRoutes_of_chooseBestRoundTrip hroute hother
  permuted branches' requiredChains' hbranches hchains :=
    chooseBestRoundTrip_perm (hbranches.map _) hchains

/-! ### Identifiers with null characters -/

/-- The branches `a`, `a␀b` and `c` of two chains. -/
def nullBranches : List MatrixBranchCandidate :=
  [⟨⟨js "a", .bunnpris, ⟨0, 0⟩, js "A"⟩, 1⟩,
    ⟨⟨js "a" ++ 0 :: js "b", .bunnpris, ⟨0, 0⟩, js "B"⟩, 2⟩,
    ⟨⟨js "c", .extra, ⟨0, 0⟩, js "C"⟩, 3⟩]

/-- A matrix whose cells are all equal. -/
def evenMatrix (size : ℕ) : RouteMatrix :=
  ⟨List.replicate size (List.replicate size (some ⟨1, 1⟩))⟩

/-- The trip by `a␀b` and `c` is chosen, though the one by `a` and `c` is as short and comes first
lexicographically. -/
theorem not_lexicographic_nullBranches :
    ∃ route other,
      chooseBestRoundTripFrom nullBranches (evenMatrix 4) [.bunnpris, .extra] = some route ∧
        IsRoundTrip (nullBranches.map (·.parsed)) (evenMatrix 4) [.bunnpris, .extra] other ∧
          compareByBranches other route = .lt := by
  refine ⟨⟨3, 3, [⟨js "a" ++ 0 :: js "b", .bunnpris, js "B", 1⟩, ⟨js "c", .extra, js "C", 2⟩]⟩,
    ⟨3, 3, [⟨js "a", .bunnpris, js "A", 1⟩, ⟨js "c", .extra, js "C", 2⟩]⟩, by decide +kernel,
    ⟨[⟨⟨js "a", .bunnpris, ⟨0, 0⟩, js "A"⟩, 1⟩, ⟨⟨js "c", .extra, ⟨0, 0⟩, js "C"⟩, 3⟩],
      ⟨by decide, by decide⟩, by decide +kernel⟩, by decide⟩

end Handleplan
