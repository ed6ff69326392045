import Handleplan.Domain.TravelContracts
import Handleplan.Lib.Choices
import Handleplan.Lib.Subsets

/-!
# The best round trip

A plan is collected on one round trip from the origin: a branch of each of its chains, in the order
that takes the least time.

## Main definitions

* `chooseBestRoundTrip` — the search over branches and orders.
* `Visits`, `SafeRoundTrip` — an order visits each chain once, and its legs
  add up to safe integers.

## Main results

* `evaluateOrder_eq_some_iff` — an order is evaluated exactly when it is safe.
* `exists_chooseBestRoundTrip_iff` — a round trip is found exactly when one exists.
* `exists_order_of_chooseBestRoundTrip` — the round trip found comes from such an order.
-/

namespace Handleplan

open JsString Sorting

/-! ### Evaluating an order -/

/-- `MatrixBranchCandidate`. -/
structure MatrixBranchCandidate extends InternalTravelBranch where
  matrixIndex : ℕ
  deriving DecidableEq

/-- `matrixBranchCandidateSchema`. -/
@[mk_iff] structure MatrixBranchCandidateSchema (branch : MatrixBranchCandidate) : Prop where
  internal : InternalTravelBranchSchema branch.toInternalTravelBranch
  matrixIndex : 1 ≤ branch.matrixIndex ∧ branch.matrixIndex ≤ 9

instance : DecidablePred MatrixBranchCandidateSchema :=
  fun _ => decidable_of_iff' _ (matrixBranchCandidateSchema_iff _)

/-- `BestRoundTrip`. -/
structure BestRoundTrip where
  distanceMeters : ℕ
  durationSeconds : ℕ
  stops : List TravelPublicBranchStop
  deriving DecidableEq

/-- `safeAdd`. -/
def safeAdd (left right : ℕ) : Option ℕ :=
  if left + right ≤ maxSafeInteger then some (left + right) else none

/-- `matrix.cells[from][to]`, when there is a cell. -/
def RouteMatrix.cell? (matrix : RouteMatrix) (origin destination : ℕ) : Option RouteMatrixCell :=
  ((matrix.cells[origin]?).bind (·[destination]?)).join

/-- The legs of an order: from the origin through its branches and back. -/
def legs (order : List MatrixBranchCandidate) : List (ℕ × ℕ) :=
  let indices := 0 :: order.map (·.matrixIndex) ++ [0]
  indices.zip indices.tail

/-- The loop of `evaluateOrder` over the legs. -/
def addLegs (matrix : RouteMatrix) : List (ℕ × ℕ) → ℕ → ℕ → Option (ℕ × ℕ)
  | [], distanceMeters, durationSeconds => some (distanceMeters, durationSeconds)
  | (origin, destination) :: rest, distanceMeters, durationSeconds =>
    match matrix.cell? origin destination with
    | none => none
    | some cell =>
      match safeAdd distanceMeters cell.distanceMeters,
        safeAdd durationSeconds cell.durationSeconds with
      | some nextDistance, some nextDuration => addLegs matrix rest nextDistance nextDuration
      | _, _ => none

/-- The stops of an order, numbered. -/
def stopsOf (order : List MatrixBranchCandidate) : List TravelPublicBranchStop :=
  order.mapIdx fun index branch => ⟨branch.branchId, branch.chainId, branch.name, index + 1⟩

variable {order branches : List MatrixBranchCandidate} {matrix : RouteMatrix}
  {requiredChains : List Chain}

/-- What a stop takes over from its branch does not depend on its number. -/
theorem map_stopsOf {α : Type*} (f : MatrixBranchCandidate → α) (g : TravelPublicBranchStop → α)
    (h : ∀ index branch, g ⟨branch.branchId, branch.chainId, branch.name, index⟩ = f branch) :
    (stopsOf order).map g = order.map f := by
  rw [stopsOf, List.mapIdx_eq_zipIdx_map, List.map_map]
  refine (List.map_congr_left fun entry _ => h _ _).trans ?_
  have hfst := congrArg (List.map f) (List.zipIdx_map_fst 0 order)
  rwa [List.map_map] at hfst

/-- `evaluateOrder`. -/
def evaluateOrder (order : List MatrixBranchCandidate) (matrix : RouteMatrix) :
    Option BestRoundTrip :=
  (addLegs matrix (legs order) 0 0).map fun total => ⟨total.1, total.2, stopsOf order⟩

/-! ### The search -/

/-- `compareRoutes`. -/
def compareRoutes : BestRoundTrip → BestRoundTrip → Ordering :=
  compareLex (compareOn (·.durationSeconds)) <|
    compareLex (compareOn (·.distanceMeters)) <|
      on (fun route => joinWith [0] (route.stops.map (·.branchId))) compareText

/-- The checks `chooseBestRoundTrip` makes before it searches. -/
@[mk_iff] structure RoundTripInput (branches : List MatrixBranchCandidate) (matrix : RouteMatrix)
    (requiredChains : List Chain) : Prop where
  validMatrix : RouteMatrixSchema matrix
  length_chains : 1 ≤ requiredChains.length ∧ requiredChains.length ≤ 3
  length_branches : 1 ≤ branches.length ∧ branches.length ≤ 9
  validBranches : ∀ branch ∈ branches, MatrixBranchCandidateSchema branch
  uniqueChains : requiredChains.Nodup
  uniqueBranches : (branches.map (·.branchId)).Nodup
  uniqueIndices : (branches.map (·.matrixIndex)).Nodup
  known : ∀ branch ∈ branches,
    branch.chainId ∈ requiredChains ∧ branch.matrixIndex < matrix.cells.length
  options : ∀ chain ∈ requiredChains,
    1 ≤ (branches.filter (·.chainId = chain)).length ∧
      (branches.filter (·.chainId = chain)).length ≤ 3

instance (branches : List MatrixBranchCandidate) (matrix : RouteMatrix)
    (requiredChains : List Chain) : Decidable (RoundTripInput branches matrix requiredChains) :=
  decidable_of_iff' _ (roundTripInput_iff _ _ _)

/-- `options`: the branches of each chain. -/
def branchOptions (branches : List MatrixBranchCandidate) (requiredChains : List Chain) :
    List (List MatrixBranchCandidate) :=
  (sortBy compareChains requiredChains).map fun chain =>
    sortBy (on (·.branchId) compareText) (branches.filter (·.chainId = chain))

/-- `chooseBestRoundTrip`. -/
def chooseBestRoundTrip (branches : List MatrixBranchCandidate) (matrix : RouteMatrix)
    (requiredChains : List Chain) : Option BestRoundTrip :=
  if RoundTripInput branches matrix requiredChains then
    least compareRoutes <|
      ((Subsets.choices (branchOptions branches requiredChains)).flatMap fun selection =>
        Subsets.arrangements selection.length selection).filterMap (evaluateOrder · matrix)
  else none

/-! ### Which round trips are found -/

/-- All legs have a cell, and their distances and durations add up to safe integers. -/
structure SafeRoundTrip (matrix : RouteMatrix) (order : List MatrixBranchCandidate) : Prop where
  complete : ∀ leg ∈ legs order, (matrix.cell? leg.1 leg.2).isSome = true
  distance : ((legs order).map fun leg =>
    ((matrix.cell? leg.1 leg.2).map (·.distanceMeters)).getD 0).sum ≤ maxSafeInteger
  duration : ((legs order).map fun leg =>
    ((matrix.cell? leg.1 leg.2).map (·.durationSeconds)).getD 0).sum ≤ maxSafeInteger

/-- The order visits one of the branches of each chain, and no other. -/
structure Visits (branches : List MatrixBranchCandidate) (requiredChains : List Chain)
    (order : List MatrixBranchCandidate) : Prop where
  chains : (order.map (·.chainId)).Perm requiredChains
  subset : ∀ branch ∈ order, branch ∈ branches

/-- The loop adds up the cells of all legs, and fails as soon as a sum is not safe: since no cell is
negative, exactly when the whole sum is not. -/
theorem addLegs_eq_some_iff {rest : List (ℕ × ℕ)} {distance duration : ℕ}
    (hdistance : distance ≤ maxSafeInteger) (hduration : duration ≤ maxSafeInteger) {total : ℕ × ℕ} :
    addLegs matrix rest distance duration = some total ↔
      (∀ leg ∈ rest, (matrix.cell? leg.1 leg.2).isSome = true) ∧
      distance + (rest.map fun leg =>
        ((matrix.cell? leg.1 leg.2).map (·.distanceMeters)).getD 0).sum = total.1 ∧
      duration + (rest.map fun leg =>
        ((matrix.cell? leg.1 leg.2).map (·.durationSeconds)).getD 0).sum = total.2 ∧
      total.1 ≤ maxSafeInteger ∧ total.2 ≤ maxSafeInteger := by
  induction rest generalizing distance duration with
  | nil =>
    obtain ⟨d, t⟩ := total
    simp only [addLegs, Option.some.injEq, Prod.mk.injEq, List.not_mem_nil, false_imp_iff,
      implies_true, List.map_nil, List.sum_nil, Nat.add_zero, true_and]
    constructor
    · rintro ⟨rfl, rfl⟩
      exact ⟨rfl, rfl, hdistance, hduration⟩
    · rintro ⟨rfl, rfl, -, -⟩
      exact ⟨rfl, rfl⟩
  | cons leg rest ih =>
    obtain ⟨origin, destination⟩ := leg
    simp only [List.forall_mem_cons, List.map_cons, List.sum_cons]
    cases hcell : matrix.cell? origin destination with
    | none => simp [addLegs, hcell]
    | some cell =>
      have hstep : addLegs matrix ((origin, destination) :: rest) distance duration = some total ↔
          distance + cell.distanceMeters ≤ maxSafeInteger ∧
            duration + cell.durationSeconds ≤ maxSafeInteger ∧
            addLegs matrix rest (distance + cell.distanceMeters)
              (duration + cell.durationSeconds) = some total := by
        rw [addLegs, hcell]
        dsimp only
        unfold safeAdd
        by_cases hd : distance + cell.distanceMeters ≤ maxSafeInteger <;>
          by_cases ht : duration + cell.durationSeconds ≤ maxSafeInteger <;> simp [hd, ht]
      rw [hstep]
      simp only [Option.isSome_some, true_and, Option.map_some, Option.getD_some]
      constructor
      · rintro ⟨hd, ht, hrest⟩
        obtain ⟨hcells, hsumDistance, hsumDuration, hle⟩ := (ih hd ht).mp hrest
        exact ⟨hcells, by omega, by omega, hle⟩
      · rintro ⟨hcells, hsumDistance, hsumDuration, hle⟩
        have hd : distance + cell.distanceMeters ≤ maxSafeInteger := by omega
        have ht : duration + cell.durationSeconds ≤ maxSafeInteger := by omega
        exact ⟨hd, ht, (ih hd ht).mpr ⟨hcells, by omega, by omega, hle⟩⟩

/-- **An order is evaluated exactly when it is safe**, to a trip with its stops. -/
theorem evaluateOrder_eq_some_iff {route : BestRoundTrip} :
    evaluateOrder order matrix = some route ↔ SafeRoundTrip matrix order ∧
      route.stops = stopsOf order ∧
      ((legs order).map fun leg =>
        ((matrix.cell? leg.1 leg.2).map (·.distanceMeters)).getD 0).sum = route.distanceMeters ∧
      ((legs order).map fun leg =>
        ((matrix.cell? leg.1 leg.2).map (·.durationSeconds)).getD 0).sum =
          route.durationSeconds := by
  have hzero : 0 ≤ maxSafeInteger := Nat.zero_le _
  unfold evaluateOrder
  simp only [Option.map_eq_some_iff, addLegs_eq_some_iff hzero hzero, Nat.zero_add]
  constructor
  · rintro ⟨total, ⟨hcells, hdistance, hduration, hle⟩, rfl⟩
    exact ⟨⟨hcells, hdistance ▸ hle.1, hduration ▸ hle.2⟩, rfl, hdistance, hduration⟩
  · rintro ⟨hsafe, hstops, hdistance, hduration⟩
    refine ⟨(route.distanceMeters, route.durationSeconds), ⟨hsafe.complete, hdistance, hduration,
      hdistance ▸ hsafe.distance, hduration ▸ hsafe.duration⟩, ?_⟩
    rw [← hstops]

/-- The orders searched are those that visit each chain. -/
theorem mem_orders_iff :
    (∃ selection ∈ Subsets.choices (branchOptions branches requiredChains),
      order ∈ Subsets.arrangements selection.length selection) ↔
        Visits branches requiredChains order := by
  have hmem : ∀ selection, selection ∈ Subsets.choices (branchOptions branches requiredChains) ↔
      selection.map (·.chainId) = sortBy compareChains requiredChains ∧
        ∀ branch ∈ selection, branch ∈ branches := by
    intro selection
    rw [Subsets.mem_choices, branchOptions, List.forall₂_map_right_iff]
    simp only [mem_sortBy, List.mem_filter, decide_eq_true_eq]
    generalize sortBy compareChains requiredChains = chains
    induction selection generalizing chains with
    | nil =>
      cases chains with
      | nil => simp
      | cons chain chains => simp
    | cons branch selection ih =>
      cases chains with
      | nil => simp
      | cons chain chains =>
        rw [List.forall₂_cons, ih]
        simp only [List.map_cons, List.cons.injEq, List.forall_mem_cons]
        tauto
  constructor
  · rintro ⟨selection, hselection, horder⟩
    obtain ⟨heq, hsub⟩ := (hmem selection).mp hselection
    have hperm := (Subsets.mem_arrangements le_rfl).mp horder
    refine ⟨?_, fun branch hbranch => hsub branch (hperm.mem_iff.mp hbranch)⟩
    have hmap := hperm.map (·.chainId)
    rw [heq] at hmap
    exact hmap.trans (sortBy_perm _ _)
  · intro hvisits
    have hsorted : (sortBy (on (·.chainId) compareChains) order).map (·.chainId) =
        sortBy compareChains requiredChains := by
      have hmap : (sortBy (on (·.chainId) compareChains) order).map (·.chainId) =
          sortBy compareChains (order.map (·.chainId)) :=
        map_sortBy (fun branch : MatrixBranchCandidate => branch.chainId) (fun _ _ => rfl) order
      rw [hmap]
      exact sortBy_eq_of_perm hvisits.chains fun _ _ _ _ => compareChains_eq_iff.mp
    refine ⟨sortBy (on (·.chainId) compareChains) order, (hmem _).mpr ⟨hsorted, ?_⟩,
      (Subsets.mem_arrangements le_rfl).mpr (sortBy_perm _ _).symm⟩
    intro branch hbranch
    exact hvisits.subset branch (mem_sortBy.mp hbranch)

/-- **The round trip found** is the evaluation of a safe order that visits each chain. -/
theorem exists_order_of_chooseBestRoundTrip {route : BestRoundTrip}
    (h : chooseBestRoundTrip branches matrix requiredChains = some route) :
    RoundTripInput branches matrix requiredChains ∧
      ∃ order, Visits branches requiredChains order ∧ evaluateOrder order matrix = some route := by
  unfold chooseBestRoundTrip at h
  split_ifs at h with hinput
  obtain ⟨order, horder, hroute⟩ := List.mem_filterMap.mp (least_mem h)
  rw [List.mem_flatMap] at horder
  exact ⟨hinput, order, mem_orders_iff.mp horder, hroute⟩

/-- **A round trip is found exactly when a safe one exists.** -/
theorem exists_chooseBestRoundTrip_iff :
    (∃ route, chooseBestRoundTrip branches matrix requiredChains = some route) ↔
      RoundTripInput branches matrix requiredChains ∧
        ∃ order, Visits branches requiredChains order ∧ SafeRoundTrip matrix order := by
  constructor
  · rintro ⟨route, h⟩
    obtain ⟨hinput, order, hvisits, hroute⟩ := exists_order_of_chooseBestRoundTrip h
    exact ⟨hinput, order, hvisits, (evaluateOrder_eq_some_iff.mp hroute).1⟩
  · rintro ⟨hinput, order, hvisits, hsafe⟩
    obtain ⟨route, hroute⟩ : ∃ route, evaluateOrder order matrix = some route :=
      ⟨⟨_, _, stopsOf order⟩, evaluateOrder_eq_some_iff.mpr ⟨hsafe, rfl, rfl, rfl⟩⟩
    unfold chooseBestRoundTrip
    rw [if_pos hinput]
    refine exists_least _ (a := route) (List.mem_filterMap.mpr ⟨order, ?_, hroute⟩)
    rw [List.mem_flatMap]
    exact mem_orders_iff.mpr hvisits

end Handleplan
