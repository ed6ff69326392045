import Handleplan.Domain.PlannerV2Spec
import Handleplan.Web.TravelServiceSpec

/-!
# When travel is calculated for all candidates

The planner hands the travel service all complete candidates of a request, one for each set of
chains at most. The service was made for a published list: it takes seven candidates, and the
branch directory answers for three chains.

## Main definitions

* `TravelService.GatewaysAnswer` — the gateways have a branch of each chain and a
  complete matrix.
* `TravelService.EvaluatesEveryCandidate` — the coordinator is handed travel for each
  candidate.

## Main results

* `TravelService.evaluatesEveryCandidate_iff` — with answering gateways every candidate
  is evaluated exactly for one to seven candidates with distinct identifiers over at most three
  chains, each with a round trip of safe length.
* `TravelService.eightCandidates_providerUnavailable` — eight chains, one candidate each.
-/

namespace Handleplan.TravelService

open JsString Sorting FrontierV2

/-! ### The selected branches -/

section Branches

variable {gateways : Gateways} {origin : TravelCoordinate} {snapshot : BranchDirectorySnapshot}
  {chains : List Chain}

/-- A nearest branch is one of the snapshot, of its chain. -/
theorem mem_nearestBranches {chain : Chain} {branch : InternalTravelBranch}
    (h : branch ∈ nearestBranches gateways origin snapshot chain) :
    branch ∈ snapshot.branches ∧ branch.chainId = chain := by
  have hsorted := List.mem_of_mem_take h
  rw [mem_sortBy] at hsorted
  obtain ⟨hmem, hchain⟩ := List.mem_filter.mp (List.mem_of_mem_filter hsorted)
  exact ⟨hmem, of_decide_eq_true hchain⟩

variable (gateways origin snapshot) in
theorem length_nearestBranches_le (chain : Chain) :
    (nearestBranches gateways origin snapshot chain).length ≤ 3 :=
  List.length_take_le _ _

theorem nearestBranches_ne_nil {chain : Chain} {branch : InternalTravelBranch}
    (hbranch : branch ∈ snapshot.branches) (hchain : branch.chainId = chain)
    (hnear : gateways.distanceMeters origin branch.coordinate ≤ gateways.branchRadiusMeters) :
    nearestBranches gateways origin snapshot chain ≠ [] := by
  have hmem : branch ∈ (snapshot.branches.filter (·.chainId = chain)).filter fun branch =>
      decide (gateways.distanceMeters origin branch.coordinate ≤ gateways.branchRadiusMeters) :=
    List.mem_filter.mpr
      ⟨List.mem_filter.mpr ⟨hbranch, decide_eq_true hchain⟩, decide_eq_true hnear⟩
  intro hnil
  rcases List.take_eq_nil_iff.mp hnil with hzero | hempty
  · exact absurd hzero (by omega)
  · rw [sortBy_eq_nil_iff] at hempty
    exact List.ne_nil_of_mem hmem hempty

theorem mem_selectedBranches {branch : InternalTravelBranch} :
    branch ∈ selectedBranches gateways origin snapshot chains ↔
      branch.chainId ∈ chains ∧
        branch ∈ nearestBranches gateways origin snapshot branch.chainId := by
  rw [selectedBranches, List.mem_flatMap]
  constructor
  · rintro ⟨chain, hchain, hmem⟩
    obtain rfl := (mem_nearestBranches hmem).2
    exact ⟨hchain, hmem⟩
  · rintro ⟨hchain, hmem⟩
    exact ⟨_, hchain, hmem⟩

variable (gateways origin snapshot chains) in
theorem length_selectedBranches_le :
    (selectedBranches gateways origin snapshot chains).length ≤ 3 * chains.length := by
  induction chains with
  | nil => exact Nat.le_refl 0
  | cons chain chains ih =>
    have hfirst := length_nearestBranches_le gateways origin snapshot chain
    unfold selectedBranches at ih ⊢
    rw [List.flatMap_cons, List.length_append, List.length_cons]
    omega

variable (gateways origin) in
/-- The selected branches have identifiers of their own. -/
theorem nodup_selectedBranches (hsnapshot : SnapshotIsWellFormed snapshot)
    (hchains : chains.Nodup) :
    ((selectedBranches gateways origin snapshot chains).map (·.branchId)).Nodup := by
  have hbranches : snapshot.branches.Nodup := List.Nodup.of_map _ hsnapshot.uniqueBranches
  have hnodup : (selectedBranches gateways origin snapshot chains).Nodup := by
    unfold selectedBranches
    rw [List.nodup_flatMap]
    refine ⟨fun chain _ => ?_, ?_⟩
    · exact (nodup_sortBy.mpr ((hbranches.filter _).filter _)).sublist (List.take_sublist _ _)
    · refine hchains.imp fun {chain chain'} hne branch hbranch hbranch' => hne ?_
      rw [← (mem_nearestBranches hbranch).2, ← (mem_nearestBranches hbranch').2]
  refine List.Nodup.map_on (fun a ha b hb hab => ?_) hnodup
  exact List.inj_on_of_nodup_map hsnapshot.uniqueBranches
    (mem_nearestBranches (mem_selectedBranches.mp ha).2).1
    (mem_nearestBranches (mem_selectedBranches.mp hb).2).1 hab

end Branches

/-! ### Numbered branches and stops -/

section Numbered

variable {selected : List InternalTravelBranch} {order : List MatrixBranchCandidate}

theorem map_number_zipIdx {α : Type*} (l : List α) :
    l.zipIdx.map (fun entry => entry.2 + 1) = List.range' 1 l.length := by
  have hindices := congrArg (List.map (1 + ·)) (List.zipIdx_map_snd 0 l)
  rw [List.map_map, List.map_add_range'] at hindices
  exact (List.map_congr_left fun entry _ => Nat.add_comm _ _).trans hindices

theorem map_branch_matrixBranches (selected : List InternalTravelBranch) :
    (matrixBranches selected).map (·.toInternalTravelBranch) = selected := by
  rw [matrixBranches, List.mapIdx_eq_zipIdx_map, List.map_map]
  exact List.zipIdx_map_fst 0 selected

theorem map_matrixIndex_matrixBranches :
    (matrixBranches selected).map (·.matrixIndex) = List.range' 1 selected.length := by
  rw [matrixBranches, List.mapIdx_eq_zipIdx_map, List.map_map]
  exact map_number_zipIdx selected

theorem mem_matrixBranches {branch : MatrixBranchCandidate}
    (h : branch ∈ matrixBranches selected) :
    branch.toInternalTravelBranch ∈ selected ∧ 1 ≤ branch.matrixIndex ∧
      branch.matrixIndex ≤ selected.length := by
  have hbranch := List.mem_map_of_mem (f := (·.toInternalTravelBranch)) h
  have hindex := List.mem_map_of_mem (f := (·.matrixIndex)) h
  rw [map_branch_matrixBranches] at hbranch
  rw [map_matrixIndex_matrixBranches, List.mem_range'_1] at hindex
  exact ⟨hbranch, hindex.1, by omega⟩

theorem map_sequence_stopsOf :
    (stopsOf order).map (·.sequence) = List.range' 1 order.length := by
  rw [stopsOf, List.mapIdx_eq_zipIdx_map, List.map_map]
  exact map_number_zipIdx order

theorem length_stopsOf : (stopsOf order).length = order.length := List.length_mapIdx

theorem mem_stopsOf {stop : TravelPublicBranchStop} (h : stop ∈ stopsOf order) :
    (∃ branch ∈ order, stop.branchId = branch.branchId ∧ stop.name = branch.name) ∧
      1 ≤ stop.sequence ∧ stop.sequence ≤ order.length := by
  have hsequence := List.mem_map_of_mem (f := (·.sequence)) h
  rw [map_sequence_stopsOf, List.mem_range'_1] at hsequence
  obtain ⟨index, hlt, rfl⟩ := List.mem_mapIdx.mp h
  exact ⟨⟨order[index], List.getElem_mem hlt, rfl, rfl⟩, hsequence.1, by omega⟩

end Numbered

/-! ### Candidates of one calculation -/

section Candidate

variable {gateways : Gateways} {input : TravelServiceInput} {snapshot : BranchDirectorySnapshot}
  {matrix : RouteMatrix} {candidate : PlanResultV2} {chains : List Chain}

/-- At most three branches of a chain are visited. -/
theorem length_filter_branchesOf_le (hsnapshot : SnapshotIsWellFormed snapshot)
    (hchains : chains.Nodup) (chain : Chain) :
    ((branchesOf (matrixBranches (selectedBranches gateways input.origin snapshot chains))
      candidate).filter (·.chainId = chain)).length ≤ 3 := by
  set branches := (branchesOf (matrixBranches (selectedBranches gateways input.origin snapshot
    chains)) candidate).filter (·.chainId = chain)
  have hnear : branches.map (·.toInternalTravelBranch) ⊆
      nearestBranches gateways input.origin snapshot chain := by
    refine List.forall_mem_map.mpr fun b hb => ?_
    obtain ⟨hb, heq⟩ := List.mem_filter.mp hb
    have hbranch := (mem_matrixBranches (List.mem_of_mem_filter hb)).1
    have hnear := (mem_selectedBranches.mp hbranch).2
    rwa [of_decide_eq_true heq] at hnear
  have hdistinct : (branches.map (·.toInternalTravelBranch)).Nodup := by
    have hall := List.Nodup.of_map _ (nodup_selectedBranches gateways input.origin hsnapshot hchains)
    rw [← map_branch_matrixBranches (selectedBranches _ _ _ _)] at hall
    exact hall.sublist ((List.filter_sublist.trans List.filter_sublist).map _)
  have hle := (List.subperm_of_subset hdistinct hnear).length_le
  rw [List.length_map] at hle
  exact hle.trans (length_nearestBranches_le _ _ _ chain)

/-- The checks of the search pass for every candidate over at most three chains. -/
theorem roundTripInput (hsnapshot : SnapshotIsWellFormed snapshot) (hchains : chains.Nodup)
    (hthree : chains.length ≤ 3)
    (hbranches : ∀ chain ∈ chains, ∃ branch ∈
      selectedBranches gateways input.origin snapshot chains, branch.chainId = chain)
    (hmatrix : CompleteMatrix matrix
      ((selectedBranches gateways input.origin snapshot chains).length + 1))
    (hcandidate : PlanResultV2Schema candidate)
    (hsub : ∀ chain ∈ candidate.chains, chain ∈ chains) :
    RoundTripInput
      (branchesOf (matrixBranches (selectedBranches gateways input.origin snapshot chains))
        candidate) matrix candidate.chains := by
  have hnodup := nodup_selectedBranches gateways input.origin hsnapshot hchains
  have hcount := length_selectedBranches_le gateways input.origin snapshot chains
  generalize hselected : selectedBranches gateways input.origin snapshot chains = selected at *
  have hmem : ∀ branch ∈ branchesOf (matrixBranches selected) candidate,
      branch ∈ matrixBranches selected ∧ branch.chainId ∈ candidate.chains := by
    intro branch hbranch
    obtain ⟨hbranch, hchain⟩ := List.mem_filter.mp hbranch
    exact ⟨hbranch, of_decide_eq_true hchain⟩
  have hnumbered : ∀ {branch}, branch ∈ selected →
      ∃ b ∈ matrixBranches selected, b.toInternalTravelBranch = branch := by
    intro branch hbranch
    rw [← map_branch_matrixBranches selected] at hbranch
    exact List.mem_map.mp hbranch
  have hids : ((matrixBranches selected).map (·.branchId)).Nodup := by
    have hmap :=
      congrArg (List.map (·.branchId)) (map_branch_matrixBranches selected)
    rw [List.map_map] at hmap
    exact hmap ▸ hnodup
  have hsublist : (branchesOf (matrixBranches selected) candidate).Sublist
      (matrixBranches selected) := List.filter_sublist
  have hlength : (matrixBranches selected).length = selected.length := List.length_mapIdx
  have hoptions : ∀ chain ∈ candidate.chains, ∃ b ∈
      branchesOf (matrixBranches selected) candidate, b.chainId = chain := by
    intro chain hchain
    obtain ⟨branch, hbranch, heq⟩ := hbranches chain (hsub chain hchain)
    obtain ⟨b, hb, rfl⟩ := hnumbered hbranch
    refine ⟨b, List.mem_filter.mpr ⟨hb, decide_eq_true ?_⟩, heq⟩
    rw [heq]
    exact hchain
  refine
    { validMatrix := hmatrix.1
      length_chains := hcandidate.length_chains
      length_branches := ⟨?_, ?_⟩
      validBranches := fun branch hbranch => ⟨?_, ?_⟩
      uniqueChains := hcandidate.uniqueChains
      uniqueBranches := hids.sublist (hsublist.map _)
      uniqueIndices := ?_
      known := fun branch hbranch => ⟨(hmem branch hbranch).2, ?_⟩
      options := fun chain hchain => ⟨?_, ?_⟩ }
  · obtain ⟨chain, hchain⟩ := List.exists_mem_of_length_pos hcandidate.length_chains.1
    obtain ⟨b, hb, -⟩ := hoptions chain hchain
    exact List.length_pos_of_mem hb
  · have := hsublist.length_le
    omega
  · have hbranch := (mem_matrixBranches (hmem branch hbranch).1).1
    rw [← hselected] at hbranch
    exact hsnapshot.branches _ (mem_nearestBranches (mem_selectedBranches.mp hbranch).2).1
  · obtain ⟨-, hpos, hle⟩ := mem_matrixBranches (hmem branch hbranch).1
    exact ⟨hpos, by omega⟩
  · have hindices : ((matrixBranches selected).map (·.matrixIndex)).Nodup := by
      rw [map_matrixIndex_matrixBranches]
      exact List.nodup_range'
    exact hindices.sublist (hsublist.map _)
  · obtain ⟨-, -, hle⟩ := mem_matrixBranches (hmem branch hbranch).1
    rw [hmatrix.2.1]
    omega
  · obtain ⟨b, hb, heq⟩ := hoptions chain hchain
    exact List.length_pos_of_mem (List.mem_filter.mpr ⟨hb, decide_eq_true heq⟩)
  · rw [← hselected]
    exact length_filter_branchesOf_le hsnapshot hchains chain

/-- The public route of a candidate is valid. -/
theorem travelRouteEvidenceSchema_publicRoute {branches : List MatrixBranchCandidate}
    (hcandidate : PlanResultV2Schema candidate)
    (htime : CanonicalTimestamp input.capturedEvaluationTime)
    (hprovider : IdentifierSchema gateways.providerSourceId) {fingerprint : JsString}
    (hfingerprint : IdentifierSchema fingerprint) {trip : BestRoundTrip}
    (htrip : chooseBestRoundTrip branches matrix candidate.chains = some trip) :
    TravelRouteEvidenceSchema (publicRoute gateways input candidate trip fingerprint) := by
  obtain ⟨hinput, order, hvisits, hroute⟩ := exists_order_of_chooseBestRoundTrip htrip
  obtain ⟨hsafe, hstops, hdistance, hduration⟩ := evaluateOrder_eq_some_iff.mp hroute
  have hlength : order.length = candidate.chains.length := by
    simpa using hvisits.chains.length_eq
  have hchains : (order.map (·.chainId)).Nodup :=
    hvisits.chains.nodup_iff.mpr hcandidate.uniqueChains
  have hbounds := hcandidate.length_chains
  refine
    { aggregate :=
        { calculatedAt := htime
          distanceMeters := hdistance.symm.le.trans hsafe.distance
          durationSeconds := hduration.symm.le.trans hsafe.duration
          providerSourceId := hprovider
          routeFingerprint := hfingerprint }
      planId := hcandidate.id
      length_stops := ?_
      stops := fun stop hstop => ?_
      uniqueBranches := ?_
      uniqueChains := ?_
      contiguous := ?_ }
  · change 1 ≤ trip.stops.length ∧ trip.stops.length ≤ 3
    rw [hstops, length_stopsOf]
    omega
  · change stop ∈ trip.stops at hstop
    rw [hstops] at hstop
    obtain ⟨⟨branch, hbranch, hid, hname⟩, hpos, hle⟩ := mem_stopsOf hstop
    have hvalid := (hinput.validBranches branch (hvisits.subset branch hbranch)).internal
    exact ⟨hid ▸ hvalid.branchId, hname ▸ hvalid.name, hpos, by omega⟩
  · change (trip.stops.map (·.branchId)).Nodup
    rw [hstops, map_stopsOf (·.branchId) _ fun _ _ => rfl]
    refine List.Nodup.map_on (fun a ha b hb hab => ?_) (List.Nodup.of_map _ hchains)
    exact List.inj_on_of_nodup_map hinput.uniqueBranches (hvisits.subset a ha)
      (hvisits.subset b hb) hab
  · change (trip.stops.map (·.chainId)).Nodup
    rwa [hstops, map_stopsOf (·.chainId) _ fun _ _ => rfl]
  · change trip.stops.map (·.sequence) = List.range' 1 trip.stops.length
    rw [hstops, map_sequence_stopsOf, length_stopsOf]

end Candidate

/-! ### All candidates of a request -/

/-- **The gateways answer**: the origin, the market and the evaluation time are valid, the directory
has a near branch of each chain of the candidates, the matrix of the selected points is complete,
and fingerprints are new identifiers. -/
structure GatewaysAnswer (gateways : Gateways) (input : TravelServiceInput)
    (snapshot : BranchDirectorySnapshot) (matrix : RouteMatrix) : Prop where
  origin : TravelCoordinateSchema input.origin
  market : MarketContextV1Schema input.marketContext
  evaluationTime : CanonicalTimestamp input.capturedEvaluationTime
  provider : IdentifierSchema gateways.providerSourceId
  fingerprint : ∀ call < input.candidates.length, ∃ fingerprint,
    gateways.createRouteFingerprint call = some fingerprint ∧ IdentifierSchema fingerprint
  fresh : ∀ call < input.candidates.length, ∀ call' < input.candidates.length,
    gateways.createRouteFingerprint call = gateways.createRouteFingerprint call' → call = call'
  loaded : gateways.loadEligibleBranches (requiredChains input.candidates)
    input.capturedEvaluationTime input.marketContext = .ok (some snapshot)
  wellFormed : SnapshotIsWellFormed snapshot
  complete : snapshot.complete = true
  eligible : SameStringSet snapshot.eligibleChainIds (requiredChains input.candidates)
  sameMarket : snapshot.marketContext = input.marketContext
  branches : ∀ chain ∈ requiredChains input.candidates, ∃ branch ∈ snapshot.branches,
    branch.chainId = chain ∧
      gateways.distanceMeters input.origin branch.coordinate ≤ gateways.branchRadiusMeters
  matrix : ∀ points, points = input.origin ::
      (selectedBranches gateways input.origin snapshot (requiredChains input.candidates)).map
        (·.coordinate) →
    points.length ≤ maxRouteMatrixPoints →
      gateways.calculateMatrix input.mode points = .ok (some matrix) ∧
        CompleteMatrix matrix points.length

/-- Some order of selected branches, one of each chain of the candidate, has legs that add up to
safe integers. -/
def HasRoundTrip (gateways : Gateways) (input : TravelServiceInput)
    (snapshot : BranchDirectorySnapshot) (matrix : RouteMatrix) (candidate : PlanResultV2) : Prop :=
  ∃ order, Visits
    (branchesOf (matrixBranches (selectedBranches gateways input.origin snapshot
      (requiredChains input.candidates))) candidate) candidate.chains order ∧
    SafeRoundTrip matrix order

/-- **Travel is calculated for all candidates**: the coordinator is handed the canonical form of
each of them, with travel. -/
def EvaluatesEveryCandidate (gateways : Gateways) (input : TravelServiceInput) : Prop :=
  ∃ result, coordinateTravel gateways input = .ok result ∧
    (result.evaluatedCandidates.map (·.plan)).Perm (input.candidates.map canonicalPlan) ∧
    ∀ c ∈ result.evaluatedCandidates, hasTravel c = true

section Bounds

variable {gateways : Gateways} {input : TravelServiceInput} {snapshot : BranchDirectorySnapshot}
  {matrix : RouteMatrix}

/-- When the coordinator is handed travel. -/
theorem coordinateTravel_eq_ok_iff {result : CalculatedResult} :
    coordinateTravel gateways input = .ok result ↔
      ∃ candidates, parseCandidates input.candidates = some candidates ∧
        MarketContextV1Schema input.marketContext ∧
        calculateTravel gateways input candidates = .ok result ∧
        CalculatedTravelOutputIsCoherent result input.candidates := by
  unfold coordinateTravel calculate
  cases hparse : parseCandidates input.candidates with
  | none => simp
  | some candidates =>
    by_cases hmarket : MarketContextV1Schema input.marketContext
    · cases htravel : calculateTravel gateways input candidates with
      | error reason => simp [hmarket, htravel]
      | ok found =>
        simp only [hmarket, not_true_eq_false, if_false, htravel, ite_ok_eq_ok_iff,
          Option.some.injEq, true_and, exists_eq_left', Except.ok.injEq]
        constructor
        · rintro ⟨hcoherent, rfl⟩
          exact ⟨rfl, hcoherent⟩
        · rintro ⟨rfl, hcoherent⟩
          exact ⟨hcoherent, rfl⟩
    · simp [hmarket]

section

variable (h : GatewaysAnswer gateways input snapshot matrix)

include h

/-- What the gateways answer about the selected branches, when there are at most three chains. -/
theorem GatewaysAnswer.selected :
    ∀ chain ∈ requiredChains input.candidates, ∃ branch ∈
      selectedBranches gateways input.origin snapshot (requiredChains input.candidates),
      branch.chainId = chain := by
  intro chain hchain
  obtain ⟨branch, hbranch, hid, hnear⟩ := h.branches chain hchain
  obtain ⟨near, hmem⟩ := List.exists_mem_of_ne_nil _ (nearestBranches_ne_nil hbranch hid hnear)
  have hnearId := (mem_nearestBranches hmem).2
  exact ⟨near, mem_selectedBranches.mpr ⟨hnearId ▸ hchain, hnearId.symm ▸ hmem⟩, hnearId⟩

/-- The matrix of the origin and the selected branches is loaded, for one to three chains. -/
theorem GatewaysAnswer.loadMatrix (hsome : 1 ≤ (requiredChains input.candidates).length)
    (hthree : (requiredChains input.candidates).length ≤ 3) :
    loadMatrix gateways input.mode (input.origin :: (selectedBranches gateways input.origin snapshot
      (requiredChains input.candidates)).map (·.coordinate)) = .ok matrix := by
  have hcount := length_selectedBranches_le gateways input.origin snapshot
    (requiredChains input.candidates)
  obtain ⟨chain, hchain⟩ := List.exists_mem_of_length_pos hsome
  obtain ⟨branch, hbranch, -⟩ := h.selected chain hchain
  have hpositive := List.length_pos_of_mem hbranch
  have hlength : 2 ≤ (input.origin :: (selectedBranches gateways input.origin snapshot
      (requiredChains input.candidates)).map (·.coordinate)).length ∧
      (input.origin :: (selectedBranches gateways input.origin snapshot
        (requiredChains input.candidates)).map (·.coordinate)).length ≤ maxRouteMatrixPoints := by
    rw [List.length_cons, List.length_map, maxRouteMatrixPoints]
    omega
  refine loadMatrix_eq_ok_iff.mpr ⟨⟨hlength, List.forall_mem_cons.mpr ⟨h.origin,
    List.forall_mem_map.mpr fun b hb => ?_⟩⟩, h.matrix _ rfl hlength.2⟩
  exact (h.wellFormed.branches b (mem_nearestBranches (mem_selectedBranches.mp hb).2).1).coordinate

/-- A calculation that succeeds has found a round trip for each candidate over at most three
chains. -/
theorem of_calculateTravel {candidates : List PlanResultV2} (hperm : candidates.Perm input.candidates)
    {result : CalculatedResult} (hresult : calculateTravel gateways input candidates = .ok result) :
    (requiredChains input.candidates).length ≤ 3 ∧
      ∀ candidate ∈ input.candidates, HasRoundTrip gateways input snapshot matrix candidate := by
  obtain ⟨-, -, snapshot', hsnapshot, selected, hselected, matrix', hmatrix, trips, htrips, -⟩ :=
    calculateTravel_eq_ok_iff.mp hresult
  rw [requiredChains_eq_of_perm hperm] at hsnapshot hselected
  obtain ⟨hloaded, hschema, -, hsame, -⟩ := loadSnapshot_eq_ok_iff.mp hsnapshot
  obtain rfl : snapshot = snapshot' := by
    rw [h.loaded] at hloaded
    exact Option.some.inj (Except.ok.inj hloaded)
  obtain ⟨-, rfl⟩ := selectBranches_eq_ok_iff.mp hselected
  obtain ⟨hpoints, hcells, -⟩ := loadMatrix_eq_ok_iff.mp hmatrix
  obtain rfl : matrix = matrix' := by
    rw [(h.matrix _ rfl hpoints.1.2).1] at hcells
    exact Option.some.inj (Except.ok.inj hcells)
  refine ⟨hsame.1 ▸ hschema.1.2, fun candidate hcandidate => ?_⟩
  obtain ⟨trip, -, htrip⟩ := Choices.exists_choice_of_forall₂ (selectTrips_eq_ok_iff.mp htrips)
    (hperm.mem_iff.mpr hcandidate)
  exact (exists_chooseBestRoundTrip_iff.mp ⟨trip, htrip⟩).2

/-- Fingerprints are created for all candidates. -/
theorem GatewaysAnswer.exists_createFingerprints :
    ∃ fingerprints, createFingerprints gateways input.candidates.length = .ok fingerprints ∧
      fingerprints.length = input.candidates.length ∧
      (∀ fingerprint ∈ fingerprints, IdentifierSchema fingerprint) ∧ fingerprints.Nodup := by
  obtain ⟨fingerprints, hcreated⟩ : ∃ fingerprints, List.Forall₂ (fun call fingerprint =>
      gateways.createRouteFingerprint call = some fingerprint)
      (List.range input.candidates.length) fingerprints :=
    Choices.exists_forall₂ fun call hcall => by
      obtain ⟨fingerprint, hcreate, -⟩ := h.fingerprint call (List.mem_range.mp hcall)
      exact ⟨fingerprint, hcreate⟩
  have hvalid : ∀ fingerprint ∈ fingerprints, IdentifierSchema fingerprint := by
    intro fingerprint hmem
    obtain ⟨call, hcall, hcreate⟩ := Choices.exists_mem_of_forall₂ hcreated hmem
    obtain ⟨created, hcreate', hvalid⟩ := h.fingerprint call (List.mem_range.mp hcall)
    obtain rfl := Option.some.inj (hcreate.symm.trans hcreate')
    exact hvalid
  have hnodup : (fingerprints.map some).Nodup := by
    rw [← Choices.map_eq_map_of_forall₂ hcreated fun _ _ heq => heq]
    refine List.Nodup.map_on (fun call hcall call' hcall' heq => ?_) List.nodup_range
    exact h.fresh call (List.mem_range.mp hcall) call' (List.mem_range.mp hcall') heq
  have hdistinct := List.Nodup.of_map _ hnodup
  refine ⟨fingerprints, createFingerprints_eq_ok_iff.mpr ⟨hcreated, hvalid, hdistinct⟩, ?_, hvalid,
    hdistinct⟩
  rw [← hcreated.length_eq, List.length_range]

end

/-- The routes of candidates with a trip and a fingerprint each. -/
theorem routesFor_publicRoutes {candidates : List PlanResultV2} {branches} {trips} {fingerprints}
    (hschema : ∀ candidate ∈ candidates, PlanResultV2Schema candidate)
    (htime : CanonicalTimestamp input.capturedEvaluationTime)
    (hprovider : IdentifierSchema gateways.providerSourceId)
    (htrips : List.Forall₂ (fun candidate trip =>
      chooseBestRoundTrip (branchesOf branches candidate) matrix candidate.chains = some trip)
      candidates trips)
    (hlength : fingerprints.length = candidates.length)
    (hvalid : ∀ fingerprint ∈ fingerprints, IdentifierSchema fingerprint)
    (hnodup : fingerprints.Nodup) :
    RoutesFor candidates (publicRoutes gateways input candidates trips fingerprints) := by
  have htripsLength := htrips.length_eq
  have hzip : (candidates.zip trips).length = fingerprints.length := by
    rw [List.length_zip]
    omega
  have hfirst : ((candidates.zip trips).zip fingerprints).map Prod.fst = candidates.zip trips :=
    List.map_fst_zip hzip.le
  have hsecond : ((candidates.zip trips).zip fingerprints).map Prod.snd = fingerprints :=
    List.map_snd_zip hzip.ge
  have hcandidates : (candidates.zip trips).map Prod.fst = candidates :=
    List.map_fst_zip htripsLength.le
  refine ⟨?_, fun route hroute => ?_, ?_⟩
  · have hids := congrArg (List.map fun entry : PlanResultV2 × BestRoundTrip => entry.1.id) hfirst
    have hids' := congrArg (List.map fun candidate : PlanResultV2 => candidate.id) hcandidates
    rw [List.map_map] at hids hids'
    rw [publicRoutes, List.map_map]
    exact hids.trans hids'
  · obtain ⟨⟨⟨candidate, trip⟩, fingerprint⟩, hmem, rfl⟩ := List.mem_map.mp hroute
    obtain ⟨hpair, hfingerprint⟩ := List.of_mem_zip hmem
    have htrip := (List.forall₂_iff_zip.mp htrips).2 hpair
    exact travelRouteEvidenceSchema_publicRoute (hschema candidate (List.of_mem_zip hpair).1) htime
      hprovider (hvalid fingerprint hfingerprint) htrip
  · rw [publicRoutes, List.map_map]
    exact hsecond.symm ▸ hnodup

/-- **When travel is calculated for all candidates of a request.** -/
theorem evaluatesEveryCandidate_iff {host : Host} {planning : ServerPlanningInputV2} {now : ℤ}
    (hcandidates :
      input.candidates = PlannerV2.enumerateCompletePlanCandidatesV2 host planning now)
    (h : GatewaysAnswer gateways input snapshot matrix) :
    EvaluatesEveryCandidate gateways input ↔
      (1 ≤ input.candidates.length ∧ input.candidates.length ≤ 7) ∧
      (requiredChains input.candidates).length ≤ 3 ∧
      (input.candidates.map (·.id)).Nodup ∧
      ∀ candidate ∈ input.candidates, HasRoundTrip gateways input snapshot matrix candidate := by
  have hschema : ∀ candidate ∈ input.candidates, PlanResultV2Schema candidate := by
    rw [hcandidates]
    exact fun candidate => PlannerV2.planResultV2Schema_of_mem_enumerate
  constructor
  · rintro ⟨result, hresult, -, -⟩
    obtain ⟨candidates, hparse, -, hcalculated, -⟩ := coordinateTravel_eq_ok_iff.mp hresult
    obtain ⟨hbounds, -, hids, rfl⟩ := parseCandidates_eq_some_iff.mp hparse
    obtain ⟨hchains, htrips⟩ := of_calculateTravel h (sortBy_perm _ _) hcalculated
    exact ⟨hbounds, hchains, hids, htrips⟩
  · rintro ⟨hbounds, hthree, hids, htrips⟩
    have hperm := sortBy_perm (on (·.id) compareText) input.candidates
    have hparse := parseCandidates_eq_some_iff.mpr ⟨hbounds, hschema, hids, rfl⟩
    generalize sortBy (on (·.id) compareText) input.candidates = candidates at hparse hperm
    have hsorted : ∀ candidate ∈ candidates, PlanResultV2Schema candidate := fun c hc =>
      hschema c (hperm.mem_iff.mp hc)
    have hne : candidates ≠ [] := by
      rintro rfl
      rw [← hperm.length_eq] at hbounds
      exact absurd hbounds.1 (by simp)
    have hchains := requiredChains_eq_of_perm hperm
    have hsub : ∀ candidate ∈ candidates, ∀ chain ∈ candidate.chains,
        chain ∈ requiredChains input.candidates := fun candidate hcandidate chain hchain =>
      mem_requiredChains.mpr ⟨candidate, hperm.mem_iff.mp hcandidate, hchain⟩
    have hsome : 1 ≤ (requiredChains input.candidates).length := by
      obtain ⟨candidate, hcandidate⟩ := List.exists_mem_of_ne_nil _ hne
      obtain ⟨chain, hchain⟩ :=
        List.exists_mem_of_length_pos (hsorted candidate hcandidate).length_chains.1
      exact List.length_pos_of_mem (hsub candidate hcandidate chain hchain)
    have hselected := h.selected
    have hmatrix := h.loadMatrix hsome hthree
    have hcomplete := (loadMatrix_eq_ok_iff.mp hmatrix).2.2
    rw [List.length_cons, List.length_map] at hcomplete
    obtain ⟨trips, hfound⟩ : ∃ trips, List.Forall₂ (fun candidate trip =>
        chooseBestRoundTrip (branchesOf (matrixBranches (selectedBranches gateways input.origin
          snapshot (requiredChains input.candidates))) candidate) matrix candidate.chains =
            some trip) candidates trips := by
      refine Choices.exists_forall₂ fun candidate hcandidate => ?_
      exact exists_chooseBestRoundTrip_iff.mpr
        ⟨roundTripInput h.wellFormed nodup_requiredChains hthree hselected hcomplete
          (hsorted candidate hcandidate) (hsub candidate hcandidate),
        htrips candidate (hperm.mem_iff.mp hcandidate)⟩
    obtain ⟨fingerprints, hcreated, hlength, hvalid, hdistinct⟩ := h.exists_createFingerprints
    rw [← hperm.length_eq] at hcreated hlength
    obtain ⟨result, hpublish, hevaluated, htravel, hcoherent⟩ := exists_publish hne hsorted
      ((hperm.map (·.id)).nodup_iff.mpr hids)
      (routesFor_publicRoutes hsorted h.evaluationTime
        h.provider hfound hlength hvalid hdistinct) hperm.symm
    refine ⟨result, coordinateTravel_eq_ok_iff.mpr ⟨candidates, hparse, h.market,
      calculateTravel_eq_ok_iff.mpr ⟨h.origin, h.provider, snapshot, ?_, _, ?_, matrix, ?_, trips,
        selectTrips_eq_ok_iff.mpr hfound, fingerprints, hcreated, hpublish⟩, hcoherent⟩,
      hevaluated, htravel⟩
    · rw [hchains]
      refine loadSnapshot_eq_ok_iff.mpr ⟨h.loaded, ⟨⟨?_, ?_⟩, h.wellFormed⟩, h.complete, h.eligible,
        h.sameMarket⟩
      · rw [h.eligible.1]
        exact hsome
      · rw [h.eligible.1]
        exact hthree
    · rw [hchains]
      exact selectBranches_eq_ok_iff.mpr ⟨hselected, rfl⟩
    · exact hmatrix

end Bounds

/-! ### One product at several chains -/

variable (chains : List Chain)

/-- One need, and one product with a price at each of the chains; at most one store is visited. -/
def cityPlanning : ServerPlanningInputV2 where
  needs := [⟨js "n", js "melk", ⟨1, .package⟩, js "r"⟩]
  matchingRules := [⟨js "r", .flexible (js "melk"), js "melk"⟩]
  products :=
    [⟨js "p", js "00000000", js "melk", none, ⟨1, .package⟩, some (js "melk")⟩]
  ordinaryPrices := chains.map fun chain => ⟨js "00000000", chain, 100, 1782907200000, js "s"⟩
  officialOffers := []
  offerEligibility :=
    { maxEvidenceAgeMs := 86400000
      location := ⟨js "NO", none, none, none⟩
      channel := .inStore
      enabledSourceIds := [js "s"]
      enabledMembershipProgramIds := []
      geographicDirectory := none }
  maxStores := 1

/-- The travel input of that request, at the origin of the coordinates. -/
def cityRequest : TravelServiceInput where
  origin := ⟨0, 0⟩
  mode := .car
  capturedEvaluationTime := 1782907260000
  candidates :=
    PlannerV2.enumerateCompletePlanCandidatesV2 Host.ascii (cityPlanning chains) 1782907260000
  marketContext := .national

theorem candidates_cityRequest : (cityRequest chains).candidates =
    PlannerV2.enumerateCompletePlanCandidatesV2 Host.ascii (cityPlanning chains) 1782907260000 :=
  rfl

/-- A branch of each chain at the origin. -/
def citySnapshot : BranchDirectorySnapshot where
  branches := chains.map fun chain => ⟨chain.text, chain, ⟨0, 0⟩, chain.text⟩
  complete := true
  eligibleChainIds := chains
  marketContext := .national
  regionEvidence := none

/-- A minute and a hundred metres between any two of `n` points. -/
def uniformMatrix (n : ℕ) : RouteMatrix :=
  ⟨List.replicate n (List.replicate n (some ⟨100, 60⟩))⟩

/-- Gateways that answer for any chains. -/
def cityGateways : Gateways where
  loadEligibleBranches chains _ _ := .ok (some (citySnapshot chains))
  providerSourceId := js "v"
  calculateMatrix _ points := .ok (some (uniformMatrix points.length))
  createRouteFingerprint call := some (js "r" ++ ofNat call)
  branchRadiusMeters := 50000
  distanceMeters _ _ := 0

/-- These gateways answer for chains that are all required. -/
theorem gatewaysAnswer_cityRequest (hcandidates : (cityRequest chains).candidates.length ≤ 8)
    (hchains : requiredChains (cityRequest chains).candidates = chains)
    (hsnapshot : SnapshotIsWellFormed (citySnapshot chains))
    (hselected : (selectedBranches cityGateways ⟨0, 0⟩ (citySnapshot chains) chains).length = chains.length)
    (hpositive : 1 ≤ chains.length) :
    GatewaysAnswer cityGateways (cityRequest chains) (citySnapshot chains)
      (uniformMatrix (chains.length + 1)) where
  origin := by
    change TravelCoordinateSchema ⟨0, 0⟩
    decide
  market := trivial
  evaluationTime := by
    change CanonicalTimestamp 1782907260000
    decide
  provider := by decide
  fingerprint call hcall := by
    have hvalid : ∀ call < 8, IdentifierSchema (js "r" ++ ofNat call) := by decide
    exact ⟨_, rfl, hvalid call (by omega)⟩
  fresh call hcall call' hcall' heq := by
    have hinjective : ∀ call < 8, ∀ call' < 8,
        js "r" ++ ofNat call = js "r" ++ ofNat call' → call = call' := by decide
    exact hinjective call (by omega) call' (by omega) (Option.some.inj heq)
  loaded := by rw [hchains]; rfl
  wellFormed := hsnapshot
  complete := rfl
  eligible := by
    rw [hchains]
    exact ⟨rfl, fun _ h => h⟩
  sameMarket := rfl
  branches chain hchain := by
    rw [hchains] at hchain
    exact ⟨_, List.mem_map_of_mem hchain, rfl, by simp [cityGateways]⟩
  matrix points hpoints hlength := by
    have hcount : points.length = chains.length + 1 := by
      rw [hpoints, hchains, List.length_cons, List.length_map]
      exact congrArg (· + 1) hselected
    have hcomplete : ∀ n ≤ 10, 2 ≤ n → CompleteMatrix (uniformMatrix n) n := by decide
    rw [hcount] at hlength ⊢
    refine ⟨?_, hcomplete _ hlength (by omega)⟩
    rw [← hcount]
    rfl

/-- Both candidates of a request with two chains are evaluated. -/
theorem evaluatesEveryCandidate_two_chains :
    EvaluatesEveryCandidate cityGateways (cityRequest [.extra, .meny]) := by
  have hanswer := gatewaysAnswer_cityRequest [.extra, .meny] (by decide +kernel)
    (by decide +kernel) (by decide) (by decide) (by decide)
  have htrips : ∀ candidate ∈ (cityRequest [.extra, .meny]).candidates,
      (chooseBestRoundTrip (branchesOf (matrixBranches (selectedBranches cityGateways ⟨0, 0⟩
        (citySnapshot [.extra, .meny]) [.extra, .meny])) candidate) (uniformMatrix 3)
          candidate.chains).isSome = true := by decide +kernel
  have hchains : requiredChains (cityRequest [.extra, .meny]).candidates = [.extra, .meny] := by
    decide +kernel
  refine (evaluatesEveryCandidate_iff (candidates_cityRequest _) hanswer).mpr
    ⟨by decide +kernel, by decide +kernel, by decide +kernel, fun candidate hcandidate => ?_⟩
  unfold HasRoundTrip
  rw [hchains]
  exact (exists_chooseBestRoundTrip_iff.mp
    (Option.isSome_iff_exists.mp (htrips candidate hcandidate))).2

/-- Eight chains. -/
def eightChains : List Chain :=
  [.bunnpris, .extra, .rema1000, .fudi, .holdbart, .meny, .havaristen, .joker]

/-- Eight chains give eight candidates, and no travel for any of them. -/
theorem eightCandidates_providerUnavailable :
    GatewaysAnswer cityGateways (cityRequest eightChains) (citySnapshot eightChains)
        (uniformMatrix 9) ∧
      coordinateTravel cityGateways (cityRequest eightChains) = .error .providerUnavailable ∧
      ¬ EvaluatesEveryCandidate cityGateways (cityRequest eightChains) := by
  have hlength : (cityRequest eightChains).candidates.length = 8 := by decide +kernel
  have hparse : parseCandidates (cityRequest eightChains).candidates = none := by
    unfold parseCandidates
    rw [if_pos (by omega)]
  have hanswer : coordinateTravel cityGateways (cityRequest eightChains) =
      .error .providerUnavailable := by
    unfold coordinateTravel calculate
    rw [hparse]
  have hchains : requiredChains (cityRequest eightChains).candidates = eightChains := by
    decide +kernel
  refine ⟨gatewaysAnswer_cityRequest eightChains (Nat.le_of_eq hlength) hchains
    (by decide +kernel) (by decide +kernel) (by decide), hanswer, ?_⟩
  rintro ⟨result, hresult, -⟩
  rw [hanswer] at hresult
  cases hresult

end Handleplan.TravelService
