import Mathlib.Algebra.Order.Ring.Rat
import Handleplan.Domain.FrontierV2Canonical
import Handleplan.Domain.RouteOrder

/-!
# The travel service

The travel service takes all plan candidates of a request, finds the branches of their chains near
the origin, asks for one matrix of travel times between them and chooses a round trip for each
candidate. Only then is the frontier reduced to the published plans. The coordinator turns every
failure into a reason why travel is unavailable, and checks the result it is handed.

## Main definitions

* `TravelService.Gateways` — the branch directory, the route matrix and the fingerprints.
* `TravelService.calculate` — the service.
* `TravelService.coordinateTravel` — the travel part of the coordinator.

## Implementation notes

A gateway answers with what the schema of its answer would make of it, when it is a value of that
shape at all. The great-circle distance is a function of the runtime: nothing here depends on its
value. Cancellation is left out.
-/

namespace Handleplan.TravelService

open JsString Sorting FrontierV2

/-! ### Gateways -/

/-- `regionEvidence` of a snapshot; its country is always `NO`. -/
structure RegionEvidence where
  directoryEvidenceReference : JsString
  directoryVersionId : JsString
  regionEvidenceReference : JsString
  regionId : JsString
  reviewedAt : ℤ

/-- The schema of `regionEvidence`. -/
@[mk_iff] structure RegionEvidenceSchema (e : RegionEvidence) : Prop where
  directoryEvidenceReference : NonEmptyStringSchema e.directoryEvidenceReference
  directoryVersionId : NonEmptyStringSchema e.directoryVersionId
  regionEvidenceReference : NonEmptyStringSchema e.regionEvidenceReference
  regionId : NonEmptyStringSchema e.regionId
  reviewedAt : CanonicalTimestamp e.reviewedAt

instance : DecidablePred RegionEvidenceSchema :=
  fun _ => decidable_of_iff' _ (regionEvidenceSchema_iff _)

/-- `BranchDirectorySnapshot`. -/
structure BranchDirectorySnapshot where
  branches : List InternalTravelBranch
  complete : Bool
  eligibleChainIds : List Chain
  marketContext : MarketContextV1
  regionEvidence : Option RegionEvidence

/-- `MAX_BRANCH_DIRECTORY_BRANCHES`. -/
def maxBranchDirectoryBranches : ℕ := 5000

/-- `MAX_ROUTE_MATRIX_POINTS`. -/
def maxRouteMatrixPoints : ℕ := 10

/-- The region evidence a market needs: none for the national market, that of its region else. -/
def RegionMatches : MarketContextV1 → Option RegionEvidence → Prop
  | .national, evidence => evidence = none
  | .launchRegion regionId, evidence => evidence.map (·.regionId) = some regionId

instance (market : MarketContextV1) (evidence : Option RegionEvidence) :
    Decidable (RegionMatches market evidence) :=
  match market with
  | .national => inferInstanceAs (Decidable (_ = _))
  | .launchRegion _ => inferInstanceAs (Decidable (_ = _))

/-- `branchDirectorySnapshotSchema`, but for the bound on its chains. -/
@[mk_iff] structure SnapshotIsWellFormed (snapshot : BranchDirectorySnapshot) : Prop where
  length_branches : snapshot.branches.length ≤ maxBranchDirectoryBranches
  branches : ∀ branch ∈ snapshot.branches, InternalTravelBranchSchema branch
  marketContext : MarketContextV1Schema snapshot.marketContext
  regionEvidence : ∀ e ∈ snapshot.regionEvidence, RegionEvidenceSchema e
  uniqueChains : snapshot.eligibleChainIds.Nodup
  uniqueBranches : (snapshot.branches.map (·.branchId)).Nodup
  eligible : ∀ branch ∈ snapshot.branches, branch.chainId ∈ snapshot.eligibleChainIds
  region : RegionMatches snapshot.marketContext snapshot.regionEvidence

instance : DecidablePred SnapshotIsWellFormed :=
  fun _ => decidable_of_iff' _ (snapshotIsWellFormed_iff _)

/-- `branchDirectorySnapshotSchema`. -/
def BranchDirectorySnapshotSchema (snapshot : BranchDirectorySnapshot) : Prop :=
  (1 ≤ snapshot.eligibleChainIds.length ∧ snapshot.eligibleChainIds.length ≤ 3) ∧
    SnapshotIsWellFormed snapshot

instance : DecidablePred BranchDirectorySnapshotSchema :=
  fun _ => inferInstanceAs (Decidable (_ ∧ _))

/-- What a gateway fails with. -/
inductive GatewayError where
  | timeout | other

/-- `TravelServiceDependencies`, with the great-circle distance. -/
structure Gateways where
  loadEligibleBranches : List Chain → ℤ → MarketContextV1 →
    Except GatewayError (Option BranchDirectorySnapshot)
  providerSourceId : JsString
  calculateMatrix : TravelMode → List TravelCoordinate → Except GatewayError (Option RouteMatrix)
  /-- The fingerprint of each call, unless it throws. -/
  createRouteFingerprint : ℕ → Option JsString
  branchRadiusMeters : ℕ
  /-- `distanceMeters`. -/
  distanceMeters : TravelCoordinate → TravelCoordinate → ℚ

/-- `TravelServiceInput`. -/
structure TravelServiceInput where
  origin : TravelCoordinate
  mode : TravelMode
  capturedEvaluationTime : ℤ
  candidates : List PlanResultV2
  marketContext : MarketContextV1

/-- `reason` of an unavailable travel calculation. -/
inductive TravelCalculationUnavailableReason where
  | branchDataUnavailable | invalidLocation | noRoute | providerUnavailable | timeout

/-- A calculated result. -/
structure CalculatedResult where
  evaluatedCandidates : List FrontierPlanV2
  plans : List FrontierPlanV2
  routes : List TravelRouteEvidence

/-- `TravelServiceResult`. -/
inductive TravelServiceResult where
  | unavailable (plans : List FrontierPlanV2) (reason : TravelCalculationUnavailableReason)
  | calculated (result : CalculatedResult)

/-- `TravelServiceInputError`. -/
inductive TravelServiceInputError where
  | invalid

/-! ### The steps of the calculation -/

/-- `parseCandidates`. -/
def parseCandidates (candidates : List PlanResultV2) : Option (List PlanResultV2) :=
  if candidates.length < 1 ∨ 7 < candidates.length then none
  else if ¬ ∀ candidate ∈ candidates, PlanResultV2Schema candidate then none
  else if ¬ (candidates.map (·.id)).Nodup then none
  else some (sortBy (on (·.id) compareText) candidates)

/-- `requiredChains`. -/
def requiredChains (candidates : List PlanResultV2) : List Chain :=
  sortBy compareChains (candidates.flatMap (·.chains)).dedup

/-- `sameStringSet`. -/
def SameStringSet (left right : List Chain) : Prop :=
  left.length = right.length ∧ ∀ value ∈ left, value ∈ right

instance (left right : List Chain) : Decidable (SameStringSet left right) :=
  inferInstanceAs (Decidable (_ ∧ _))

/-- The reason for a gateway that fails. -/
def reasonOf (otherwise : TravelCalculationUnavailableReason) :
    GatewayError → TravelCalculationUnavailableReason
  | .timeout => .timeout
  | .other => otherwise

section Steps

variable (gateways : Gateways)

/-- The snapshot of the branch directory. -/
def loadSnapshot (input : TravelServiceInput) (chains : List Chain) :
    Except TravelCalculationUnavailableReason BranchDirectorySnapshot :=
  match gateways.loadEligibleBranches chains input.capturedEvaluationTime input.marketContext with
  | .error e => .error (reasonOf .branchDataUnavailable e)
  | .ok none => .error .branchDataUnavailable
  | .ok (some snapshot) =>
    if BranchDirectorySnapshotSchema snapshot ∧ snapshot.complete = true ∧
        SameStringSet snapshot.eligibleChainIds chains ∧
        snapshot.marketContext = input.marketContext then
      .ok snapshot
    else .error .branchDataUnavailable

variable (origin : TravelCoordinate)

variable (snapshot : BranchDirectorySnapshot)

/-- The at most three nearest branches of a chain within the radius. -/
def nearestBranches (chain : Chain) :
    List InternalTravelBranch :=
  let distance (branch : InternalTravelBranch) : ℚ :=
    gateways.distanceMeters origin branch.coordinate
  let near := (snapshot.branches.filter (·.chainId = chain)).filter fun branch =>
    distance branch ≤ gateways.branchRadiusMeters
  (sortBy (compareLex (compareOn distance) (on (·.branchId) compareText)) near).take 3

/-- `selectedBranches`. -/
def selectedBranches (chains : List Chain) :
    List InternalTravelBranch :=
  chains.flatMap (nearestBranches gateways origin snapshot)

/-- The selected branches, if there are some for each chain. -/
def selectBranches (chains : List Chain) :
    Except TravelCalculationUnavailableReason (List InternalTravelBranch) :=
  let selected := selectedBranches gateways origin snapshot chains
  if ∃ chain ∈ chains, ∀ branch ∈ selected, branch.chainId ≠ chain then
    .error .branchDataUnavailable
  else .ok selected

/-- `routeMatrixGatewayRequestSchema`, the points. -/
def MatrixPointsSchema (points : List TravelCoordinate) : Prop :=
  (2 ≤ points.length ∧ points.length ≤ maxRouteMatrixPoints) ∧
    ∀ point ∈ points, TravelCoordinateSchema point

instance : DecidablePred MatrixPointsSchema := fun _ => inferInstanceAs (Decidable (_ ∧ _))

/-- The matrix has a cell for each pair of so many points. -/
def CompleteMatrix (matrix : RouteMatrix) (points : ℕ) : Prop :=
  RouteMatrixSchema matrix ∧ matrix.cells.length = points ∧
    ∀ row ∈ matrix.cells, row.length = points ∧ none ∉ row

instance (matrix : RouteMatrix) (points : ℕ) : Decidable (CompleteMatrix matrix points) :=
  inferInstanceAs (Decidable (_ ∧ _ ∧ _))

/-- The route matrix of the points. -/
def loadMatrix (mode : TravelMode) (points : List TravelCoordinate) :
    Except TravelCalculationUnavailableReason RouteMatrix :=
  if ¬ MatrixPointsSchema points then .error .noRoute
  else
    match gateways.calculateMatrix mode points with
    | .error e => .error (reasonOf .providerUnavailable e)
    | .ok none => .error .noRoute
    | .ok (some matrix) =>
      if CompleteMatrix matrix points.length then .ok matrix else .error .noRoute

/-- `matrixBranches`. -/
def matrixBranches (selected : List InternalTravelBranch) : List MatrixBranchCandidate :=
  selected.mapIdx fun index branch => ⟨branch, index + 1⟩

/-- The branches of the chains of a candidate. -/
def branchesOf (branches : List MatrixBranchCandidate) (candidate : PlanResultV2) :
    List MatrixBranchCandidate :=
  branches.filter (·.chainId ∈ candidate.chains)

/-- The round trip of each candidate. -/
def selectTrips (branches : List MatrixBranchCandidate) (matrix : RouteMatrix)
    (candidates : List PlanResultV2) :
    Except TravelCalculationUnavailableReason (List BestRoundTrip) :=
  match candidates.mapM fun candidate =>
      chooseBestRoundTrip (branchesOf branches candidate) matrix candidate.chains with
  | none => .error .noRoute
  | some trips => .ok trips

/-- One new identifier for each candidate. -/
def createFingerprints (count : ℕ) :
    Except TravelCalculationUnavailableReason (List JsString) :=
  match (List.range count).mapM gateways.createRouteFingerprint with
  | none => .error .providerUnavailable
  | some fingerprints =>
    if (∀ fingerprint ∈ fingerprints, IdentifierSchema fingerprint) ∧ fingerprints.Nodup then
      .ok fingerprints
    else .error .providerUnavailable

/-- The public route of a candidate. -/
def publicRoute (input : TravelServiceInput) (candidate : PlanResultV2) (trip : BestRoundTrip)
    (routeFingerprint : JsString) : TravelRouteEvidence where
  aggregate :=
    { calculatedAt := input.capturedEvaluationTime
      distanceMeters := trip.distanceMeters
      durationSeconds := trip.durationSeconds
      mode := input.mode
      providerSourceId := gateways.providerSourceId
      routeFingerprint := routeFingerprint }
  planId := candidate.id
  stops := trip.stops

/-- `publicRoutes`. -/
def publicRoutes (input : TravelServiceInput) (candidates : List PlanResultV2)
    (trips : List BestRoundTrip) (fingerprints : List JsString) : List TravelRouteEvidence :=
  ((candidates.zip trips).zip fingerprints).map fun ((candidate, trip), fingerprint) =>
    publicRoute gateways input candidate trip fingerprint

end Steps

/-- The frontier of all candidates with their travel, and the routes of its representatives. -/
def publish (candidates : List PlanResultV2) (publicRoutes : List TravelRouteEvidence) :
    Except TravelCalculationUnavailableReason CalculatedResult :=
  let attached :=
    attachOptionalTravelEvidenceV2 (candidates.map planInput) (some (routeEvidence publicRoutes))
  if attached.length ≠ candidates.length ∨ ∃ candidate ∈ attached, hasTravel candidate = false then
    .error .providerUnavailable
  else
    let plans :=
      projectRepresentativesV2 ((paretoFrontierV2 (attached.map (·.toInput))).map (·.toInput)) 7
    if plans.length < 1 ∨ ∃ plan ∈ plans, hasTravel plan = false then .error .providerUnavailable
    else
      match plans.mapM fun plan =>
          (JsMap.ofEntries (publicRoutes.map fun route => (route.planId, route))).get? plan.id with
      | none => .error .providerUnavailable
      | some routes =>
        if CalculatedRoutesSchema routes then .ok ⟨attached, plans, routes⟩
        else .error .providerUnavailable

/-! ### The service and its coordinator -/

/-- `TravelService.calculate`, once the input is valid. -/
def calculateTravel (gateways : Gateways) (input : TravelServiceInput)
    (candidates : List PlanResultV2) :
    Except TravelCalculationUnavailableReason CalculatedResult := do
  if ¬ TravelCoordinateSchema input.origin then .error .invalidLocation
  else if ¬ IdentifierSchema gateways.providerSourceId then .error .providerUnavailable
  else
    let chains := requiredChains candidates
    let snapshot ← loadSnapshot gateways input chains
    let selected ← selectBranches gateways input.origin snapshot chains
    let matrix ← loadMatrix gateways input.mode (input.origin :: selected.map (·.coordinate))
    let trips ← selectTrips (matrixBranches selected) matrix candidates
    let fingerprints ← createFingerprints gateways candidates.length
    publish candidates (publicRoutes gateways input candidates trips fingerprints)

/-- `TravelService.calculate`. -/
def calculate (gateways : Gateways) (input : TravelServiceInput) :
    Except TravelServiceInputError TravelServiceResult :=
  match parseCandidates input.candidates with
  | none => .error .invalid
  | some candidates =>
    if ¬ MarketContextV1Schema input.marketContext then .error .invalid
    else
      match calculateTravel gateways input candidates with
      | .error reason =>
        .ok (.unavailable (projectRepresentativesV2 (candidates.map planInput) 7) reason)
      | .ok result => .ok (.calculated result)

/-- The first representative of a plan on its own. -/
def canonicalRepresentative (plan : PlanResultV2) : Option FrontierPlanV2 :=
  (projectRepresentativesV2 [planInput plan] 1).head?

/-- `calculatedTravelOutputIsCoherent`. -/
@[mk_iff] structure CalculatedTravelOutputIsCoherent (calculated : CalculatedResult)
    (planningPlans : List PlanResultV2) : Prop where
  length_evaluated : calculated.evaluatedCandidates.length = planningPlans.length
  length_routes : calculated.plans.length = calculated.routes.length
  uniquePlans : (planningPlans.map (·.id)).Nodup
  evaluated : ∀ evaluated ∈ calculated.evaluatedCandidates,
    hasTravel evaluated = true ∧ ∃ original ∈ planningPlans, original.id = evaluated.id ∧
      PlanResultV2Schema evaluated.plan ∧ (canonicalRepresentative original).isSome = true ∧
      canonicalRepresentative evaluated.plan = canonicalRepresentative original
  frontier : projectRepresentativesV2
    ((paretoFrontierV2 (calculated.evaluatedCandidates.map (·.toInput))).map (·.toInput)) 7 =
      calculated.plans
  routes : List.Forall₂
    (fun plan route => route.planId = plan.id ∧ some route.aggregate.travel = plan.travel)
    calculated.plans calculated.routes

instance (calculated : CalculatedResult) (planningPlans : List PlanResultV2) :
    Decidable (CalculatedTravelOutputIsCoherent calculated planningPlans) :=
  decidable_of_iff' _ (calculatedTravelOutputIsCoherent_iff _ _)

/-- `TravelPlanCoordinator.calculate`, from the call of the travel service to the check of its
result. -/
def coordinateTravel (gateways : Gateways) (input : TravelServiceInput) :
    Except TravelCalculationUnavailableReason CalculatedResult :=
  match calculate gateways input with
  | .error _ => .error .providerUnavailable
  | .ok (.unavailable _ reason) => .error reason
  | .ok (.calculated result) =>
    if CalculatedTravelOutputIsCoherent result input.candidates then .ok result
    else .error .providerUnavailable

end Handleplan.TravelService
