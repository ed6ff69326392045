import Handleplan.Domain.FrontierV2

/-!
# Travel contracts

The public route of a plan and the state of a travel calculation.

## Main definitions

* `TravelRouteEvidence`, `TravelRouteEvidenceSchema` — the route of a plan.
* `CalculatedRoutesSchema` — the routes of a calculated travel state.
* `InternalTravelBranch`, `RouteMatrix` and their schemas — what the gateways return.
-/

namespace Handleplan

/-- `travelModeSchema`. -/
inductive TravelMode where
  | car | bike

/-- `TravelPublicBranchStop`. -/
structure TravelPublicBranchStop where
  branchId : JsString
  chainId : Chain
  name : JsString
  sequence : ℕ
  deriving DecidableEq

/-- `travelPublicBranchStopSchema`. -/
@[mk_iff] structure TravelPublicBranchStopSchema (stop : TravelPublicBranchStop) : Prop where
  branchId : IdentifierSchema stop.branchId
  name : NonEmptyStringSchema stop.name
  sequence : 1 ≤ stop.sequence ∧ stop.sequence ≤ 3

instance : DecidablePred TravelPublicBranchStopSchema :=
  fun _ => decidable_of_iff' _ (travelPublicBranchStopSchema_iff _)

/-- `TravelRouteAggregate`. -/
structure TravelRouteAggregate where
  calculatedAt : ℤ
  distanceMeters : ℕ
  durationSeconds : ℕ
  mode : TravelMode
  providerSourceId : JsString
  routeFingerprint : JsString

/-- `travelRouteAggregateSchema`. -/
@[mk_iff] structure TravelRouteAggregateSchema (aggregate : TravelRouteAggregate) : Prop where
  calculatedAt : CanonicalTimestamp aggregate.calculatedAt
  distanceMeters : NonNegativeSafeInteger aggregate.distanceMeters
  durationSeconds : NonNegativeSafeInteger aggregate.durationSeconds
  providerSourceId : IdentifierSchema aggregate.providerSourceId
  routeFingerprint : IdentifierSchema aggregate.routeFingerprint

instance : DecidablePred TravelRouteAggregateSchema :=
  fun _ => decidable_of_iff' _ (travelRouteAggregateSchema_iff _)

/-- `TravelRouteEvidence`. -/
structure TravelRouteEvidence where
  aggregate : TravelRouteAggregate
  planId : JsString
  stops : List TravelPublicBranchStop

/-- `travelRouteEvidenceSchema`. -/
@[mk_iff] structure TravelRouteEvidenceSchema (route : TravelRouteEvidence) : Prop where
  aggregate : TravelRouteAggregateSchema route.aggregate
  planId : IdentifierSchema route.planId
  length_stops : 1 ≤ route.stops.length ∧ route.stops.length ≤ 3
  stops : ∀ stop ∈ route.stops, TravelPublicBranchStopSchema stop
  uniqueBranches : (route.stops.map (·.branchId)).Nodup
  uniqueChains : (route.stops.map (·.chainId)).Nodup
  contiguous : route.stops.map (·.sequence) = List.range' 1 route.stops.length

instance : DecidablePred TravelRouteEvidenceSchema :=
  fun _ => decidable_of_iff' _ (travelRouteEvidenceSchema_iff _)

/-- `travelCalculationStateSchema`, the routes of a calculated state. -/
@[mk_iff] structure CalculatedRoutesSchema (routes : List TravelRouteEvidence) : Prop where
  length_routes : 1 ≤ routes.length ∧ routes.length ≤ 7
  valid : ∀ route ∈ routes, TravelRouteEvidenceSchema route
  uniquePlans : (routes.map (·.planId)).Nodup
  uniqueFingerprints : (routes.map (·.aggregate.routeFingerprint)).Nodup

instance : DecidablePred CalculatedRoutesSchema :=
  fun _ => decidable_of_iff' _ (calculatedRoutesSchema_iff _)

/-- The travel of a route, as the verifiers read it from the aggregate. -/
def TravelRouteAggregate.travel (aggregate : TravelRouteAggregate) : CalculatedTravel where
  durationSeconds := aggregate.durationSeconds
  distanceMeters := aggregate.distanceMeters
  providerSourceId := aggregate.providerSourceId
  calculatedAt := aggregate.calculatedAt
  routeFingerprint := aggregate.routeFingerprint

theorem TravelRouteAggregateSchema.travel {aggregate : TravelRouteAggregate}
    (h : TravelRouteAggregateSchema aggregate) : TravelCalculatedSchema aggregate.travel where
  durationSeconds := h.durationSeconds
  distanceMeters := h.distanceMeters
  providerSourceId := h.providerSourceId
  calculatedAt := h.calculatedAt
  routeFingerprint := h.routeFingerprint

/-! ### Gateway values -/

/-- `TravelCoordinate`. -/
structure TravelCoordinate where
  latitudeE6 : ℤ
  longitudeE6 : ℤ
  deriving DecidableEq

/-- `travelCoordinateSchema`. -/
@[mk_iff] structure TravelCoordinateSchema (c : TravelCoordinate) : Prop where
  latitudeE6 : -90000000 ≤ c.latitudeE6 ∧ c.latitudeE6 ≤ 90000000
  longitudeE6 : -180000000 ≤ c.longitudeE6 ∧ c.longitudeE6 ≤ 180000000

instance : DecidablePred TravelCoordinateSchema :=
  fun _ => decidable_of_iff' _ (travelCoordinateSchema_iff _)

/-- `InternalTravelBranch`. -/
structure InternalTravelBranch where
  branchId : JsString
  chainId : Chain
  coordinate : TravelCoordinate
  name : JsString
  deriving DecidableEq

/-- `internalTravelBranchSchema`. -/
@[mk_iff] structure InternalTravelBranchSchema (branch : InternalTravelBranch) : Prop where
  branchId : IdentifierSchema branch.branchId
  coordinate : TravelCoordinateSchema branch.coordinate
  name : NonEmptyStringSchema branch.name

instance : DecidablePred InternalTravelBranchSchema :=
  fun _ => decidable_of_iff' _ (internalTravelBranchSchema_iff _)

/-- `routeMatrixCellSchema`, the record. -/
structure RouteMatrixCell where
  distanceMeters : ℕ
  durationSeconds : ℕ
  deriving DecidableEq

/-- `RouteMatrix`; a missing cell is `null`. -/
structure RouteMatrix where
  cells : List (List (Option RouteMatrixCell))

/-- `routeMatrixSchema`. -/
@[mk_iff] structure RouteMatrixSchema (matrix : RouteMatrix) : Prop where
  length_cells : 2 ≤ matrix.cells.length ∧ matrix.cells.length ≤ 10
  length_row : ∀ row ∈ matrix.cells, 2 ≤ row.length ∧ row.length ≤ 10
  cells : ∀ row ∈ matrix.cells, ∀ entry ∈ row, ∀ cell ∈ entry,
    NonNegativeSafeInteger cell.distanceMeters ∧ NonNegativeSafeInteger cell.durationSeconds
  square : ∀ row ∈ matrix.cells, row.length = matrix.cells.length

instance : DecidablePred RouteMatrixSchema :=
  fun _ => decidable_of_iff' _ (routeMatrixSchema_iff _)

end Handleplan
