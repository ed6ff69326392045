import Handleplan.Domain.PlannerV2Contracts
import Handleplan.Lib.Pareto

/-!
# The Pareto frontier of plans

Plan candidates are validated, brought into canonical form and reduced to those no other candidate
of their travel cohort dominates. The frontier begins with the most convenient plan and ends with
the cheapest one, unless one plan is both.

## Main definitions

* `FrontierV2.CandidateInput`, `canonicalCandidates` — raw candidates and the valid ones.
* `FrontierV2.dominates` — dominance within a cohort.
* `FrontierV2.orderCandidates` — the order of the published list.
* `FrontierV2.attachOptionalTravelEvidenceV2`, `paretoFrontierV2` — the entry points.

## Implementation notes

The comparators compare durations only when both plans have travel, which is not transitive on mixed
lists. They are therefore stated for a comparator of travel, and a cohort, where all plans or none
have travel, is ordered as by the number of seconds alone.
-/

namespace Handleplan

/-! ### Travel results -/

/-- The calculated travel of a plan. -/
structure CalculatedTravel where
  durationSeconds : ℕ
  distanceMeters : ℕ
  providerSourceId : JsString
  calculatedAt : ℤ
  routeFingerprint : JsString
  deriving DecidableEq

/-- `reason` of unavailable travel. -/
inductive TravelUnavailableReason where
  | providerUnavailable | noRoute | invalidLocation | timeout
  deriving DecidableEq

/-- `TravelResult`. -/
inductive TravelResult where
  | notRequested
  | unavailable (reason : TravelUnavailableReason)
  | calculated (travel : CalculatedTravel)
  deriving DecidableEq

/-- `travelCalculatedSchema`. -/
@[mk_iff] structure TravelCalculatedSchema (t : CalculatedTravel) : Prop where
  durationSeconds : NonNegativeSafeInteger t.durationSeconds
  distanceMeters : NonNegativeSafeInteger t.distanceMeters
  providerSourceId : IdentifierSchema t.providerSourceId
  calculatedAt : CanonicalTimestamp t.calculatedAt
  routeFingerprint : IdentifierSchema t.routeFingerprint

instance : DecidablePred TravelCalculatedSchema :=
  fun _ => decidable_of_iff' _ (travelCalculatedSchema_iff _)

/-- `PlanTravelEvidence`. -/
structure PlanTravelEvidence where
  planId : JsString
  travel : TravelResult

namespace FrontierV2

open JsString Sorting

/-! ### Candidates -/

/-- `FrontierPlanV2`. -/
structure FrontierPlanV2 where
  plan : PlanResultV2
  travel : Option CalculatedTravel
  deriving DecidableEq

/-- The identifier of a plan. -/
def FrontierPlanV2.id (c : FrontierPlanV2) : JsString := c.plan.id

/-- An unvalidated candidate: a plan record with its travel, or a value of another shape, of which
only the `id` is ever read, when that is a text. -/
inductive CandidateInput where
  | malformed (id : Option JsString)
  | record (plan : PlanResultV2) (travel : Option TravelResult)
  deriving DecidableEq

/-- The `id` of a candidate, when it is a text. -/
def CandidateInput.id : CandidateInput → Option JsString
  | .malformed id => id
  | .record plan _ => some plan.id

/-- A frontier plan handed in again as a candidate. -/
def FrontierPlanV2.toInput (c : FrontierPlanV2) : CandidateInput :=
  .record c.plan (c.travel.map .calculated)

/-- `compareAssignments`. -/
def compareAssignments : PlanAssignmentV2 → PlanAssignmentV2 → Ordering :=
  compareLex (on (·.needId) compareText) <|
    compareLex (on (·.canonicalProductId) compareText) <|
      compareLex (on (·.ean) compareText) <|
        compareLex (on (·.chain) compareChains) <|
          compareLex (compareOn (·.costOre)) <|
            compareLex (compareOn (·.fulfilment.requested.amount)) <|
              compareLex (on (·.fulfilment.requested.unit.text) compareText) <|
                compareLex (compareOn (·.fulfilment.packageCount)) <|
                  compareLex (on (·.checkout.appliedOfferId.getD []) compareText) <|
                    compareLex (compareOn (·.observedAt)) <|
                      on (·.source) compareText

/-- `canonicalPlan`, the plan record. -/
def canonicalPlan (plan : PlanResultV2) : PlanResultV2 where
  id := plan.id
  assignments := sortBy compareAssignments plan.assignments
  totalOre := plan.totalOre
  chains := sortBy compareChains plan.chains
  substitutions := sortBy compareText plan.substitutions
  freshness := ownKeys (sortBy compareText plan.freshness)

/-- `parseCandidate`. -/
def parseCandidate : CandidateInput → Option FrontierPlanV2
  | .malformed _ => none
  | .record plan travel =>
    if ¬ PlanResultV2Schema plan then none
    else
      match travel with
      | none => some ⟨canonicalPlan plan, none⟩
      | some (.calculated t) =>
        if TravelCalculatedSchema t then some ⟨canonicalPlan plan, some t⟩ else none
      | some _ => none

/-- The keys of `rawIdCounts`, with repetition: the exact identifiers among the raw `id`s. -/
def rawIds (candidates : List CandidateInput) : List JsString :=
  (candidates.filterMap CandidateInput.id).filter fun id => IdentifierSchema id

/-- `canonicalCandidates`: the valid candidates whose identifier no other raw candidate has. -/
def canonicalCandidates (candidates : List CandidateInput) : List FrontierPlanV2 :=
  (candidates.filterMap parseCandidate).filter fun c => (rawIds candidates).count c.id = 1

/-! ### Dominance and order -/

/-- `hasTravel`. -/
def hasTravel (c : FrontierPlanV2) : Bool := c.travel.isSome

/-- The travel time of a plan, zero without travel. -/
def durationSeconds (c : FrontierPlanV2) : ℕ := (c.travel.map (·.durationSeconds)).getD 0

/-- `dominates`. -/
def dominates (left right : FrontierPlanV2) : Bool :=
  if hasTravel left ≠ hasTravel right then false
  else
    let bothHaveTravel := hasTravel left && hasTravel right
    let noWorse :=
      decide (left.plan.totalOre ≤ right.plan.totalOre) &&
        decide (left.plan.chains.length ≤ right.plan.chains.length) &&
        decide (left.plan.substitutions.length ≤ right.plan.substitutions.length) &&
        (!bothHaveTravel || decide (durationSeconds left ≤ durationSeconds right))
    let strictlyBetter :=
      decide (left.plan.totalOre < right.plan.totalOre) ||
        decide (left.plan.chains.length < right.plan.chains.length) ||
        decide (left.plan.substitutions.length < right.plan.substitutions.length) ||
        (bothHaveTravel && decide (durationSeconds left < durationSeconds right))
    noWorse && strictlyBetter

/-- The comparison of durations, when both plans have travel. -/
def compareTravel (left right : FrontierPlanV2) : Ordering :=
  if hasTravel left && hasTravel right then compare (durationSeconds left) (durationSeconds right)
  else .eq

section Order

variable (travel : FrontierPlanV2 → FrontierPlanV2 → Ordering)

/-- `compareConvenience`, for a comparator of travel. -/
def compareConvenience : FrontierPlanV2 → FrontierPlanV2 → Ordering :=
  compareLex (compareOn (·.plan.chains.length)) <|
    compareLex travel <|
      compareLex (compareOn (·.plan.totalOre)) <|
        compareLex (compareOn (·.plan.substitutions.length)) <|
          on (·.id) compareText

/-- `compareSavings`, for a comparator of travel. -/
def compareSavings : FrontierPlanV2 → FrontierPlanV2 → Ordering :=
  compareLex (compareOn (·.plan.totalOre)) <|
    compareLex travel <|
      compareLex (compareOn (·.plan.substitutions.length)) <|
        compareLex (compareOn (·.plan.chains.length)) <|
          on (·.id) compareText

/-- `compareMiddle`, for a comparator of travel. -/
def compareMiddle : FrontierPlanV2 → FrontierPlanV2 → Ordering :=
  compareLex (compareOn (·.plan.chains.length)) <|
    compareLex travel <|
      compareLex (descending (compareOn (·.plan.totalOre))) <|
        compareLex (compareOn (·.plan.substitutions.length)) <|
          on (·.id) compareText

/-- `orderCohort`, for a comparator of travel. -/
def orderCohortBy (candidates : List FrontierPlanV2) : List FrontierPlanV2 :=
  if candidates.length < 2 then candidates
  else
    match least (compareConvenience travel) candidates,
      least (compareSavings travel) candidates with
    | some convenience, some savings =>
      if convenience.id = savings.id then
        convenience ::
          sortBy (compareMiddle travel) (candidates.filter fun c => c.id ≠ convenience.id)
      else
        convenience ::
          (sortBy (compareMiddle travel)
            (candidates.filter fun c => c.id ≠ convenience.id ∧ c.id ≠ savings.id) ++ [savings])
    | _, _ => candidates

end Order

/-- `orderCohort`. -/
def orderCohort (candidates : List FrontierPlanV2) : List FrontierPlanV2 :=
  orderCohortBy compareTravel candidates

/-- `orderCandidates`. -/
def orderCandidates (candidates : List FrontierPlanV2) : List FrontierPlanV2 :=
  orderCohort (candidates.filter fun c => !hasTravel c) ++ orderCohort (candidates.filter hasTravel)

/-! ### Entry points -/

/-- The calculated travel of an entry that passes its checks. -/
def acceptedTravel (entry : PlanTravelEvidence) : Option CalculatedTravel :=
  match entry.travel with
  | .calculated t => if TravelCalculatedSchema t then some t else none
  | _ => none

theorem acceptedTravel_calculated {planId : JsString} {t : CalculatedTravel}
    (h : TravelCalculatedSchema t) : acceptedTravel ⟨planId, .calculated t⟩ = some t := if_pos h

/-- The travel evidence is complete: one accepted entry for each plan. -/
def CompleteTravelEvidence (planIds : List JsString) (evidence : List PlanTravelEvidence) : Prop :=
  evidence.length = planIds.length ∧
    (∀ entry ∈ evidence, IdentifierSchema entry.planId ∧ entry.planId ∈ planIds ∧
      (acceptedTravel entry).isSome = true) ∧
    (evidence.map (·.planId)).Nodup

instance (planIds : List JsString) : DecidablePred (CompleteTravelEvidence planIds) :=
  fun _ => inferInstanceAs (Decidable (_ ∧ _ ∧ _))

/-- `travelByPlanId.get`. -/
def travelByPlanId (evidence : List PlanTravelEvidence) (planId : JsString) :
    Option CalculatedTravel :=
  (evidence.find? fun entry => entry.planId = planId).bind acceptedTravel

/-- `attachOptionalTravelEvidenceV2`: travel for all plans, or for none. -/
def attachOptionalTravelEvidenceV2 (plans : List CandidateInput)
    (travelEvidence : Option (List PlanTravelEvidence)) : List FrontierPlanV2 :=
  let validPlans := (canonicalCandidates plans).map fun c =>
    FrontierPlanV2.mk (canonicalPlan c.plan) none
  match travelEvidence with
  | none => orderCandidates validPlans
  | some evidence =>
    if CompleteTravelEvidence (validPlans.map (·.id)) evidence then
      orderCandidates (validPlans.map fun c =>
        ⟨canonicalPlan c.plan, travelByPlanId evidence c.id⟩)
    else orderCandidates validPlans

/-- `paretoFrontierV2`. -/
def paretoFrontierV2 (candidates : List CandidateInput) : List FrontierPlanV2 :=
  orderCandidates (Pareto.frontier (fun other c => other.id ≠ c.id && dominates other c)
    (canonicalCandidates candidates))

end FrontierV2

end Handleplan
