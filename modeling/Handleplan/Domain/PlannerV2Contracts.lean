import Handleplan.Domain.Fulfilment
import Handleplan.Domain.Matching

/-!
# Contracts of the second planner

The input of the planner and the plans it returns, each with its schema.

## Main definitions

* `ServerPlanningInputV2`, `ServerPlanningInputV2Schema` — the admitted input.
* `PlanAssignmentV2`, `PlanResultV2` and their schemas — a plan.

## Design

The own keys of an object (`freshness`) are the list of its keys in property order: array indices
ascending, then the other keys in the order of their insertion. The key `__proto__` never becomes
an own key by assignment.
-/

namespace Handleplan

open JsString Sorting

/-! ### Objects with text keys -/

/-- The text `__proto__`. -/
def protoKey : JsString := js "__proto__"

/-- The number a key stands for when it is an array index. -/
def arrayIndex? (key : JsString) : Option ℕ :=
  let value := key.foldl (fun n u => 10 * n + (u.toNat - 48)) 0
  if key.all isDigit ∧ ofNat value = key ∧ value < 4294967295 then some value else none

/-- The own keys of an object whose properties are assigned in turn. -/
def ownKeys (keys : List JsString) : List JsString :=
  let inserted := (JsMap.ofEntries ((keys.filter (· ≠ protoKey)).map (·, ()))).keys
  sortBy (compareOn arrayIndex?) (inserted.filter fun key => (arrayIndex? key).isSome) ++
    inserted.filter fun key => !(arrayIndex? key).isSome

/-- Distinct keys become own keys, but for `__proto__`. -/
theorem ownKeys_perm {keys : List JsString} (h : keys.Nodup) :
    (ownKeys keys).Perm (keys.filter (· ≠ protoKey)) := by
  have hinserted : (JsMap.ofEntries ((keys.filter (· ≠ protoKey)).map (·, ()))).keys =
      keys.filter (· ≠ protoKey) := by
    have hmap : ((keys.filter (· ≠ protoKey)).map (·, ())).map Prod.fst =
        keys.filter (· ≠ protoKey) := by
      rw [List.map_map]
      exact List.map_id _
    rw [JsMap.ofEntries_of_nodup (by rw [hmap]; exact h.filter _)]
    exact hmap
  rw [ownKeys, hinserted]
  exact ((sortBy_perm _ _).append_right _).trans (List.filter_append_perm _ _)

/-! ### Input -/

/-- `PlanningNeedV2`. -/
structure PlanningNeedV2 where
  id : JsString
  query : JsString
  requested : PackageMeasure
  matchRuleId : JsString

/-- `planningNeedV2Schema`. -/
@[mk_iff] structure PlanningNeedV2Schema (need : PlanningNeedV2) : Prop where
  id : IdentifierSchema need.id
  query : NonEmptyStringSchema need.query
  requested : PackageMeasureSchema need.requested
  matchRuleId : IdentifierSchema need.matchRuleId

instance : DecidablePred PlanningNeedV2Schema :=
  fun _ => decidable_of_iff' _ (planningNeedV2Schema_iff _)

/-- `PlanningProductV2`. -/
structure PlanningProductV2 where
  canonicalProductId : JsString
  ean : JsString
  name : JsString
  brand : Option JsString
  packageMeasure : PackageMeasure
  productFamily : Option JsString
  deriving DecidableEq

/-- `planningProductV2Schema`. -/
@[mk_iff] structure PlanningProductV2Schema (product : PlanningProductV2) : Prop where
  canonicalProductId : IdentifierSchema product.canonicalProductId
  ean : isValidGtin product.ean = true
  name : NonEmptyStringSchema product.name
  brand : ∀ brand ∈ product.brand, NonEmptyStringSchema brand
  packageMeasure : PackageMeasureSchema product.packageMeasure
  productFamily : ∀ family ∈ product.productFamily, IdentifierSchema family

instance : DecidablePred PlanningProductV2Schema :=
  fun _ => decidable_of_iff' _ (planningProductV2Schema_iff _)

/-- `offerEligibility` of the input. -/
structure OfferEligibilityV2 where
  maxEvidenceAgeMs : ℕ
  location : GeographicContext
  channel : Channel
  enabledSourceIds : List JsString
  enabledMembershipProgramIds : List JsString
  geographicDirectory : Option GeographicDirectoryEvidence

/-- `offerEligibilityV2Schema`. -/
@[mk_iff] structure OfferEligibilityV2Schema (e : OfferEligibilityV2) : Prop where
  maxEvidenceAgeMs : NonNegativeSafeInteger e.maxEvidenceAgeMs
  location : GeographicContextSchema e.location
  enabledSourceIds : e.enabledSourceIds.length ≤ 100 ∧
    ∀ id ∈ e.enabledSourceIds, IdentifierSchema id
  enabledMembershipProgramIds : e.enabledMembershipProgramIds.length ≤ 100 ∧
    ∀ id ∈ e.enabledMembershipProgramIds, IdentifierSchema id
  geographicDirectory : ∀ evidence ∈ e.geographicDirectory,
    GeographicDirectoryEvidenceSchema evidence
  uniqueSources : e.enabledSourceIds.Nodup
  uniquePrograms : e.enabledMembershipProgramIds.Nodup

instance : DecidablePred OfferEligibilityV2Schema :=
  fun _ => decidable_of_iff' _ (offerEligibilityV2Schema_iff _)

/-- `ServerPlanningInputV2`. -/
structure ServerPlanningInputV2 where
  needs : List PlanningNeedV2
  matchingRules : List MatchRule
  products : List PlanningProductV2
  ordinaryPrices : List PriceObservation
  officialOffers : List OfficialOffer
  offerEligibility : OfferEligibilityV2
  maxStores : ℕ

/-- `serverPlanningInputV2Schema`. -/
@[mk_iff] structure ServerPlanningInputV2Schema (host : Host) (input : ServerPlanningInputV2) :
    Prop where
  length_needs : 1 ≤ input.needs.length ∧ input.needs.length ≤ 50
  needs : ∀ need ∈ input.needs, PlanningNeedV2Schema need
  length_matchingRules : 1 ≤ input.matchingRules.length ∧ input.matchingRules.length ≤ 50
  matchingRules : ∀ rule ∈ input.matchingRules, MatchRuleSchema rule
  length_products : 1 ≤ input.products.length ∧ input.products.length ≤ 500
  products : ∀ product ∈ input.products, PlanningProductV2Schema product
  length_ordinaryPrices : input.ordinaryPrices.length ≤ 5000
  ordinaryPrices : ∀ price ∈ input.ordinaryPrices, PriceObservationSchema price
  length_officialOffers : input.officialOffers.length ≤ 5000
  officialOffers : ∀ offer ∈ input.officialOffers, OfficialOfferSchema host offer
  offerEligibility : OfferEligibilityV2Schema input.offerEligibility
  maxStores : 1 ≤ input.maxStores ∧ input.maxStores ≤ 3
  uniqueNeeds : (input.needs.map (·.id)).Nodup
  uniqueRules : (input.matchingRules.map (·.id)).Nodup
  uniqueProducts : (input.products.map (·.canonicalProductId)).Nodup
  uniqueEans : (input.products.map (·.ean)).Nodup
  uniqueOffers : (input.officialOffers.map (·.id)).Nodup
  uniquePrices : (input.ordinaryPrices.map fun price => (price.ean, price.chain)).Nodup
  ruled : ∀ need ∈ input.needs, need.matchRuleId ∈ input.matchingRules.map (·.id)

instance (host : Host) : DecidablePred (ServerPlanningInputV2Schema host) :=
  fun _ => decidable_of_iff' _ (serverPlanningInputV2Schema_iff _ _)

/-! ### Plans -/

/-- `appliedOfficialOfferReferenceSchema`, the record. -/
structure OfficialOfferReference where
  id : JsString
  sourceId : JsString
  sourceRecordId : JsString
  capturedAt : ℤ
  deriving DecidableEq

/-- `appliedOfficialOfferReferenceSchema`. -/
@[mk_iff] structure OfficialOfferReferenceSchema (r : OfficialOfferReference) : Prop where
  id : IdentifierSchema r.id
  sourceId : IdentifierSchema r.sourceId
  sourceRecordId : IdentifierSchema r.sourceRecordId
  capturedAt : CanonicalTimestamp r.capturedAt

instance : DecidablePred OfficialOfferReferenceSchema :=
  fun _ => decidable_of_iff' _ (officialOfferReferenceSchema_iff _)

/-- `PlanAssignmentV2`. -/
structure PlanAssignmentV2 where
  needId : JsString
  canonicalProductId : JsString
  ean : JsString
  chain : Chain
  costOre : ℕ
  observedAt : ℤ
  source : JsString
  fulfilment : FulfilmentV2
  checkout : CheckoutCost
  officialOffer : Option OfficialOfferReference
  deriving DecidableEq

/-- `planAssignmentV2Schema`. -/
@[mk_iff] structure PlanAssignmentV2Schema (a : PlanAssignmentV2) : Prop where
  needId : IdentifierSchema a.needId
  canonicalProductId : IdentifierSchema a.canonicalProductId
  ean : isValidGtin a.ean = true
  costOre : MoneyOreSchema a.costOre
  observedAt : CanonicalTimestamp a.observedAt
  source : IdentifierSchema a.source
  fulfilment : FulfilmentV2Schema a.fulfilment
  checkout : CheckoutCostV2Schema a.checkout
  officialOffer : ∀ reference ∈ a.officialOffer, OfficialOfferReferenceSchema reference
  cost : a.costOre = a.checkout.totalOre
  need : a.needId = a.fulfilment.needId
  product : a.canonicalProductId = a.fulfilment.canonicalProductId
  offer : a.checkout.appliedOfferId = a.officialOffer.map (·.id)

instance : DecidablePred PlanAssignmentV2Schema :=
  fun _ => decidable_of_iff' _ (planAssignmentV2Schema_iff _)

/-- `PlanResultV2`; `freshness` is the list of the own keys of that object. -/
structure PlanResultV2 where
  id : JsString
  assignments : List PlanAssignmentV2
  totalOre : ℕ
  chains : List Chain
  substitutions : List JsString
  freshness : List JsString
  deriving DecidableEq

/-- `planResultV2Schema`. The record schema of `freshness` skips the key `__proto__`. -/
@[mk_iff] structure PlanResultV2Schema (plan : PlanResultV2) : Prop where
  id : IdentifierSchema plan.id
  length_assignments : 1 ≤ plan.assignments.length ∧ plan.assignments.length ≤ 50
  assignments : ∀ a ∈ plan.assignments, PlanAssignmentV2Schema a
  totalOre : MoneyOreSchema plan.totalOre
  length_chains : 1 ≤ plan.chains.length ∧ plan.chains.length ≤ 3
  length_substitutions : plan.substitutions.length ≤ 50
  substitutions : ∀ id ∈ plan.substitutions, IdentifierSchema id
  freshness : ∀ id ∈ plan.freshness, IdentifierSchema id ∧ id ≠ protoKey
  uniqueChains : plan.chains.Nodup
  describedChains : (∀ chain ∈ plan.chains, ∃ a ∈ plan.assignments, a.chain = chain) ∧
    ∀ a ∈ plan.assignments, a.chain ∈ plan.chains
  total : (plan.assignments.map (·.costOre)).sum = plan.totalOre
  uniqueNeeds : (plan.assignments.map (·.needId)).Nodup
  covered : sortBy compareText (plan.assignments.map (·.needId)) =
    sortBy compareText plan.freshness
  uniqueSubstitutions : plan.substitutions.Nodup
  assignedSubstitutions : ∀ id ∈ plan.substitutions, id ∈ plan.assignments.map (·.needId)

instance : DecidablePred PlanResultV2Schema :=
  fun _ => decidable_of_iff' _ (planResultV2Schema_iff _)

end Handleplan
