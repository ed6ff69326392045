import Handleplan.Domain.PlannerV2Contracts
import Handleplan.Lib.Pareto
import Handleplan.Lib.Subsets

/-!
# The second planner

For each selection of at most three of the available chains the planner takes the least candidate of
every need, keeps one plan for each identity text and drops the dominated plans.

## Main definitions

* `PlannerV2.bestCheckout` — the cheapest checkout of one product at one chain.
* `PlannerV2.candidates` — the assignments that could serve a need within a subset.
* `PlannerV2.planForSubset` — the plan of a subset of chains.
* `PlannerV2.enumerateCompletePlanCandidatesV2`, `calculatePlansV2` — the planner.

## Implementation notes

A comparator `a || b || c` of the source is `compareLex`, and the first entry of a sorted array is
`Sorting.least`. A clock and the instants of observations are milliseconds since the epoch.
-/

namespace Handleplan.PlannerV2

open JsString Sorting

/-! ### Legacy records -/

/-- `toLegacyNeed`. -/
def toLegacyNeed (need : PlanningNeedV2) : Need where
  id := need.id
  query := need.query
  quantity := need.requested.amount
  quantityUnit :=
    match need.requested.unit with
    | .g => .g
    | .ml => .ml
    | _ => .each
  matchRuleId := need.matchRuleId
  required := true

/-- `toLegacyProduct`. -/
def toLegacyProduct (product : PlanningProductV2) : Product where
  ean := product.ean
  name := product.name
  brand := product.brand
  packageQuantity := some (product.packageMeasure.amount : ℚ)
  packageUnit :=
    match product.packageMeasure.unit with
    | .g => some .g
    | .ml => some .ml
    | _ => some .each
  productFamily := product.productFamily

/-- `officialOfferReference`. -/
def officialOfferReference (offer : OfficialOffer) : OfficialOfferReference where
  id := offer.id
  sourceId := offer.sourceId
  sourceRecordId := offer.sourceRecordId
  capturedAt := offer.capturedAt

/-- The entry of `indexOfficialOffers` under a key: the exact offers of the key, by identifier. -/
def indexOfficialOffers (offers : List OfficialOffer) (key : JsString) : List OfficialOffer :=
  sortBy (on (·.id) compareText)
    (offers.filter fun offer => offer.exactProductId.any fun canonicalProductId =>
      productChainKey canonicalProductId offer.chainId == key)

/-! ### Checkout -/

/-- A checkout with the offer that made it. -/
structure CheckoutChoice where
  checkout : CheckoutCost
  offer : Option OfficialOffer

/-- `compareCheckoutChoices`. -/
def compareCheckoutChoices : CheckoutChoice → CheckoutChoice → Ordering :=
  compareLex (compareOn (·.checkout.totalOre)) <|
    compareLex (compareOn (·.checkout.ordinaryTotalOre)) <|
      on (·.checkout.appliedOfferId.getD []) compareText

section Host

variable (host : Host)

/-- The choice an offer gives, when it applies. -/
def offerChoice (product : PlanningProductV2) (observation : PriceObservation) (packageCount : ℕ)
    (offerContext : OfficialOfferEvaluationContext) (offer : OfficialOffer) :
    Option CheckoutChoice :=
  match calculateCheckoutCost host product.canonicalProductId observation.chain.text packageCount
    observation.amountOre (some offer) offerContext with
  | .error _ => none
  | .ok checkout =>
    if checkout.appliedOfferId = some offer.id then some ⟨checkout, some offer⟩ else none

/-- `bestCheckout`. -/
def bestCheckout (product : PlanningProductV2) (observation : PriceObservation)
    (packageCount : ℕ) (officialOffers : List OfficialOffer)
    (offerContext : OfficialOfferEvaluationContext) : Option CheckoutChoice :=
  match calculateCheckoutCost host product.canonicalProductId observation.chain.text packageCount
    observation.amountOre none offerContext with
  | .error _ => none
  | .ok ordinary =>
    least compareCheckoutChoices (⟨ordinary, none⟩ ::
      officialOffers.filterMap (offerChoice host product observation packageCount offerContext))

end Host

/-! ### Assignments -/

/-- `compareCandidates`, on the assignments of the candidates. -/
def compareCandidates : PlanAssignmentV2 → PlanAssignmentV2 → Ordering :=
  compareLex (compareOn (·.costOre)) <|
    compareLex (compareOn (·.checkout.ordinaryTotalOre)) <|
      compareLex (on (·.ean) compareText) <|
        compareLex (on (·.chain) compareChains) <|
          compareLex (on (·.checkout.appliedOfferId.getD []) compareText) <|
            compareLex (descending (compareOn (·.observedAt))) <|
              on (·.source) compareText

/-- `assignmentKey`. -/
def assignmentKey (a : PlanAssignmentV2) : JsString :=
  joinWith (js ":") [a.needId, a.canonicalProductId, a.ean, a.chain.text, ofNat a.costOre,
    ofNat a.fulfilment.requested.amount, a.fulfilment.requested.unit.text,
    ofNat a.fulfilment.packageMeasure.amount, a.fulfilment.packageMeasure.unit.text,
    ofNat a.fulfilment.packageCount, ofNat a.fulfilment.purchased.amount,
    a.fulfilment.purchased.unit.text, ofNat a.fulfilment.surplus.amount,
    a.fulfilment.surplus.unit.text, a.checkout.appliedOfferId.getD (js "ordinary")]

/-- `planIdentity`. -/
def planIdentity (assignments : List PlanAssignmentV2) : JsString :=
  joinWith (js "|") (assignments.map assignmentKey)

/-- `stableHash`. -/
def stableHash (value : JsString) : JsString :=
  let first := value.foldl (fun (h : UInt32) code => (h ^^^ code.toUInt32) * 0x01000193) 0x811c9dc5
  let second := value.foldl (fun (h : UInt32) code => (h ^^^ code.toUInt32) * 0x85ebca6b) 0x9e3779b9
  toString36 first ++ toString36 second

/-! ### The plan of a subset of chains -/

variable (input : ServerPlanningInputV2)

/-- The evaluation context of the offers of an input. -/
def offerContext (now : ℤ) : OfficialOfferEvaluationContext where
  now := now
  maxEvidenceAgeMs := input.offerEligibility.maxEvidenceAgeMs
  location := input.offerEligibility.location
  channel := input.offerEligibility.channel
  enabledSourceIds := input.offerEligibility.enabledSourceIds
  enabledMembershipProgramIds := input.offerEligibility.enabledMembershipProgramIds
  geographicDirectory := input.offerEligibility.geographicDirectory

/-- The currently eligible prices of an input. -/
def eligiblePrices (now : ℤ) : List PriceObservation :=
  input.ordinaryPrices.filter fun observation =>
    classifyFreshness now observation.observedAt = .eligible

/-- The chains with an eligible price. -/
def availableChains (now : ℤ) : List Chain :=
  chainOrder.filter fun chain =>
    (eligiblePrices input now).any fun observation => observation.chain == chain

/-- `rulesById.get`. -/
def ruleById (id : JsString) : Option MatchRule :=
  (JsMap.ofEntries (input.matchingRules.map fun rule => (rule.id, rule))).get? id

/-- `productByEan.get`. -/
def productByEan (ean : JsString) : Option PlanningProductV2 :=
  (JsMap.ofEntries (input.products.map fun product => (product.ean, product))).get? ean

section Host

variable (host : Host)

variable (input : ServerPlanningInputV2)

/-- The GTINs a rule matches for a need. -/
def matchingEans (need : PlanningNeedV2) (rule : MatchRule) :
    List JsString :=
  (matchProducts host (toLegacyNeed need) rule (input.products.map toLegacyProduct)).map (·.ean)

/-- The candidate of a need at an observed price. -/
def candidateAt (now : ℤ) (need : PlanningNeedV2) (observation : PriceObservation) :
    Option PlanAssignmentV2 :=
  match productByEan input observation.ean with
  | none => none
  | some product =>
    match calculatePackageFulfilmentV2 product.canonicalProductId need.id need.requested
      product.packageMeasure with
    | .error _ => none
    | .ok fulfilment =>
      match bestCheckout host product observation fulfilment.packageCount
        (indexOfficialOffers input.officialOffers
          (productChainKey product.canonicalProductId observation.chain.text))
        (offerContext input now) with
      | none => none
      | some selected =>
        some
          { needId := need.id
            canonicalProductId := product.canonicalProductId
            ean := observation.ean
            chain := observation.chain
            costOre := selected.checkout.totalOre
            observedAt := observation.observedAt
            source := observation.source
            fulfilment := fulfilment
            checkout := selected.checkout
            officialOffer := selected.offer.map officialOfferReference }

/-- The candidates of a need within a subset of the chains. -/
def candidates (now : ℤ) (subset : List Chain) (need : PlanningNeedV2) (rule : MatchRule) :
    List PlanAssignmentV2 :=
  (eligiblePrices input now).filterMap fun observation =>
    if observation.chain ∉ subset ∨ observation.ean ∉ matchingEans host input need rule then none
    else candidateAt host input now need observation

/-- The assignment of a need within a subset of the chains. -/
def selectedAssignment (now : ℤ) (subset : List Chain) (need : PlanningNeedV2) :
    Option PlanAssignmentV2 :=
  match ruleById input need.matchRuleId with
  | none => none
  | some rule => least compareCandidates (candidates host input now subset need rule)

/-- The needs whose rule allows another product than one exact GTIN. -/
def substitutedNeeds : List JsString :=
  (input.needs.filter fun need =>
    (ruleById input need.matchRuleId).any fun rule => !rule.mode.isExact).map (·.id)

/-- The plan record of selected assignments. -/
def planOfAssignments (selected : List PlanAssignmentV2) :
    PlanResultV2 :=
  let assignments := sortBy (on (·.needId) compareText) selected
  { id := js "plan-v2-" ++ stableHash (planIdentity assignments)
    assignments := assignments
    totalOre := (assignments.map (·.costOre)).sum
    chains := sortBy compareChains (assignments.map (·.chain)).dedup
    substitutions := sortBy compareText (substitutedNeeds input)
    freshness := ownKeys (input.needs.map (·.id)) }

/-- `planForSubset`. -/
def planForSubset (now : ℤ) (subset : List Chain) :
    Option PlanResultV2 :=
  match input.needs.mapM (selectedAssignment host input now subset) with
  | none => none
  | some selected =>
    let result := planOfAssignments input selected
    if maxPersistedMoneyOre < result.totalOre then none
    else if result.chains.length = 0 ∨ input.maxStores < result.chains.length ∨
        3 < result.chains.length then
      none
    else if PlanResultV2Schema result then some result else none

end Host

/-! ### The planner -/

/-- `dominates`. -/
def dominates (left right : PlanResultV2) : Bool :=
  (decide (left.totalOre ≤ right.totalOre) &&
    decide (left.chains.length ≤ right.chains.length) &&
    decide (left.substitutions.length ≤ right.substitutions.length)) &&
  (decide (left.totalOre < right.totalOre) ||
    decide (left.chains.length < right.chains.length) ||
    decide (left.substitutions.length < right.substitutions.length))

/-- `comparePlans`. -/
def comparePlans : PlanResultV2 → PlanResultV2 → Ordering :=
  compareLex (compareOn (·.chains.length)) <|
    compareLex (compareOn (·.substitutions.length)) <|
      compareLex (compareOn (·.totalOre)) <|
        on (fun plan => planIdentity plan.assignments) compareText

/-- The plans of all subsets, before any is dropped. -/
def subsetPlans (host : Host) (input : ServerPlanningInputV2) (now : ℤ) : List PlanResultV2 :=
  (Subsets.combinations (availableChains input now) (min input.maxStores 3)).filterMap
    (planForSubset host input now)

/-- `uniqueAssignments`: the last plan of each identity text, of the plans in order. -/
def uniqueAssignments (plans : List PlanResultV2) : List PlanResultV2 :=
  (JsMap.ofEntries ((sortBy comparePlans plans).map fun plan =>
    (planIdentity plan.assignments, plan))).values

/-- `enumerateCompletePlanCandidatesV2`. -/
def enumerateCompletePlanCandidatesV2 (host : Host) (input : ServerPlanningInputV2) (now : ℤ) :
    List PlanResultV2 :=
  if ServerPlanningInputV2Schema host input then
    sortBy comparePlans (uniqueAssignments (subsetPlans host input now))
  else []

/-- `calculatePlansV2`. -/
def calculatePlansV2 (host : Host) (input : ServerPlanningInputV2) (now : ℤ) :
    List PlanResultV2 :=
  sortBy comparePlans
    (Pareto.frontier dominates (enumerateCompletePlanCandidatesV2 host input now))

end Handleplan.PlannerV2
