import Handleplan.Domain.PlannerV2

/-!
# The first planner

The planner of needs without canonical products: it multiplies ordinary prices by whole packages,
takes the least candidate of every required need within a selection of at most three chains, keeps
one plan for each identity text and drops the dominated plans.

## Main definitions

* `PlanRequest`, `PlanResult` — what is asked of the planner, and what it answers.
* `calculatePackageFulfilment` — the whole packages that fulfil a weight or a volume.
* `Planner.candidates` — the assignments that could serve a need within a subset.
* `Planner.planForSubset`, `calculatePlans` — the planner.

## Implementation notes

The planner goes on with the parsed request, in which the sources of the prices are trimmed; no
other field changes by parsing. A need with a quantity that is no whole number makes the answer
empty, so quantities are `ℕ`. `freshness` is the list of the own keys of that object.
-/

namespace Handleplan

open JsString Sorting

/-! ### Records -/

/-- `Fulfilment`. -/
structure Fulfilment where
  needId : JsString
  canonicalProductId : JsString
  requested : PackageMeasure
  packageMeasure : PackageMeasure
  packageCount : ℕ
  fulfilledAmount : ℕ
  surplusAmount : ℕ
  deriving DecidableEq

/-- `fulfilmentSchema`. -/
@[mk_iff] structure FulfilmentSchema (f : Fulfilment) : Prop where
  needId : IdentifierSchema f.needId
  canonicalProductId : IdentifierSchema f.canonicalProductId
  requested : PackageMeasureSchema f.requested
  packageMeasure : PackageMeasureSchema f.packageMeasure
  packageCount : PositiveSafeInteger f.packageCount
  fulfilledAmount : PositiveSafeInteger f.fulfilledAmount
  surplusAmount : NonNegativeSafeInteger f.surplusAmount
  units : f.requested.unit = f.packageMeasure.unit
  safe : f.packageMeasure.amount * f.packageCount ≤ maxSafeInteger
  fulfilled : f.fulfilledAmount = f.packageMeasure.amount * f.packageCount
  surplus : f.requested.amount + f.surplusAmount = f.fulfilledAmount

instance : DecidablePred FulfilmentSchema := fun _ => decidable_of_iff' _ (fulfilmentSchema_iff _)

/-- `calculatePackageFulfilment`, when it is complete. -/
def calculatePackageFulfilment (canonicalProductId needId : JsString)
    (requested packageMeasure : PackageMeasure) : Option Fulfilment :=
  if ¬ IdentifierSchema (trim canonicalProductId) ∨ ¬ IdentifierSchema (trim needId) ∨
      ¬ PackageMeasureSchema requested ∨ ¬ PackageMeasureSchema packageMeasure then
    none
  else if requested.unit ≠ packageMeasure.unit then none
  else
    let packageCount := (requested.amount + packageMeasure.amount - 1) / packageMeasure.amount
    let fulfilledAmount := packageCount * packageMeasure.amount
    if maxSafeInteger < packageCount ∨ maxSafeInteger < fulfilledAmount then none
    else
      let fulfilment : Fulfilment :=
        { needId := trim needId
          canonicalProductId := trim canonicalProductId
          requested := requested
          packageMeasure := packageMeasure
          packageCount := packageCount
          fulfilledAmount := fulfilledAmount
          surplusAmount := fulfilledAmount - requested.amount }
      if FulfilmentSchema fulfilment then some fulfilment else none

/-- `PlanRequest`. -/
structure PlanRequest where
  needs : List Need
  matchingRules : List MatchRule
  products : List Product
  prices : List PriceObservation
  maxStores : ℕ

/-- An assignment of a plan. -/
structure PlanAssignment where
  needId : JsString
  ean : JsString
  chain : Chain
  quantity : ℕ
  costOre : ℕ
  observedAt : ℤ
  source : JsString
  fulfilment : Option Fulfilment
  deriving DecidableEq

/-- `PlanResult`. -/
structure PlanResult where
  id : JsString
  assignments : List PlanAssignment
  totalOre : ℕ
  chains : List Chain
  substitutions : List JsString
  freshness : List JsString
  deriving DecidableEq

/-- A price observation as it is parsed. -/
def PriceObservation.parse (observation : PriceObservation) : PriceObservation :=
  { observation with source := trim observation.source }

/-- A request as it is parsed. -/
def PlanRequest.parse (request : PlanRequest) : PlanRequest :=
  { request with prices := request.prices.map PriceObservation.parse }

/-- `sourceNeutralPlanRequestSchema`, on a parsed request. -/
@[mk_iff] structure PlanRequestSchema (request : PlanRequest) : Prop where
  needs : ∀ need ∈ request.needs, NeedSchema need
  matchingRules : ∀ rule ∈ request.matchingRules, MatchRuleSchema rule
  products : ∀ product ∈ request.products, ProductSchema product
  prices : ∀ price ∈ request.prices, PriceObservationSchema price
  maxStores : 1 ≤ request.maxStores ∧ request.maxStores ≤ 3

instance : DecidablePred PlanRequestSchema := fun _ => decidable_of_iff' _ (planRequestSchema_iff _)

/-- What `calculatePlans` demands of a request besides its schema. -/
@[mk_iff] structure Plannable (request : PlanRequest) : Prop where
  schema : PlanRequestSchema request
  uniqueNeeds : (request.needs.map (·.id)).Nodup
  uniqueRules : (request.matchingRules.map (·.id)).Nodup
  quantities : ∀ need ∈ request.needs, need.quantity ≤ maxSafeInteger

instance : DecidablePred Plannable := fun _ => decidable_of_iff' _ (plannable_iff _)

namespace Planner

/-! ### Comparators and texts -/

/-- `compareCandidates`, on the assignments of the candidates. -/
def compareCandidates : PlanAssignment → PlanAssignment → Ordering :=
  compareLex (compareOn (·.costOre)) <|
    compareLex (on (·.ean) compareText) <|
      compareLex (on (·.chain) compareChains) <| descending (compareOn (·.observedAt))

/-- `assignmentKey`. -/
def assignmentKey (a : PlanAssignment) : JsString :=
  joinWith (js ":") [a.needId, a.ean, a.chain.text, ofNat a.quantity, ofNat a.costOre,
    (a.fulfilment.map fun f => ofNat f.packageCount).getD (js "legacy"),
    (a.fulfilment.map fun f => ofNat f.surplusAmount).getD (js "legacy")]

/-- `planIdentity`. -/
def planIdentity (assignments : List PlanAssignment) : JsString :=
  joinWith (js "|") (assignments.map assignmentKey)

/-- `stableHash`. -/
def stableHash (value : JsString) : JsString := PlannerV2.stableHash value

/-! ### The plan of a subset of chains -/

variable (request : PlanRequest)

/-- The currently eligible prices of a request. -/
def eligiblePrices (now : ℤ) : List PriceObservation :=
  request.prices.filter fun observation => classifyFreshness now observation.observedAt = .eligible

/-- The chains with an eligible price. -/
def availableChains (now : ℤ) : List Chain :=
  chainOrder.filter fun chain =>
    (eligiblePrices request now).any fun observation => observation.chain == chain

/-- `rulesById.get`. -/
def ruleById (id : JsString) : Option MatchRule :=
  (JsMap.ofEntries (request.matchingRules.map fun rule => (rule.id, rule))).get? id

/-- `productsByEan.get`. -/
def productByEan (ean : JsString) : Option Product :=
  (JsMap.ofEntries (request.products.map fun product => (product.ean, product))).get? ean

/-- The required needs in order. -/
def requiredNeeds : List Need :=
  sortBy (on (·.id) compareText) (request.needs.filter (·.required))

/-- The measure a need for a weight or a volume asks for, in a product of that unit. -/
def requestedMeasure (need : Need) (unit : Option PackageUnit) : Option PackageMeasure :=
  match need.quantityUnit, unit with
  | .g, some .g => some ⟨need.quantity, .g⟩
  | .ml, some .ml => some ⟨need.quantity, .ml⟩
  | _, _ => none

/-- The whole packages of a product for a need that is not counted: none of a product whose package
has another unit, or no whole size. -/
def packageFulfilment (need : Need) (product : Product) : Option Fulfilment := do
  let packageQuantity ← product.packageQuantity
  let requested ← requestedMeasure need product.packageUnit
  if packageQuantity.isInt ∧ packageQuantity.num ≤ maxSafeInteger then
    calculatePackageFulfilment product.ean need.id requested
      ⟨packageQuantity.num.toNat, requested.unit⟩
  else none

/-- The candidate of a need at an observed price, for a number of packages. -/
def pricedCandidate (need : Need) (observation : PriceObservation) (packageCount : ℕ)
    (fulfilment : Option Fulfilment) : Option PlanAssignment :=
  if maxPersistedMoneyOre < observation.amountOre * packageCount then none
  else
    some
      { needId := need.id
        ean := observation.ean
        chain := observation.chain
        quantity := need.quantity
        costOre := observation.amountOre * packageCount
        observedAt := observation.observedAt
        source := observation.source
        fulfilment := fulfilment }

/-- The candidate of a need at an observed price of a product. -/
def candidateAt (need : Need) (product : Option Product) (observation : PriceObservation) :
    Option PlanAssignment :=
  if need.quantityUnit = .each then pricedCandidate need observation need.quantity none
  else
    match product.bind (packageFulfilment need) with
    | none => none
    | some fulfilment =>
      pricedCandidate need observation fulfilment.packageCount (some fulfilment)

section Host

variable (host : Host)

variable (request : PlanRequest)

/-- The GTINs a rule matches for a need. -/
def matchingEans (need : Need) (rule : MatchRule) : List JsString :=
  (matchProducts host need rule request.products).map (·.ean)

/-- The candidates of a need within a subset of the chains. -/
def candidates (now : ℤ) (subset : List Chain) (need : Need) (rule : MatchRule) :
    List PlanAssignment :=
  (eligiblePrices request now).filterMap fun observation =>
    if observation.chain ∉ subset ∨ observation.ean ∉ matchingEans host request need rule then none
    else candidateAt need (productByEan request observation.ean) observation

/-- The assignment of a need within a subset of the chains. -/
def selectedAssignment (now : ℤ) (subset : List Chain) (need : Need) :
    Option PlanAssignment :=
  match ruleById request need.matchRuleId with
  | none => none
  | some rule => least compareCandidates (candidates host request now subset need rule)

/-- The needs whose rule allows another product than one exact GTIN. -/
def substitutedNeeds : List JsString :=
  ((requiredNeeds request).filter fun need =>
    (ruleById request need.matchRuleId).any fun rule => !rule.mode.isExact).map (·.id)

/-- The plan record of selected assignments. -/
def planOfAssignments (selected : List PlanAssignment) : PlanResult :=
  let assignments := sortBy (on (·.needId) compareText) selected
  { id := js "plan-" ++ stableHash (planIdentity assignments)
    assignments := assignments
    totalOre := (assignments.map (·.costOre)).sum
    chains := sortBy compareChains (assignments.map (·.chain)).dedup
    substitutions := sortBy compareText (substitutedNeeds request)
    freshness := ownKeys ((requiredNeeds request).map (·.id)) }

/-- `planForSubset`. -/
def planForSubset (now : ℤ) (subset : List Chain) : Option PlanResult :=
  match (requiredNeeds request).mapM (selectedAssignment host request now subset) with
  | none => none
  | some selected =>
    let result := planOfAssignments request selected
    if maxPersistedMoneyOre < result.totalOre then none
    else if result.chains.length = 0 ∨ request.maxStores < result.chains.length ∨
        3 < result.chains.length then
      none
    else some result

end Host

/-! ### The planner -/

/-- `dominates`. -/
def dominates (left right : PlanResult) : Bool :=
  (decide (left.totalOre ≤ right.totalOre) &&
    decide (left.chains.length ≤ right.chains.length) &&
    decide (left.substitutions.length ≤ right.substitutions.length)) &&
  (decide (left.totalOre < right.totalOre) ||
    decide (left.chains.length < right.chains.length) ||
    decide (left.substitutions.length < right.substitutions.length))

/-- `comparePlans`. -/
def comparePlans : PlanResult → PlanResult → Ordering :=
  compareLex (compareOn (·.chains.length)) <|
    compareLex (compareOn (·.substitutions.length)) <|
      compareLex (compareOn (·.totalOre)) <|
        on (fun plan => planIdentity plan.assignments) compareText

/-- The plans of all subsets, before any is dropped. -/
def subsetPlans (host : Host) (request : PlanRequest) (now : ℤ) : List PlanResult :=
  (Subsets.combinations (availableChains request now) (min request.maxStores 3)).filterMap
    (planForSubset host request now)

/-- `uniqueAssignments`: the last plan of each identity text, of the plans in order. -/
def uniqueAssignments (plans : List PlanResult) : List PlanResult :=
  (JsMap.ofEntries ((sortBy comparePlans plans).map fun plan =>
    (planIdentity plan.assignments, plan))).values

/-- `calculatePlans`, on a parsed request. -/
def calculateParsedPlans (host : Host) (request : PlanRequest) (now : ℤ) : List PlanResult :=
  if ¬ Plannable request then []
  else if requiredNeeds request = [] then []
  else
    sortBy comparePlans
      (Pareto.frontier dominates (uniqueAssignments (subsetPlans host request now)))

/-- `calculatePlans`. -/
def calculatePlans (host : Host) (request : PlanRequest) (now : ℤ) : List PlanResult :=
  calculateParsedPlans host request.parse now

end Planner

end Handleplan
