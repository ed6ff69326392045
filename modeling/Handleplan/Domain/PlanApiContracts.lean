import Handleplan.Domain.Contracts
import Handleplan.Domain.History

/-!
# Contracts of the exact-product planning API

The request of the API, the catalogue summaries of its products, and the envelope of evidence its
response carries.

## Main definitions

* `ExactProductPlanApiRequest`, `ExactProductPlanApiRequestSchema` — the request.
* `ExactProductPlanApiProductSummary` — a catalogue record.
* `ExactProductPlanApiNeedEvidence` — the evidence of one need.
* `ExactProductPlanApiEvidenceEnvelope` — the evidence of a response.

## Main results

* `referenceKey_injective` — the key of an assignment reference tells plans without NUL
  in their identifiers, needs and chains apart.

## Design

`contractVersion`, `kind`, `userApproved`, `required` and `state` are literals of their schemas, so
the records leave them out.
-/

namespace Handleplan

open JsString Sorting

/-- `EXACT_PRODUCT_OFFER_MAX_AGE_MS`: 14 days. -/
def exactProductOfferMaxAgeMs : ℕ := 14 * 24 * 60 * 60 * 1000

/-- `EXACT_PRODUCT_PRICE_MAX_AGE_MS`: 72 hours. -/
def exactProductPriceMaxAgeMs : ℕ := 72 * 60 * 60 * 1000

/-- `EXACT_PRODUCT_CATALOG_MAX_AGE_MS`: 48 hours. -/
def exactProductCatalogMaxAgeMs : ℕ := 48 * 60 * 60 * 1000

/-- `enabledMembershipProgramIdsSchema`. -/
@[mk_iff] structure EnabledMembershipProgramIdsSchema (host : Host) (ids : List JsString) :
    Prop where
  bounded : ids.length ≤ 100
  valid : ∀ id ∈ ids, MembershipProgramIdSchema host id
  unique : ids.Nodup
  canonical : HasCanonicalStringOrder ids

instance (host : Host) : DecidablePred (EnabledMembershipProgramIdsSchema host) :=
  fun _ => decidable_of_iff' _ (enabledMembershipProgramIdsSchema_iff _ _)

/-! ### The request -/

/-- `ExactProductPlanApiNeed`; `gtin` is `match.product.value`. -/
structure ExactProductPlanApiNeed where
  id : JsString
  gtin : JsString
  quantity : ℕ
  quantityUnit : QuantityUnit

/-- `exactProductPlanApiNeedSchema`. -/
@[mk_iff] structure ExactProductPlanApiNeedSchema (need : ExactProductPlanApiNeed) : Prop where
  id : IdentifierSchema need.id
  gtin : isValidGtin need.gtin = true
  quantity : PositiveSafeInteger need.quantity

instance : DecidablePred ExactProductPlanApiNeedSchema :=
  fun _ => decidable_of_iff' _ (exactProductPlanApiNeedSchema_iff _)

/-- `ExactProductPlanApiRequest`. -/
structure ExactProductPlanApiRequest where
  enabledMembershipProgramIds : List JsString
  marketContext : MarketContextV1
  maxStores : ℕ
  needs : List ExactProductPlanApiNeed

/-- `exactProductPlanApiRequestSchema`. -/
@[mk_iff] structure ExactProductPlanApiRequestSchema (host : Host)
    (request : ExactProductPlanApiRequest) : Prop where
  enabledMembershipProgramIds :
    EnabledMembershipProgramIdsSchema host request.enabledMembershipProgramIds
  marketContext : MarketContextV1Schema request.marketContext
  maxStores : 1 ≤ request.maxStores ∧ request.maxStores ≤ 3
  length_needs : 1 ≤ request.needs.length ∧ request.needs.length ≤ 50
  needs : ∀ need ∈ request.needs, ExactProductPlanApiNeedSchema need
  uniqueNeeds : (request.needs.map (·.id)).Nodup

instance (host : Host) : DecidablePred (ExactProductPlanApiRequestSchema host) :=
  fun _ => decidable_of_iff' _ (exactProductPlanApiRequestSchema_iff _ _)

/-! ### Sources and catalogue records -/

/-- `sourceClass`. -/
inductive SourceClass where
  | catalog | ordinaryPrice | offer | store | geocoder | routing | legacy
  deriving DecidableEq

/-- `ExactProductPlanApiEvidenceSource`. -/
structure ExactProductPlanApiEvidenceSource where
  id : JsString
  displayName : JsString
  sourceClass : SourceClass
  deriving DecidableEq

/-- `exactProductPlanApiEvidenceSourceSchema`. -/
def ExactProductPlanApiEvidenceSourceSchema (source : ExactProductPlanApiEvidenceSource) : Prop :=
  IdentifierSchema source.id ∧ NonEmptyStringSchema source.displayName

instance : DecidablePred ExactProductPlanApiEvidenceSourceSchema :=
  fun _ => inferInstanceAs (Decidable (_ ∧ _))

/-- `ExactProductPlanApiCatalogEvidence`. -/
structure ExactProductPlanApiCatalogEvidence where
  observedAt : ℤ
  source : ExactProductPlanApiEvidenceSource
  sourceRecordId : JsString
  deriving DecidableEq

/-- The pattern `/^source-record:[0-9a-f]{64}$/`. -/
def SourceRecordIdSchema (s : JsString) : Prop :=
  s.take 14 = js "source-record:" ∧ s.length = 78 ∧
    ∀ u ∈ s.drop 14, isDigit u = true ∨ (97 ≤ u ∧ u ≤ 102)

instance : DecidablePred SourceRecordIdSchema := fun _ => inferInstanceAs (Decidable (_ ∧ _ ∧ _))

/-- `ExactProductPlanApiProductSummary`. -/
structure ExactProductPlanApiProductSummary where
  catalogEvidence : ExactProductPlanApiCatalogEvidence
  gtin : JsString
  displayName : JsString
  brand : Option JsString
  packageMeasure : Option PackageMeasure
  unitsPerPack : ℕ
  deriving DecidableEq

/-- `exactProductPlanApiProductSummarySchema`. -/
@[mk_iff] structure ExactProductPlanApiProductSummarySchema
    (product : ExactProductPlanApiProductSummary) : Prop where
  observedAt : CanonicalTimestamp product.catalogEvidence.observedAt
  source : ExactProductPlanApiEvidenceSourceSchema product.catalogEvidence.source
  sourceRecordId : SourceRecordIdSchema product.catalogEvidence.sourceRecordId
  gtin : isValidGtin product.gtin = true
  displayName : NonEmptyStringSchema product.displayName
  brand : ∀ brand ∈ product.brand, NonEmptyStringSchema brand
  packageMeasure : ∀ packageMeasure ∈ product.packageMeasure, PackageMeasureSchema packageMeasure
  unitsPerPack : PositiveSafeInteger product.unitsPerPack

instance : DecidablePred ExactProductPlanApiProductSummarySchema :=
  fun _ => decidable_of_iff' _ (exactProductPlanApiProductSummarySchema_iff _)

/-! ### The evidence of a need -/

/-- `ExactProductPlanApiNeedEvidence`. -/
structure ExactProductPlanApiNeedEvidence where
  needId : JsString
  ordinaryPrices : List PriceEvidence
  historicalPriceEvidence : List PriceEvidence
  excludedPriceEvidence : List PriceEvidence
  officialOffers : List OfficialOffer
  historicalComparisons : List HistoricalComparison
  comparisonScope : ComparisonScope
  deriving DecidableEq

/-- The record kept for an identifier by `new Map(values.map((value) => [value.id, value]))`. -/
def byId {α : Type} (id : α → JsString) (values : List α) (key : JsString) : Option α :=
  (JsMap.ofEntries (values.map fun value => (id value, value))).get? key

/-- A looked up record is of the list and has the identifier. -/
theorem mem_of_byId_eq_some {α : Type} {id : α → JsString} {values : List α} {key : JsString}
    {a : α} (h : byId id values key = some a) : a ∈ values ∧ id a = key := by
  obtain ⟨pre, post, heq, -⟩ := (JsMap.get?_ofEntries_eq_some_iff _ _ _).mp h
  have hmem : (key, a) ∈ values.map fun value => (id value, value) := by simp [heq]
  obtain ⟨b, hb, hpair⟩ := List.mem_map.mp hmem
  cases hpair
  exact ⟨hb, rfl⟩

/-- A list of at most `bound` price records that meet their schema and price one exact product
without conditions. -/
def ExactOrdinaryList (bound : ℕ) (values : List PriceEvidence) : Prop :=
  values.length ≤ bound ∧ (∀ evidence ∈ values, PriceEvidenceSchema evidence) ∧
    (values.map (·.id)).Nodup ∧ ∀ evidence ∈ values,
      evidence.priceKind = .ordinary ∧ evidence.productMatch.exactProductId ≠ none

instance (bound : ℕ) : DecidablePred (ExactOrdinaryList bound) :=
  fun _ => inferInstanceAs (Decidable (_ ∧ _ ∧ _ ∧ _))

/-- The evidence a scope names as priced. -/
def ComparisonScope.pricedIds (scope : ComparisonScope) : List JsString :=
  scope.entries.filterMap (·.status.pricedEvidenceId)

/-- The evidence a scope names as stale or ineligible. -/
def ComparisonScope.excludedIds (scope : ComparisonScope) : List JsString :=
  scope.entries.filterMap (·.status.excludedEvidenceId)

/-- Whether a historical comparison rests on the current price and the baseline it names. -/
def HistoryMatches (ordinaryPrices historicalPriceEvidence : List PriceEvidence)
    (comparison : HistoricalComparison) : Prop :=
  match byId (·.id) ordinaryPrices comparison.currentEvidenceId with
  | none => False
  | some current =>
    let baselineEvidence :=
      comparison.sourceEvidenceIds.filterMap (byId (·.id) historicalPriceEvidence)
    (current.chainId = comparison.chainId ∧
        current.productMatch = .exact comparison.canonicalProductId ∧
        current.amountOre = comparison.currentOre ∧
        current.observedAt = comparison.windowEndsAt) ∧
      (baselineEvidence.length = comparison.sourceEvidenceIds.length ∧
        ∀ evidence ∈ baselineEvidence, evidence.chainId = comparison.chainId ∧
          evidence.productMatch = .exact comparison.canonicalProductId ∧
          evidence.sourceId = current.sourceId ∧
          geographicScopeFingerprint evidence.geographicScope =
            geographicScopeFingerprint current.geographicScope ∧
          comparison.windowStartsAt ≤ evidence.observedAt ∧
          evidence.observedAt < comparison.windowEndsAt) ∧
      (baselineEvidence.map fun e => utcObservationDay e.observedAt).dedup.length =
        comparison.distinctObservationDays ∧
      medianOre (baselineEvidence.map (·.amountOre)) = some comparison.baselineOre

instance (ordinaryPrices historicalPriceEvidence : List PriceEvidence) :
    DecidablePred (HistoryMatches ordinaryPrices historicalPriceEvidence) := fun comparison => by
  unfold HistoryMatches
  cases byId (·.id) ordinaryPrices comparison.currentEvidenceId <;> dsimp only <;> infer_instance

/-- `exactProductPlanApiNeedEvidenceSchema`. -/
@[mk_iff] structure ExactProductPlanApiNeedEvidenceSchema (host : Host)
    (entry : ExactProductPlanApiNeedEvidence) : Prop where
  needId : IdentifierSchema entry.needId
  ordinaryPrices : ExactOrdinaryList 13 entry.ordinaryPrices
  historicalPriceEvidence : ExactOrdinaryList 300 entry.historicalPriceEvidence
  excludedPriceEvidence : ExactOrdinaryList 13 entry.excludedPriceEvidence
  officialOffers : entry.officialOffers.length ≤ 50 ∧
    ∀ offer ∈ entry.officialOffers, OfficialOfferSchema host offer
  historicalComparisons : entry.historicalComparisons.length ≤ 13 ∧
    ∀ comparison ∈ entry.historicalComparisons, HistoricalComparisonSchema comparison
  comparisonScope : ComparisonScopeSchema entry.comparisonScope
  uniqueOffers : (entry.officialOffers.map (·.id)).Nodup
  separateHistory : ∀ id ∈ entry.historicalPriceEvidence.map (·.id),
    id ∉ entry.ordinaryPrices.map (·.id)
  separateExcluded : ∀ id ∈ entry.excludedPriceEvidence.map (·.id),
    id ∉ entry.ordinaryPrices.map (·.id) ∧ id ∉ entry.historicalPriceEvidence.map (·.id)
  uniqueComparisons : (entry.historicalComparisons.map (·.id)).Nodup
  expectedChains : entry.comparisonScope.expectedChainIds = chainOrder.map Chain.text
  pricedCells : ∀ cell ∈ entry.comparisonScope.entries, ∀ id ∈ cell.status.pricedEvidenceId,
    ∃ evidence ∈ byId (·.id) entry.ordinaryPrices id, evidence.chainId = cell.chainId
  priced : entry.comparisonScope.pricedIds.length = entry.ordinaryPrices.length ∧
    ∀ id ∈ entry.ordinaryPrices.map (·.id), id ∈ entry.comparisonScope.pricedIds
  excludedCells : ∀ cell ∈ entry.comparisonScope.entries, ∀ id ∈ cell.status.excludedEvidenceId,
    ∃ evidence ∈ byId (·.id) entry.excludedPriceEvidence id, evidence.chainId = cell.chainId
  excluded : entry.comparisonScope.excludedIds.Nodup ∧
    entry.comparisonScope.excludedIds.length = entry.excludedPriceEvidence.length ∧
    ∀ id ∈ entry.excludedPriceEvidence.map (·.id), id ∈ entry.comparisonScope.excludedIds
  history : ∀ comparison ∈ entry.historicalComparisons,
    HistoryMatches entry.ordinaryPrices entry.historicalPriceEvidence comparison
  referencedHistory :
    (entry.historicalComparisons.flatMap (·.sourceEvidenceIds)).dedup.length =
      entry.historicalPriceEvidence.length ∧
    ∀ id ∈ entry.historicalPriceEvidence.map (·.id),
      id ∈ entry.historicalComparisons.flatMap (·.sourceEvidenceIds)

instance (host : Host) : DecidablePred (ExactProductPlanApiNeedEvidenceSchema host) :=
  fun _ => decidable_of_iff' _ (exactProductPlanApiNeedEvidenceSchema_iff _ _)

/-! ### The envelope -/

/-- `conditions` of an assignment reference. -/
inductive AssignmentConditions where
  | ordinaryPrice
  | officialOffer (offerId : JsString)
  deriving DecidableEq

/-- `ExactProductPlanApiAssignmentEvidence`. -/
structure ExactProductPlanApiAssignmentEvidence where
  planId : JsString
  needId : JsString
  chainId : Chain
  evidenceId : JsString
  conditions : AssignmentConditions
  deriving DecidableEq

/-- `officialOfferAssignmentConditionSchema` and `ordinaryPriceAssignmentConditionSchema`. -/
def AssignmentConditionsSchema : AssignmentConditions → Prop
  | .ordinaryPrice => True
  | .officialOffer offerId => IdentifierSchema offerId

instance : DecidablePred AssignmentConditionsSchema := fun conditions => by
  cases conditions <;> unfold AssignmentConditionsSchema <;> infer_instance

/-- `exactProductPlanApiAssignmentEvidenceSchema`. -/
@[mk_iff] structure ExactProductPlanApiAssignmentEvidenceSchema
    (reference : ExactProductPlanApiAssignmentEvidence) : Prop where
  planId : IdentifierSchema reference.planId
  needId : IdentifierSchema reference.needId
  evidenceId : IdentifierSchema reference.evidenceId
  conditions : AssignmentConditionsSchema reference.conditions

instance : DecidablePred ExactProductPlanApiAssignmentEvidenceSchema :=
  fun _ => decidable_of_iff' _ (exactProductPlanApiAssignmentEvidenceSchema_iff _)

/-- The key of the assignment of a need of a plan at a chain. -/
def referenceKey (planId needId : JsString) (chain : Chain) : JsString :=
  planId ++ 0 :: (needId ++ 0 :: chain.text)

/-- The key of an assignment reference. -/
def ExactProductPlanApiAssignmentEvidence.key
    (reference : ExactProductPlanApiAssignmentEvidence) : JsString :=
  referenceKey reference.planId reference.needId reference.chainId

/-- `ExactProductPlanApiEvidenceEnvelope`. -/
structure ExactProductPlanApiEvidenceEnvelope where
  sources : List ExactProductPlanApiEvidenceSource
  needs : List ExactProductPlanApiNeedEvidence
  assignmentEvidence : List ExactProductPlanApiAssignmentEvidence
  deriving DecidableEq

/-- `exactProductPlanApiEvidenceEnvelopeSchema`. -/
@[mk_iff] structure ExactProductPlanApiEvidenceEnvelopeSchema (host : Host)
    (envelope : ExactProductPlanApiEvidenceEnvelope) : Prop where
  length_sources : envelope.sources.length ≤ 100
  sources : ∀ source ∈ envelope.sources, ExactProductPlanApiEvidenceSourceSchema source
  length_needs : 1 ≤ envelope.needs.length ∧ envelope.needs.length ≤ 50
  needs : ∀ entry ∈ envelope.needs, ExactProductPlanApiNeedEvidenceSchema host entry
  length_assignmentEvidence : envelope.assignmentEvidence.length ≤ 350
  assignmentEvidence : ∀ reference ∈ envelope.assignmentEvidence,
    ExactProductPlanApiAssignmentEvidenceSchema reference
  uniqueSources : (envelope.sources.map (·.id)).Nodup
  uniqueNeeds : (envelope.needs.map (·.needId)).Nodup
  uniqueReferences : (envelope.assignmentEvidence.map (·.key)).Nodup

instance (host : Host) : DecidablePred (ExactProductPlanApiEvidenceEnvelopeSchema host) :=
  fun _ => decidable_of_iff' _ (exactProductPlanApiEvidenceEnvelopeSchema_iff _ _)

/-! ### Keys -/

theorem zero_notMem_text (chain : Chain) : (0 : UInt16) ∉ chain.text := by
  cases chain <;> decide

/-- The key of a reference tells plans, needs and chains apart when no plan identifier contains
NUL: the plan identifier ends at the first NUL, the chain begins after the last. -/
theorem referenceKey_injective {p q m n : JsString} {c d : Chain} (hp : (0 : UInt16) ∉ p)
    (hq : (0 : UInt16) ∉ q) (h : referenceKey p m c = referenceKey q n d) :
    p = q ∧ m = n ∧ c = d := by
  obtain ⟨rfl, hrest⟩ := append_sep_inj hp hq h
  have hreverse := congrArg List.reverse hrest
  simp only [List.reverse_append, List.reverse_cons, List.append_assoc,
    List.singleton_append] at hreverse
  obtain ⟨hchain, hneed⟩ := append_sep_inj
    (by simpa using zero_notMem_text c) (by simpa using zero_notMem_text d) hreverse
  exact ⟨rfl, List.reverse_injective hneed, Chain.text_injective (List.reverse_injective hchain)⟩

end Handleplan
