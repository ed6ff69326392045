import Handleplan.Domain.PlanApiContracts

/-!
# The price service

For the products of an exact request the service validates one snapshot of price evidence and one of
official offers, derives the coverage of each need, and packs the evidence into an envelope whose
sources are those the evidence refers to.

## Main definitions

* `PriceService.PlanningEvidenceSnapshot`, `PublicOfficialOfferSnapshot` — what the
  readers answer with.
* `PriceService.readExact` — the service.

## Implementation notes

Every failure of the service other than a cancelled or an invalid request has the one code
`UNAVAILABLE`. A cast from the text of a chain to a chain is `chainOfText`; it is total on the
chains of a derived scope. Cancellation is left out.
-/

namespace Handleplan.PriceService

open JsString Sorting

/-! ### Snapshots -/

/-- `PlanningEvidenceProductIdentity`. -/
structure PlanningEvidenceProductIdentity where
  canonicalProductId : JsString
  gtin : JsString
  deriving DecidableEq

/-- `PlanningEvidenceSnapshot`. -/
structure PlanningEvidenceSnapshot where
  products : List PlanningEvidenceProductIdentity
  sources : List ExactProductPlanApiEvidenceSource
  priceEvidence : List PriceEvidence
  historicalEligibleEvidenceIds : List JsString
  coverageChecks : List CoverageCheck

/-- `PublicOfficialOfferSnapshot`. -/
structure PublicOfficialOfferSnapshot where
  offers : List OfficialOffer
  sources : List ExactProductPlanApiEvidenceSource

/-- `PriceServiceErrorCode`. -/
inductive PriceServiceErrorCode where
  | invalidRequest | unavailable

/-- Whether a record that names an exact product and a source names a known product and source. -/
def RefersTo (canonicalIds sourceIds : List JsString) (productMatch : EvidenceProductMatch)
    (sourceId : JsString) : Prop :=
  (∃ id ∈ productMatch.exactProductId, id ∈ canonicalIds) ∧ sourceId ∈ sourceIds

instance (canonicalIds sourceIds : List JsString) (productMatch : EvidenceProductMatch)
    (sourceId : JsString) : Decidable (RefersTo canonicalIds sourceIds productMatch sourceId) :=
  inferInstanceAs (Decidable (_ ∧ _))

/-- `validatedSnapshot`: what it demands of a snapshot. -/
@[mk_iff] structure ValidatedSnapshot (gtins : List JsString) (snapshot : PlanningEvidenceSnapshot) :
    Prop where
  uniqueProducts : (snapshot.products.map (·.gtin)).Nodup
  uniqueSources : (snapshot.sources.map (·.id)).Nodup
  requested : sortBy compareText gtins = sortBy compareText (snapshot.products.map (·.gtin))
  sources : ∀ source ∈ snapshot.sources, ExactProductPlanApiEvidenceSourceSchema source
  uniquePrices : (snapshot.priceEvidence.map (·.id)).Nodup
  uniqueHistory : snapshot.historicalEligibleEvidenceIds.Nodup
  history : ∀ id ∈ snapshot.historicalEligibleEvidenceIds, id ∈ snapshot.priceEvidence.map (·.id)
  priceEvidence : ∀ evidence ∈ snapshot.priceEvidence, PriceEvidenceSchema evidence ∧
    RefersTo (snapshot.products.map (·.canonicalProductId)) (snapshot.sources.map (·.id))
      evidence.productMatch evidence.sourceId
  uniqueChecks : (snapshot.coverageChecks.map (·.id)).Nodup
  coverageChecks : ∀ check ∈ snapshot.coverageChecks, CoverageCheckSchema check ∧
    check.canonicalProductId ∈ snapshot.products.map (·.canonicalProductId) ∧
    check.sourceId ∈ snapshot.sources.map (·.id)

instance (gtins : List JsString) : DecidablePred (ValidatedSnapshot gtins) :=
  fun _ => decidable_of_iff' _ (validatedSnapshot_iff _ _)

/-- `validatedOfficialOfferSnapshot`: what it demands of a snapshot. -/
@[mk_iff] structure ValidatedOfficialOfferSnapshot (host : Host) (canonicalProductIds : List JsString)
    (snapshot : PublicOfficialOfferSnapshot) : Prop where
  length_offers : snapshot.offers.length ≤ 500
  uniqueOffers : (snapshot.offers.map (·.id)).Nodup
  uniqueSources : (snapshot.sources.map (·.id)).Nodup
  sources : ∀ source ∈ snapshot.sources,
    ExactProductPlanApiEvidenceSourceSchema source ∧ source.sourceClass = .offer
  offers : ∀ offer ∈ snapshot.offers, OfficialOfferSchema host offer ∧
    RefersTo canonicalProductIds (snapshot.sources.map (·.id)) offer.productMatch offer.sourceId
  perProduct : ∀ offer ∈ snapshot.offers,
    snapshot.offers.countP (fun other => other.productMatch = offer.productMatch) ≤ 50
  referenced : ∀ source ∈ snapshot.sources, source.id ∈ snapshot.offers.map (·.sourceId)

instance (host : Host) (canonicalProductIds : List JsString) :
    DecidablePred (ValidatedOfficialOfferSnapshot host canonicalProductIds) :=
  fun _ => decidable_of_iff' _ (validatedOfficialOfferSnapshot_iff _ _ _)

/-! ### Offers -/

/-- The chain an identifier names. -/
def chainOfText (text : JsString) : Option Chain := chainOrder.find? fun chain => chain.text = text

/-- The order of the offers of a product: by end, then by identifier. -/
def compareOffersByEnd : OfficialOffer → OfficialOffer → Ordering :=
  compareLex (compareOn (·.applicability.endsAt)) (on (·.id) compareText)

/-- The offers of a snapshot that apply in a market, whoever is a member of what. -/
def applicableOffers (host : Host) (snapshot : PublicOfficialOfferSnapshot)
    (location : GeographicContext) (geographicDirectory : Option GeographicDirectoryEvidence)
    (at_ : ℤ) : List OfficialOffer :=
  snapshot.offers.filter fun candidate =>
    (parseApplicableOfficialOffer host candidate
      { channel := .inStore
        enabledMembershipProgramIds := requiredMemberships candidate
        enabledSourceIds := sortBy compareText (snapshot.sources.map (·.id))
        geographicDirectory := geographicDirectory
        location := location
        maxEvidenceAgeMs := exactProductOfferMaxAgeMs
        now := at_ }).toBool

/-- The entry of `applicableOffersByProduct` for a product. -/
def applicableOffersByProduct (host : Host) (snapshot : PublicOfficialOfferSnapshot)
    (location : GeographicContext) (geographicDirectory : Option GeographicDirectoryEvidence)
    (at_ : ℤ) (canonicalProductId : JsString) : List OfficialOffer :=
  sortBy compareOffersByEnd
    ((selectOfficialOffersAtHighestGeographicSpecificity host
      (applicableOffers host snapshot location geographicDirectory at_) location
      geographicDirectory).filter fun offer => offer.exactProductId = some canonicalProductId)

/-! ### The evidence of a need -/

/-- A value that has to be there. -/
def available {α : Type} : Option α → Except PriceServiceErrorCode α
  | some a => .ok a
  | none => .error .unavailable

/-- The context prices are judged in. -/
def priceContext (snapshot : PlanningEvidenceSnapshot) (location : GeographicContext)
    (geographicDirectory : Option GeographicDirectoryEvidence) (at_ : ℤ) :
    PriceEvidenceEligibilityContext where
  enabledSourceIds := sortBy compareText (snapshot.sources.map (·.id))
  geographicDirectory := geographicDirectory
  location := location
  maxAgeMs := exactProductPriceMaxAgeMs
  now := at_

/-- The comparison of a current price with the history of its product. -/
def historicalComparison (host : Host) (snapshot : PlanningEvidenceSnapshot)
    (location : GeographicContext) (geographicDirectory : Option GeographicDirectoryEvidence)
    (at_ : ℤ) (productHistoricalEvidence : List PriceEvidence) (current : PriceEvidence) :
    Option HistoricalComparison :=
  deriveHistoricalComparison host (js "history:" ++ current.id) current productHistoricalEvidence
    at_
    { currentMaxAgeMs := exactProductPriceMaxAgeMs
      enabledSourceIds := sortBy compareText (snapshot.sources.map (·.id))
      location := location
      geographicDirectory := geographicDirectory }

/-- The evidence of one need, from the two snapshots. -/
def needEvidence (host : Host) (snapshot : PlanningEvidenceSnapshot)
    (offers : PublicOfficialOfferSnapshot) (location : GeographicContext)
    (geographicDirectory : Option GeographicDirectoryEvidence) (at_ : ℤ)
    (need : ExactProductPlanApiNeed) :
    Except PriceServiceErrorCode ExactProductPlanApiNeedEvidence := do
  let product ← available (byId (·.gtin) snapshot.products need.gtin)
  let productEvidence := snapshot.priceEvidence.filter fun evidence =>
    evidence.productMatch.exactProductId = some product.canonicalProductId
  let comparisonScope ← available (deriveComparisonScope product.canonicalProductId
    (chainOrder.map Chain.text) productEvidence
    (snapshot.coverageChecks.filter fun check =>
      check.canonicalProductId = product.canonicalProductId)
    (priceContext snapshot location geographicDirectory at_))
  let ordinaryPrices ← available
    (comparisonScope.pricedIds.mapM (byId (·.id) snapshot.priceEvidence))
  let excludedPriceEvidence ← available
    (comparisonScope.excludedIds.mapM (byId (·.id) snapshot.priceEvidence))
  let historicalComparisons := ordinaryPrices.filterMap
    (historicalComparison host snapshot location geographicDirectory at_
      (productEvidence.filter fun evidence =>
        evidence.id ∈ snapshot.historicalEligibleEvidenceIds))
  let historicalPriceEvidence ← available
    ((historicalComparisons.flatMap (·.sourceEvidenceIds)).mapM
      (byId (·.id) snapshot.priceEvidence))
  return {
    needId := need.id
    ordinaryPrices := ordinaryPrices
    historicalPriceEvidence :=
      (JsMap.ofEntries (historicalPriceEvidence.map fun evidence => (evidence.id, evidence))).values
    excludedPriceEvidence := excludedPriceEvidence
    officialOffers := applicableOffersByProduct host offers location geographicDirectory at_
      product.canonicalProductId
    historicalComparisons := historicalComparisons
    comparisonScope := comparisonScope }

/-! ### Sources and prices -/

/-- The sources the evidence of a need refers to, in order of reference. -/
def sourceIdsReferencedBy (entry : ExactProductPlanApiNeedEvidence) : List JsString :=
  entry.ordinaryPrices.map (·.sourceId) ++ entry.historicalPriceEvidence.map (·.sourceId) ++
    entry.excludedPriceEvidence.map (·.sourceId) ++ entry.officialOffers.map (·.sourceId) ++
    entry.comparisonScope.entries.filterMap (·.status.notCarriedSourceId)

/-- `mergeSource`: a source is set unless another source has its identifier. -/
def mergeSource (sources : JsMap JsString ExactProductPlanApiEvidenceSource)
    (source : ExactProductPlanApiEvidenceSource) :
    Except PriceServiceErrorCode (JsMap JsString ExactProductPlanApiEvidenceSource) :=
  available (sources.setUnlessOther source.id source)

/-- The observation the planner is handed for a price of a product. -/
def priceObservation (gtin : JsString) (evidence : PriceEvidence) :
    Except PriceServiceErrorCode PriceObservation := do
  let chain ← available (chainOfText evidence.chainId)
  return {
    ean := gtin
    chain := chain
    amountOre := evidence.amountOre
    observedAt := evidence.observedAt
    source := evidence.sourceId }

/-- The planner prices after one more observation: one for each product and chain. -/
def addPlannerPrice (prices : JsMap (JsString × Chain) PriceObservation)
    (observation : PriceObservation) :
    Except PriceServiceErrorCode (JsMap (JsString × Chain) PriceObservation) :=
  available (prices.setUnlessOther (observation.ean, observation.chain) observation)

/-- The observations of the ordinary prices of a need. -/
def needObservations (entry : ExactProductPlanApiNeed × ExactProductPlanApiNeedEvidence) :
    Except PriceServiceErrorCode (List PriceObservation) :=
  entry.2.ordinaryPrices.mapM (priceObservation entry.1.gtin)

/-! ### The service -/

/-- `ExactPriceServiceResult`. -/
structure ExactPriceServiceResult where
  evidence : ExactProductPlanApiEvidenceEnvelope
  geographicDirectory : Option GeographicDirectoryEvidence
  prices : List PriceObservation
  products : List PlanningEvidenceProductIdentity
  deriving DecidableEq

/-- The directory evidence the service goes by: `none` stands for a missing reader. -/
def directoryEvidence (read : Option GeographicDirectoryEvidence) : GeographicDirectoryEvidence :=
  match read with
  | none => .unknown (js "postal-directory-unavailable")
  | some evidence =>
    if GeographicDirectoryEvidenceSchema evidence then evidence
    else .unknown (js "invalid-postal-directory")

/-- `requestedExactGtins`: the distinct GTINs of a request in text order. -/
def requestedExactGtins (request : ExactProductPlanApiRequest) : List JsString :=
  sortBy compareText (request.needs.map (·.gtin)).dedup

/-- `readExact`, on the answers of its readers. -/
def readExact (host : Host) (request : ExactProductPlanApiRequest)
    (snapshot : PlanningEvidenceSnapshot) (directory : Option GeographicDirectoryEvidence)
    (offers : PublicOfficialOfferSnapshot) (at_ : ℤ) :
    Except PriceServiceErrorCode ExactPriceServiceResult := do
  if ¬ ExactProductPlanApiRequestSchema host request then .error .invalidRequest
  if ¬ ValidatedSnapshot (requestedExactGtins request) snapshot then .error .unavailable
  if ¬ ValidatedOfficialOfferSnapshot host (snapshot.products.map (·.canonicalProductId)) offers then
    .error .unavailable
  let geographicDirectory := some (directoryEvidence directory)
  let location := marketContextToGeographicContext request.marketContext
  let entries ← request.needs.mapM
    (needEvidence host snapshot offers location geographicDirectory at_)
  let observations ← (request.needs.zip entries).mapM needObservations
  let plannerPrices ← observations.flatten.foldlM addPlannerPrice []
  let needs := sortBy (on (·.needId) compareText) entries
  let sourceById ← (snapshot.sources ++ offers.sources).foldlM mergeSource []
  let sources ← available
    ((sortBy compareText (needs.flatMap sourceIdsReferencedBy).dedup).mapM sourceById.get?)
  let evidence : ExactProductPlanApiEvidenceEnvelope :=
    { sources := sources
      needs := needs
      assignmentEvidence := [] }
  if ¬ ExactProductPlanApiEvidenceEnvelopeSchema host evidence then .error .unavailable
  return {
    evidence := evidence
    geographicDirectory := geographicDirectory
    prices := sortBy (compareLex (on (·.ean) compareText)
      (on (·.chain.text) compareText)) plannerPrices.values
    products := sortBy (on (·.gtin) compareText) snapshot.products }

end Handleplan.PriceService
