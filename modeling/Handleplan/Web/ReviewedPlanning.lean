import Handleplan.Domain.ReviewedFamilyContracts
import Handleplan.Web.PlanService

/-!
# The planner input of a reviewed request

A request that mixes exact products with reviewed families is planned over the union of the exact
products and of the candidates of its families. The service has the candidates inspected, checks
that they are the ones the user confirmed, reads the catalogue and the prices of the union, and
writes candidate membership as product families and match rules of the second planner.

## Main definitions

* `PlanService.ReviewedAnswers` — what the gateways of the service answer.
* `PlanService.mixedPlannerInput` — the input of the planner.
* `PlanService.calculateReviewed` — the service up to that input.

## Implementation notes

A gateway that throws answers `none`. The names of the errors are those of their codes. Cancellation
is left out.
-/

namespace Handleplan.PlanService

open JsString Sorting PriceService

/-! ### Records -/

/-- The errors of the service: the codes of `ReviewedFamilyPlanError` and of
`FamilyCandidateServiceError`, and the errors without a code. -/
inductive PlanServiceError where
  | invalidRequest | ambiguousFamilySelection | candidateConfirmationStale
  | evidenceUnavailable | ambiguousFamilyMembership | candidateSetTooLarge
  | catalogUnavailable | unknownExactProduct | priceDataUnavailable

/-- An entry of `productEvidence`, with what the planner input is made of. -/
structure ProductPriceEvidence where
  gtin : JsString
  canonicalProductId : JsString
  officialOffers : List OfficialOffer

/-- `ProductPriceServiceResult`. -/
structure ProductPriceServiceResult where
  geographicDirectory : Option GeographicDirectoryEvidence
  productEvidence : List ProductPriceEvidence
  prices : List PriceObservation
  products : List PlanningEvidenceProductIdentity
  sources : List ExactProductPlanApiEvidenceSource

/-- `ReviewedFamilyNeedMatchV2`. -/
inductive ReviewedFamilyNeedMatch where
  | exactProduct (needId : JsString) (candidateProductIds : List JsString)
  | reviewedFamily (needId : JsString) (candidates : ReviewedFamilyCandidateSet)

/-- `needId` of a match. -/
def ReviewedFamilyNeedMatch.needId : ReviewedFamilyNeedMatch → JsString
  | .exactProduct needId _ => needId
  | .reviewedFamily needId _ => needId

/-- `candidateProductIds` of a match. -/
def ReviewedFamilyNeedMatch.candidateProductIds : ReviewedFamilyNeedMatch → List JsString
  | .exactProduct _ candidateProductIds => candidateProductIds
  | .reviewedFamily _ candidates => candidates.candidateProductIds

/-- What the gateways answer. -/
structure ReviewedAnswers where
  inspection : Option ReviewedFamilyCandidateInspectionResponse
  catalog : Option (List ExactProductPlanApiProductSummary)
  prices : Option ProductPriceServiceResult

/-- A value that has to be there. -/
def require {α : Type} (error : PlanServiceError) : Option α → Except PlanServiceError α
  | some a => .ok a
  | none => .error error

/-! ### Selections -/

/-- `familySelectionIdentity`. -/
def familySelectionIdentity (m : ReviewedFamilyMatch) :
    Option (List JsString) × JsString × JsString × JsString :=
  (m.allowedBrands, m.candidateSetId, m.familyId, m.taxonomyVersionId)

/-- The selections after one more need: one for each family. -/
def addFamilySelection (byFamilyId : JsMap JsString ReviewedFamilyMatch)
    (m : ReviewedFamilyMatch) : Except PlanServiceError (JsMap JsString ReviewedFamilyMatch) :=
  match byFamilyId.get? m.familyId with
  | none => .ok (JsMap.set byFamilyId m.familyId m)
  | some previous =>
    if familySelectionIdentity previous ≠ familySelectionIdentity m then
      .error .ambiguousFamilySelection
    else .ok (JsMap.set byFamilyId m.familyId m)

/-- `uniqueFamilySelections`. -/
def uniqueFamilySelections (request : ReviewedFamilyPlanApiRequestV2) :
    Except PlanServiceError (List ReviewedFamilyMatch) := do
  let byFamilyId ← request.familyMatches.foldlM addFamilySelection []
  return sortBy (on (·.familyId) compareText) byFamilyId.values

/-- `candidateInspectionRequest`. -/
def candidateInspectionRequest (selections : List ReviewedFamilyMatch) : List CandidateSelection :=
  selections.map fun m => { familyId := m.familyId, allowedBrands := m.allowedBrands }

/-- `inspectedCandidateSetByFamily.get`. -/
def inspectedCandidateSetByFamily (inspection : ReviewedFamilyCandidateInspectionResponse)
    (familyId : JsString) : Option ReviewedFamilyCandidateSet :=
  byId (·.familyId) inspection.candidateSets familyId

/-- The inspection of the selections, when it answers their request at the instant. -/
def validatedInspection (host : Host) (inspectionRequest : List CandidateSelection)
    (evaluatedAt : ℤ) (answer : Option ReviewedFamilyCandidateInspectionResponse) :
    Except PlanServiceError ReviewedFamilyCandidateInspectionResponse := do
  let inspection ← require .evidenceUnavailable answer
  if ¬ CandidateInspectionRequestSchema host inspectionRequest ∨
      ¬ ReviewedFamilyCandidateInspectionResponseSchemaFor host inspectionRequest inspection ∨
      inspection.generatedAt ≠ evaluatedAt then
    .error .evidenceUnavailable
  else .ok inspection

/-- Whether an inspection still finds the candidates of a confirmed selection. -/
def IsConfirmed (inspection : ReviewedFamilyCandidateInspectionResponse)
    (selection : ReviewedFamilyMatch) : Prop :=
  ∃ current ∈ inspectedCandidateSetByFamily inspection selection.familyId,
    current.candidateSetId = selection.candidateSetId ∧
      current.taxonomyVersionId = selection.taxonomyVersionId ∧
      current.taxonomyVersionId = inspection.taxonomy.versionId ∧
      current.allowedBrands = selection.allowedBrands

instance (inspection : ReviewedFamilyCandidateInspectionResponse) :
    DecidablePred (IsConfirmed inspection) :=
  fun _ => inferInstanceAs (Decidable (∃ _ ∈ _, _))

/-! ### Exact products -/

/-- `exactCatalogGtins`. -/
def exactCatalogGtins (request : ReviewedFamilyPlanApiRequestV2) : List JsString :=
  canonicalStrings (request.needs.filterMap (·.needMatch.gtin?))

/-- `summariesExactlyCover`. -/
def SummariesExactlyCover (gtins : List JsString)
    (products : List ExactProductPlanApiProductSummary) : Prop :=
  products.map (·.gtin) = gtins

instance (gtins : List JsString) (products : List ExactProductPlanApiProductSummary) :
    Decidable (SummariesExactlyCover gtins products) := inferInstanceAs (Decidable (_ = _))

/-- The catalogue records of the exact products: none are read when no need is for one. -/
def exactCatalogProducts (gtins : List JsString) (evaluatedAt : ℤ)
    (answer : Option (List ExactProductPlanApiProductSummary)) :
    Except PlanServiceError (List ExactProductPlanApiProductSummary) := do
  if gtins = [] then return []
  let products ← require .catalogUnavailable answer
  if 50 < products.length ∨ ∃ product ∈ products, ¬ ExactProductPlanApiProductSummarySchema product
  then .error .catalogUnavailable
  if ∃ product ∈ products, ¬ HasCurrentCatalogEvidence evaluatedAt product then
    .error .catalogUnavailable
  if ¬ SummariesExactlyCover gtins products then .error .unknownExactProduct
  return products

/-! ### Prices and claims -/

/-- Add a value under a key, unless another value is there. -/
def addUnlessOther {α : Type} [DecidableEq α] (error : PlanServiceError) (key : α → JsString)
    (target : JsMap JsString α) (entry : α) : Except PlanServiceError (JsMap JsString α) :=
  require error (target.setUnlessOther (key entry) entry)

/-- The identities after one more: no canonical product has two GTINs. -/
def addIdentity (gtinByCanonicalId : JsMap JsString JsString)
    (identity : PlanningEvidenceProductIdentity) :
    Except PlanServiceError (JsMap JsString JsString) :=
  require .ambiguousFamilySelection
    (gtinByCanonicalId.setUnlessOther identity.canonicalProductId identity.gtin)

variable (priceResult : ProductPriceServiceResult)

/-- `identityByGtin.get`. -/
def identityByGtin (gtin : JsString) :
    Option PlanningEvidenceProductIdentity :=
  byId (·.gtin) (sortBy (on (·.gtin) compareText) priceResult.products) gtin

/-- `validatePriceUnion`: what it demands of the prices of a union of products. -/
def validatePriceUnion (gtins : List JsString) (priceResult : ProductPriceServiceResult) :
    Except PlanServiceError Unit := do
  let identities := sortBy (on (·.gtin) compareText) priceResult.products
  if identities.map (·.gtin) ≠ gtins then .error .priceDataUnavailable
  let _ ← identities.foldlM addIdentity []
  let evidence := sortBy (on (·.gtin) compareText) priceResult.productEvidence
  if evidence.map (·.gtin) ≠ gtins then .error .priceDataUnavailable
  if ∃ entry ∈ evidence, (identityByGtin priceResult entry.gtin).map (·.canonicalProductId) ≠
      some entry.canonicalProductId then
    .error .priceDataUnavailable

variable (claims : JsMap JsString ReviewedFamilyProductClaim)

/-- `addClaim`. -/
def addClaim (claim : ReviewedFamilyProductClaim) :
    Except PlanServiceError (JsMap JsString ReviewedFamilyProductClaim) :=
  addUnlessOther .catalogUnavailable (·.canonicalProductId) claims claim

/-- The claims after one of the inspection. -/
def addInspectedClaim (claim : ReviewedFamilyProductClaim) :
    Except PlanServiceError (JsMap JsString ReviewedFamilyProductClaim) := do
  if (identityByGtin priceResult claim.product.gtin).map (·.canonicalProductId) ≠
      some claim.canonicalProductId then
    .error .priceDataUnavailable
  addClaim claims claim

/-- The claims after an exact product. -/
def addExactClaim (product : ExactProductPlanApiProductSummary) :
    Except PlanServiceError (JsMap JsString ReviewedFamilyProductClaim) := do
  let identity ← require .priceDataUnavailable (identityByGtin priceResult product.gtin)
  addClaim claims { canonicalProductId := identity.canonicalProductId, product := product }

/-- `productClaimsForMixedPlan`. -/
def productClaimsForMixedPlan (exactProducts : List ExactProductPlanApiProductSummary)
    (inspection : ReviewedFamilyCandidateInspectionResponse)
    (priceResult : ProductPriceServiceResult) :
    Except PlanServiceError (List ReviewedFamilyProductClaim) := do
  let inspected ← inspection.productClaims.foldlM (addInspectedClaim priceResult) []
  let claims ← exactProducts.foldlM (addExactClaim priceResult) inspected
  return sortBy (on (·.canonicalProductId) compareText) claims.values

/-- The families after one more candidate: no product is a candidate of two families. -/
def addFamilyOfProduct (families : JsMap JsString JsString)
    (candidate : JsString × JsString) : Except PlanServiceError (JsMap JsString JsString) :=
  require .ambiguousFamilyMembership (families.setUnlessOther candidate.1 candidate.2)

variable (inspection : ReviewedFamilyCandidateInspectionResponse)

/-- The candidates of an inspection, each with its family. -/
def candidatesWithFamily :
    List (JsString × JsString) :=
  inspection.candidateSets.flatMap fun set =>
    set.candidateProductIds.map fun canonicalProductId => (canonicalProductId, set.familyId)

/-- `familyByCanonicalProduct`. -/
def familyByCanonicalProduct :
    Except PlanServiceError (JsMap JsString JsString) :=
  (candidatesWithFamily inspection).foldlM addFamilyOfProduct []

/-! ### Matches -/

/-- The match of one need. -/
def needMatchForMixedPlan (priceResult : ProductPriceServiceResult)
    (need : ReviewedFamilyPlanApiNeed) :
    Except PlanServiceError ReviewedFamilyNeedMatch :=
  match need.needMatch with
  | .exactProduct gtin => do
    let identity ← require .priceDataUnavailable (identityByGtin priceResult gtin)
    return .exactProduct need.id [identity.canonicalProductId]
  | .reviewedFamily selection => do
    let candidateSet ← require .evidenceUnavailable
      (inspectedCandidateSetByFamily inspection selection.familyId)
    return .reviewedFamily need.id candidateSet

/-- `needMatchesForMixedPlan`. -/
def needMatchesForMixedPlan (request : ReviewedFamilyPlanApiRequestV2)
    (inspection : ReviewedFamilyCandidateInspectionResponse)
    (priceResult : ProductPriceServiceResult) :
    Except PlanServiceError (List ReviewedFamilyNeedMatch) :=
  (sortBy (on (·.id) compareText) request.needs).mapM
    (needMatchForMixedPlan inspection priceResult)

/-! ### Planner input -/

/-- The match rule of a need. -/
def mixedMatchingRule (needMatches : List ReviewedFamilyNeedMatch)
    (need : ReviewedFamilyPlanApiNeed) : Except PlanServiceError MatchRule := do
  let _ ← require .priceDataUnavailable (byId (·.needId) needMatches need.id)
  match need.needMatch with
  | .exactProduct gtin =>
    return {
      id := need.id
      mode := .exact gtin
      explanation := js "Eksakt produkt valgt av brukeren" }
  | .reviewedFamily selection =>
    return {
      id := need.id
      mode := .flexible selection.familyId
      explanation := js "Serververifisert produktfamilie godkjent av brukeren" }

/-- The query of a need: the label of its family, or the name of its product. -/
def mixedQuery (productClaims : List ReviewedFamilyProductClaim) :
    ReviewedFamilyNeedMatch → Option JsString
  | .reviewedFamily _ candidates => some candidates.family.labelNo
  | .exactProduct _ candidateProductIds =>
    (candidateProductIds.head?.bind (byId (·.canonicalProductId) productClaims)).map
      (·.product.displayName)

/-- The planning need of a need. -/
def mixedPlanningNeed (needMatches : List ReviewedFamilyNeedMatch)
    (productClaims : List ReviewedFamilyProductClaim) (need : ReviewedFamilyPlanApiNeed) :
    Except PlanServiceError PlanningNeedV2 := do
  let needMatch ← require .priceDataUnavailable (byId (·.needId) needMatches need.id)
  let query ← require .catalogUnavailable (mixedQuery productClaims needMatch)
  return {
    id := need.id
    query := query
    requested := { amount := need.quantity, unit := requestedUnit need.quantityUnit }
    matchRuleId := need.id }

/-- The planning product of a claim: its family is the one it is a candidate of. -/
def mixedPlanningProduct (familyByProduct : JsMap JsString JsString)
    (claim : ReviewedFamilyProductClaim) : Except PlanServiceError PlanningProductV2 := do
  let packageMeasure ← require .unknownExactProduct claim.product.packageMeasure
  return {
    canonicalProductId := claim.canonicalProductId
    ean := claim.product.gtin
    name := claim.product.displayName
    brand := claim.product.brand
    packageMeasure := packageMeasure
    productFamily := familyByProduct.get? claim.canonicalProductId }

/-- `mixedPlannerInput`. -/
def mixedPlannerInput (request : ReviewedFamilyPlanApiRequestV2)
    (needMatches : List ReviewedFamilyNeedMatch) (productClaims : List ReviewedFamilyProductClaim)
    (familyByProduct : JsMap JsString JsString) (priceResult : ProductPriceServiceResult) :
    Except PlanServiceError ServerPlanningInputV2 := do
  let products ← productClaims.mapM (mixedPlanningProduct familyByProduct)
  let officialOffers ← (priceResult.productEvidence.flatMap (·.officialOffers)).foldlM
    (addUnlessOther .priceDataUnavailable (·.id)) []
  let matchingRules ← request.needs.mapM (mixedMatchingRule needMatches)
  let needs ← request.needs.mapM (mixedPlanningNeed needMatches productClaims)
  return {
    needs := needs
    matchingRules := matchingRules
    products := products
    ordinaryPrices := priceResult.prices
    officialOffers := sortBy (on (·.id) compareText) officialOffers.values
    offerEligibility :=
      { maxEvidenceAgeMs := exactProductOfferMaxAgeMs
        location := marketContextToGeographicContext request.marketContext
        channel := .inStore
        enabledSourceIds := canonicalStrings (priceResult.sources.map (·.id))
        enabledMembershipProgramIds := request.enabledMembershipProgramIds
        geographicDirectory := priceResult.geographicDirectory }
    maxStores := request.maxStores }

/-! ### The service -/

/-- What the service plans from. -/
structure ReviewedPlanning where
  inspection : ReviewedFamilyCandidateInspectionResponse
  needMatches : List ReviewedFamilyNeedMatch
  productClaims : List ReviewedFamilyProductClaim
  planningInput : ServerPlanningInputV2

/-- `calculateReviewed`, up to the input of the planner. -/
def calculateReviewed (host : Host) (request : ReviewedFamilyPlanApiRequestV2) (evaluatedAt : ℤ)
    (answers : ReviewedAnswers) : Except PlanServiceError ReviewedPlanning := do
  if ¬ ReviewedFamilyPlanApiRequestV2Schema host request then .error .invalidRequest
  let selections ← uniqueFamilySelections request
  let inspection ← validatedInspection host (candidateInspectionRequest selections) evaluatedAt
    answers.inspection
  if ∃ selection ∈ selections, ¬ IsConfirmed inspection selection then
    .error .candidateConfirmationStale
  let exactProducts ← exactCatalogProducts (exactCatalogGtins request) evaluatedAt answers.catalog
  let candidateGtins := inspection.productClaims.map (·.product.gtin)
  if ¬ candidateGtins.Nodup then .error .ambiguousFamilyMembership
  let gtins := canonicalStrings (candidateGtins ++ exactProducts.map (·.gtin))
  if 50 < gtins.length then .error .candidateSetTooLarge
  let priceResult ← require .priceDataUnavailable answers.prices
  validatePriceUnion gtins priceResult
  let productClaims ← productClaimsForMixedPlan exactProducts inspection priceResult
  if 50 < productClaims.length then .error .candidateSetTooLarge
  let familyByProduct ← familyByCanonicalProduct inspection
  let needMatches ← needMatchesForMixedPlan request inspection priceResult
  let planningInput ← mixedPlannerInput request needMatches productClaims familyByProduct
    priceResult
  return {
    inspection := inspection
    needMatches := needMatches
    productClaims := productClaims
    planningInput := planningInput }

end Handleplan.PlanService
