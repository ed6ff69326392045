import Handleplan.Domain.PlannerV2Spec
import Handleplan.Web.PriceService

/-!
# The plan service

For an exact request the service hands the catalogue records and the price result to the second
planner, and attaches to plans the evidence of each of their assignments.

## Main definitions

* `PlanService.exactRequestAsPlannerV2Input` — the planner input of an exact request.
* `PlanService.attachAssignmentEvidence` — the evidence envelope of a list of plans.

## Implementation notes

The service catches every failure of these functions and answers that price data is unavailable, so
they return `none` where the source throws.
-/

namespace Handleplan.PlanService

open JsString Sorting PriceService

/-! ### Planner input -/

/-- The unit of a need as the planner names it. -/
def requestedUnit : QuantityUnit → MeasureUnit
  | .each => .package
  | .g => .g
  | .ml => .ml
  | .piece => .piece
  | .package => .package

/-- The match rule of an exact need. -/
def exactMatchingRule (need : ExactProductPlanApiNeed) : MatchRule where
  id := need.id
  mode := .exact need.gtin
  explanation := js "Eksakt produkt valgt av brukeren"

/-- The planning need of an exact need. -/
def exactPlanningNeed (products : List ExactProductPlanApiProductSummary)
    (need : ExactProductPlanApiNeed) : PlanningNeedV2 where
  id := need.id
  query := ((byId (·.gtin) products need.gtin).map (·.displayName)).getD need.gtin
  requested := { amount := need.quantity, unit := requestedUnit need.quantityUnit }
  matchRuleId := need.id

/-- The planning product of a catalogue record, when it has a measure and the price result knows
it. -/
def exactPlanningProduct (identities : List PlanningEvidenceProductIdentity)
    (product : ExactProductPlanApiProductSummary) : Option PlanningProductV2 :=
  match product.packageMeasure, byId (·.gtin) identities product.gtin with
  | some packageMeasure, some identity =>
    some
      { canonicalProductId := identity.canonicalProductId
        ean := product.gtin
        name := product.displayName
        brand := product.brand
        packageMeasure := packageMeasure
        productFamily := none }
  | _, _ => none

/-- `exactRequestAsPlannerV2Input`. -/
def exactRequestAsPlannerV2Input (request : ExactProductPlanApiRequest)
    (products : List ExactProductPlanApiProductSummary) (priceResult : ExactPriceServiceResult) :
    Option ServerPlanningInputV2 :=
  match products.mapM (exactPlanningProduct priceResult.products) with
  | none => none
  | some planningProducts =>
    if ∃ a ∈ planningProducts, ∃ b ∈ planningProducts,
        a.canonicalProductId = b.canonicalProductId ∧ a.ean ≠ b.ean then
      none
    else
      some
        { needs := request.needs.map (exactPlanningNeed products)
          matchingRules := request.needs.map exactMatchingRule
          products := planningProducts
          ordinaryPrices := priceResult.prices
          officialOffers :=
            (JsMap.ofEntries ((priceResult.evidence.needs.flatMap (·.officialOffers)).map
              fun offer => (offer.id, offer))).values
          offerEligibility :=
            { maxEvidenceAgeMs := exactProductOfferMaxAgeMs
              location := marketContextToGeographicContext request.marketContext
              channel := .inStore
              enabledSourceIds := priceResult.evidence.sources.map (·.id)
              enabledMembershipProgramIds := request.enabledMembershipProgramIds
              geographicDirectory := priceResult.geographicDirectory }
          maxStores := request.maxStores }

/-! ### Assignment evidence -/

/-- Whether a price is the ordinary price of an assignment. -/
def IsOrdinaryPriceOf (a : PlanAssignmentV2) (candidate : PriceEvidence) : Prop :=
  candidate.id ≠ [] ∧ candidate.chainId = a.chain.text ∧ candidate.sourceId = a.source ∧
    candidate.productMatch = .exact a.canonicalProductId

instance (a : PlanAssignmentV2) : DecidablePred (IsOrdinaryPriceOf a) :=
  fun _ => inferInstanceAs (Decidable (_ ∧ _ ∧ _ ∧ _))

/-- The ordinary price of an assignment in the evidence of its need. -/
def ordinaryPriceOf (evidence : ExactProductPlanApiEvidenceEnvelope) (a : PlanAssignmentV2) :
    Option PriceEvidence :=
  match byId (·.needId) evidence.needs a.needId with
  | none => none
  | some entry => entry.ordinaryPrices.find? fun candidate => IsOrdinaryPriceOf a candidate

/-- The conditions of an assignment. -/
def assignmentConditions (a : PlanAssignmentV2) : AssignmentConditions :=
  match a.checkout.appliedOfferId with
  | none => .ordinaryPrice
  | some offerId => .officialOffer offerId

/-- The reference from an assignment of a plan to its ordinary price. -/
def assignmentReference (evidence : ExactProductPlanApiEvidenceEnvelope)
    (assigned : PlanResultV2 × PlanAssignmentV2) : Option ExactProductPlanApiAssignmentEvidence :=
  match ordinaryPriceOf evidence assigned.2 with
  | none => none
  | some ordinary =>
    some
      { planId := assigned.1.id
        needId := assigned.2.needId
        chainId := assigned.2.chain
        evidenceId := ordinary.id
        conditions := assignmentConditions assigned.2 }

/-- The assignments of plans, each with its plan. -/
def assignmentsOf (plans : List PlanResultV2) : List (PlanResultV2 × PlanAssignmentV2) :=
  plans.flatMap fun plan => plan.assignments.map fun a => (plan, a)

/-- Add the source of a catalogue record, unless another source has its identifier. -/
def addCatalogSource (sources : JsMap JsString ExactProductPlanApiEvidenceSource)
    (product : ExactProductPlanApiProductSummary) :
    Option (JsMap JsString ExactProductPlanApiEvidenceSource) :=
  sources.setUnlessOther product.catalogEvidence.source.id product.catalogEvidence.source

/-- The sources of the evidence and of the catalogue records. -/
def mergedSources (sources : List ExactProductPlanApiEvidenceSource)
    (products : List ExactProductPlanApiProductSummary) :
    Option (JsMap JsString ExactProductPlanApiEvidenceSource) :=
  products.foldlM addCatalogSource
    (JsMap.ofEntries (sources.map fun source => (source.id, source)))

/-- `attachAssignmentEvidence`. -/
def attachAssignmentEvidence (host : Host) (evidence : ExactProductPlanApiEvidenceEnvelope)
    (plans : List PlanResultV2) (products : List ExactProductPlanApiProductSummary) :
    Option ExactProductPlanApiEvidenceEnvelope :=
  match (assignmentsOf plans).mapM (assignmentReference evidence),
    mergedSources evidence.sources products with
  | some assignmentEvidence, some sources =>
    let envelope : ExactProductPlanApiEvidenceEnvelope :=
      { evidence with
        assignmentEvidence := assignmentEvidence
        sources := sortBy (on (·.id) host.localeCompare) sources.values }
    if ExactProductPlanApiEvidenceEnvelopeSchema host envelope then some envelope else none
  | _, _ => none

end Handleplan.PlanService
