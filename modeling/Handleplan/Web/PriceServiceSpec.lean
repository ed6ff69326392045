import Handleplan.Web.PlanService

/-!
# What an exact price result says

A successful reading hands out, for each need, the offers of its product that apply in the market
and are the most specific of their chain, and the sources these refer to. The planner is given
exactly these offers.

## Main definitions

* `PriceService.ExactReading` — the steps of a successful reading.
* `PriceService.requestedProducts` — the products a request asks for.
* `PriceService.AppliesInMarket` — an offer applies in a market, whoever is a member.

## Main results

* `PriceService.mem_officialOffers_iff` — the offers the planner is given.
* `PriceService.applicable_planner_iff` — whether the planner can use one of them depends
  on the market, the clock and the memberships alone.
-/

namespace Handleplan.PriceService

open JsString Sorting PlanService

variable {host : Host}

/-! ### A successful reading -/

/-- The steps of a successful reading, with the evidence of the needs in the order of the request
and the sources by identifier. -/
structure ExactReading (host : Host) (request : ExactProductPlanApiRequest)
    (snapshot : PlanningEvidenceSnapshot) (directory : Option GeographicDirectoryEvidence)
    (offers : PublicOfficialOfferSnapshot) (at_ : ℤ) (result : ExactPriceServiceResult)
    (entries : List ExactProductPlanApiNeedEvidence)
    (sourceById : JsMap JsString ExactProductPlanApiEvidenceSource) : Prop where
  validRequest : ExactProductPlanApiRequestSchema host request
  validSnapshot : ValidatedSnapshot (requestedExactGtins request) snapshot
  validOffers : ValidatedOfficialOfferSnapshot host (snapshot.products.map (·.canonicalProductId))
    offers
  evidenceOf : List.Forall₂ (fun need entry => needEvidence host snapshot offers
    (marketContextToGeographicContext request.marketContext) (some (directoryEvidence directory))
    at_ need = .ok entry) request.needs entries
  merged : (snapshot.sources ++ offers.sources).foldlM mergeSource [] = .ok sourceById
  needs : result.evidence.needs = sortBy (on (·.needId) compareText) entries
  sources : (sortBy compareText (result.evidence.needs.flatMap sourceIdsReferencedBy).dedup).mapM
    sourceById.get? = some result.evidence.sources
  directoryRead : result.geographicDirectory = some (directoryEvidence directory)
  validEvidence : ExactProductPlanApiEvidenceEnvelopeSchema host result.evidence

theorem available_eq_ok_iff {α : Type} {value : Option α} {a : α} :
    available value = .ok a ↔ value = some a := by
  cases value <;> simp [available]

section Reading

variable {request : ExactProductPlanApiRequest} {snapshot : PlanningEvidenceSnapshot}
  {directory : Option GeographicDirectoryEvidence} {offers : PublicOfficialOfferSnapshot} {at_ : ℤ}
  {result : ExactPriceServiceResult} {entries : List ExactProductPlanApiNeedEvidence}
  {sourceById : JsMap JsString ExactProductPlanApiEvidenceSource}

theorem exists_exactReading
    (h : readExact host request snapshot directory offers at_ = .ok result) :
    ∃ entries sourceById,
      ExactReading host request snapshot directory offers at_ result entries sourceById := by
  simp only [readExact, ite_error_bind_eq_ok_iff, bind_eq_ok_iff, not_not, available_eq_ok_iff]
    at h
  obtain ⟨hrequest, hsnapshot, hoffers, entries, hentries, observations, -, prices, -, sourceById,
    hmerged, sources, hsources, henvelope, heq⟩ := h
  cases heq
  exact ⟨entries, sourceById, hrequest, hsnapshot, hoffers, Choices.mapM_eq_ok_iff.mp hentries,
    hmerged, rfl, hsources, rfl, henvelope⟩

variable {entry : ExactProductPlanApiNeedEvidence}

/-- The offers in the evidence of a need are those of its product. -/
theorem officialOffers_of_needEvidence {location : GeographicContext}
    {geographicDirectory : Option GeographicDirectoryEvidence} {need : ExactProductPlanApiNeed}
    (h : needEvidence host snapshot offers location geographicDirectory at_ need = .ok entry) :
    ∃ product, byId (·.gtin) snapshot.products need.gtin = some product ∧
      entry.officialOffers = applicableOffersByProduct host offers location geographicDirectory at_
        product.canonicalProductId := by
  simp only [needEvidence, bind_eq_ok_iff, available_eq_ok_iff] at h
  obtain ⟨product, hproduct, _, -, _, -, _, -, _, -, heq⟩ := h
  cases heq
  exact ⟨product, hproduct, rfl⟩

/-! ### Sources -/

/-- What sources are merged into is filed under their identifiers. -/
theorem id_of_mem_foldlM_mergeSource {sources : List ExactProductPlanApiEvidenceSource}
    {before after : JsMap JsString ExactProductPlanApiEvidenceSource}
    (hbefore : ∀ e ∈ before, e.2.id = e.1) (h : sources.foldlM mergeSource before = .ok after) :
    ∀ e ∈ after, e.2.id = e.1 := by
  induction sources generalizing before with
  | nil =>
    rw [List.foldlM_nil] at h
    cases h
    exact hbefore
  | cons source sources ih =>
    rw [List.foldlM_cons, bind_eq_ok_iff] at h
    obtain ⟨next, hnext, h⟩ := h
    refine ih (fun e he => ?_) h
    rw [mergeSource, available_eq_ok_iff, JsMap.setUnlessOther, Option.ite_none_left_eq_some]
      at hnext
    obtain ⟨-, heq⟩ := hnext
    cases heq
    obtain rfl | he := JsMap.mem_set he
    · rfl
    · exact hbefore e he

variable (h : ExactReading host request snapshot directory offers at_ result entries sourceById)

include h

/-- The needs handed out are those that have been read. -/
theorem ExactReading.mem_needs_iff : entry ∈ result.evidence.needs ↔ entry ∈ entries := by
  rw [h.needs, mem_sortBy]

/-- Each offer handed out has its source among the sources handed out. -/
theorem ExactReading.sourceId_mem (hentry : entry ∈ result.evidence.needs)
    {offer : OfficialOffer} (hoffer : offer ∈ entry.officialOffers) :
    offer.sourceId ∈ result.evidence.sources.map (·.id) := by
  have hreferenced : offer.sourceId ∈ sortBy compareText
      (result.evidence.needs.flatMap sourceIdsReferencedBy).dedup := by
    rw [mem_sortBy, List.mem_dedup, List.mem_flatMap]
    refine ⟨entry, hentry, ?_⟩
    unfold sourceIdsReferencedBy
    exact List.mem_append_left _ (List.mem_append_right _ (List.mem_map_of_mem hoffer))
  obtain ⟨source, hsource, hget⟩ :=
    Choices.exists_choice_of_forall₂ (Choices.mapM_eq_some_iff.mp h.sources) hreferenced
  have hid := id_of_mem_foldlM_mergeSource (by simp) h.merged _ (JsMap.mem_of_get? hget)
  exact List.mem_map.mpr ⟨source, hsource, hid⟩

end Reading

/-! ### Applicability in a market -/

section Market

/-- The context in which an offer is judged on a market by the members of some programs, its own
source being enabled. -/
def marketOfferContext (location : GeographicContext)
    (geographicDirectory : Option GeographicDirectoryEvidence) (at_ : ℤ)
    (enabledMembershipProgramIds : List JsString) (offer : OfficialOffer) :
    OfficialOfferEvaluationContext where
  now := at_
  maxEvidenceAgeMs := exactProductOfferMaxAgeMs
  location := location
  channel := .inStore
  enabledSourceIds := [offer.sourceId]
  enabledMembershipProgramIds := enabledMembershipProgramIds
  geographicDirectory := geographicDirectory

variable (host) in
/-- An offer applies on a market for the members of some programs. -/
def AppliesFor (location : GeographicContext)
    (geographicDirectory : Option GeographicDirectoryEvidence) (at_ : ℤ)
    (enabledMembershipProgramIds : List JsString) (offer : OfficialOffer) : Prop :=
  Applicable host offer
    (marketOfferContext location geographicDirectory at_ enabledMembershipProgramIds offer)

variable (host) in
/-- An offer applies on a market, whoever is a member of what. -/
def AppliesInMarket (location : GeographicContext)
    (geographicDirectory : Option GeographicDirectoryEvidence) (at_ : ℤ) (offer : OfficialOffer) :
    Prop :=
  AppliesFor host location geographicDirectory at_ (requiredMemberships offer) offer

variable {location : GeographicContext} {geographicDirectory : Option GeographicDirectoryEvidence}
  {at_ : ℤ} {memberships : List JsString} {offer : OfficialOffer}

/-- Where the source of an offer is enabled, no other source matters. -/
theorem applicable_iff_of_sourceId_mem {context : OfficialOfferEvaluationContext}
    (h : offer.sourceId ∈ context.enabledSourceIds) : Applicable host offer context ↔
      Applicable host offer { context with enabledSourceIds := [offer.sourceId] } :=
  ⟨fun happlies => { happlies with enabled := List.mem_singleton_self _ },
    fun happlies => { happlies with enabled := h }⟩

/-- An offer that applies on a market is of a group. -/
theorem AppliesInMarket.exists_offerGroup
    (h : AppliesInMarket host location geographicDirectory at_ offer) :
    ∃ key specificity,
      offerGroup host location geographicDirectory offer = some (key, specificity) := by
  obtain ⟨canonicalProductId, hproduct⟩ := Option.ne_none_iff_exists'.mp h.exact
  obtain ⟨specificity, hspecificity⟩ := Option.ne_none_iff_exists'.mp h.scope
  exact ⟨_, specificity, offerGroup_eq_some_iff.mpr
    ⟨h.schema, ⟨canonicalProductId, hproduct, rfl⟩, hspecificity⟩⟩

variable (host) in
/-- An offer applies on a market, and no other offer that does so is more specific among those of
its product and chain. -/
def MostSpecific (location : GeographicContext)
    (geographicDirectory : Option GeographicDirectoryEvidence) (at_ : ℤ)
    (offers : List OfficialOffer) (offer : OfficialOffer) : Prop :=
  offer ∈ offers ∧ AppliesInMarket host location geographicDirectory at_ offer ∧
    ∀ key specificity, offerGroup host location geographicDirectory offer = some (key, specificity) →
      ∀ other ∈ offers, AppliesInMarket host location geographicDirectory at_ other →
        ∀ s, offerGroup host location geographicDirectory other = some (key, s) → s ≤ specificity

variable {canonicalProductIds : List JsString} {offers : PublicOfficialOfferSnapshot}

/-- The offers of a snapshot that apply. -/
theorem mem_applicableOffers
    (hvalid : ValidatedOfficialOfferSnapshot host canonicalProductIds offers) :
    offer ∈ applicableOffers host offers location geographicDirectory at_ ↔
      offer ∈ offers.offers ∧ AppliesInMarket host location geographicDirectory at_ offer := by
  unfold applicableOffers
  rw [List.mem_filter]
  refine and_congr_right fun hmem => ?_
  have hsource : offer.sourceId ∈ sortBy compareText (offers.sources.map (·.id)) := by
    rw [mem_sortBy]
    exact (hvalid.offers offer hmem).2.2
  rw [toBool_parseApplicableOfficialOffer]
  exact applicable_iff_of_sourceId_mem hsource

/-- The offers of a product are the most specific of those that apply. -/
theorem mem_applicableOffersByProduct
    (hvalid : ValidatedOfficialOfferSnapshot host canonicalProductIds offers)
    {canonicalProductId : JsString} :
    offer ∈ applicableOffersByProduct host offers location geographicDirectory at_
        canonicalProductId ↔
      MostSpecific host location geographicDirectory at_ offers.offers offer ∧
        offer.exactProductId = some canonicalProductId := by
  unfold applicableOffersByProduct
  rw [mem_sortBy, List.mem_filter, decide_eq_true_eq]
  refine and_congr_left fun _ => ?_
  by_cases hlocation : GeographicContextSchema location
  · rw [mem_selectOfficialOffers hlocation, mem_applicableOffers hvalid, and_assoc]
    refine and_congr_right fun hmem => and_congr_right fun happlies => ?_
    constructor
    · rintro ⟨key, specificity, hgroup, hle⟩ key' specificity' hgroup' other hother hmarket s hs
      rw [hgroup] at hgroup'
      cases hgroup'
      exact hle other ((mem_applicableOffers hvalid).mpr ⟨hother, hmarket⟩) s hs
    · intro hle
      obtain ⟨key, specificity, hgroup⟩ := happlies.exists_offerGroup
      refine ⟨key, specificity, hgroup, fun other hother s hs => ?_⟩
      obtain ⟨hother, hmarket⟩ := (mem_applicableOffers hvalid).mp hother
      exact hle key specificity hgroup other hother hmarket s hs
  · simp only [selectOfficialOffersAtHighestGeographicSpecificity, hlocation, not_false_eq_true,
      if_true, List.not_mem_nil, false_iff]
    exact fun h => hlocation h.2.1.location

end Market

/-! ### The offers of the planner -/

/-- The products a request asks for. -/
def requestedProducts (request : ExactProductPlanApiRequest) (snapshot : PlanningEvidenceSnapshot) :
    List JsString :=
  request.needs.filterMap fun need =>
    (byId (·.gtin) snapshot.products need.gtin).map (·.canonicalProductId)

section Planner

variable {request : ExactProductPlanApiRequest} {snapshot : PlanningEvidenceSnapshot}
  {directory : Option GeographicDirectoryEvidence} {offers : PublicOfficialOfferSnapshot} {at_ : ℤ}
  {result : ExactPriceServiceResult} {entries : List ExactProductPlanApiNeedEvidence}
  {sourceById : JsMap JsString ExactProductPlanApiEvidenceSource}
  {products : List ExactProductPlanApiProductSummary} {input : ServerPlanningInputV2}
  {offer : OfficialOffer}

/-- What the planner is given of a price result. -/
theorem exactRequestAsPlannerV2Input_spec
    (h : exactRequestAsPlannerV2Input request products result = some input) :
    input.officialOffers =
        (JsMap.ofEntries ((result.evidence.needs.flatMap (·.officialOffers)).map
          fun offer => (offer.id, offer))).values ∧
      input.offerEligibility =
        { maxEvidenceAgeMs := exactProductOfferMaxAgeMs
          location := marketContextToGeographicContext request.marketContext
          channel := .inStore
          enabledSourceIds := result.evidence.sources.map (·.id)
          enabledMembershipProgramIds := request.enabledMembershipProgramIds
          geographicDirectory := result.geographicDirectory } := by
  unfold exactRequestAsPlannerV2Input at h
  split at h
  · cases h
  · rw [Option.ite_none_left_eq_some] at h
    obtain ⟨-, heq⟩ := h
    cases heq
    exact ⟨rfl, rfl⟩

variable (h : ExactReading host request snapshot directory offers at_ result entries sourceById)

include h

/-- The offers of the needs are the most specific of the requested products. -/
theorem ExactReading.mem_offers_iff :
    offer ∈ result.evidence.needs.flatMap (·.officialOffers) ↔
      MostSpecific host (marketContextToGeographicContext request.marketContext)
          (some (directoryEvidence directory)) at_ offers.offers offer ∧
        ∃ canonicalProductId ∈ requestedProducts request snapshot,
          offer.exactProductId = some canonicalProductId := by
  rw [List.mem_flatMap]
  constructor
  · rintro ⟨entry, hentry, hoffer⟩
    obtain ⟨need, hneed, hevidence⟩ :=
      Choices.exists_mem_of_forall₂ h.evidenceOf (h.mem_needs_iff.mp hentry)
    obtain ⟨product, hproduct, hoffers⟩ := officialOffers_of_needEvidence hevidence
    rw [hoffers] at hoffer
    obtain ⟨hspecific, hexact⟩ := (mem_applicableOffersByProduct h.validOffers).mp hoffer
    exact ⟨hspecific, product.canonicalProductId,
      List.mem_filterMap.mpr ⟨need, hneed, by rw [hproduct]; rfl⟩, hexact⟩
  · rintro ⟨hspecific, canonicalProductId, hrequested, hexact⟩
    obtain ⟨need, hneed, hid⟩ := List.mem_filterMap.mp hrequested
    obtain ⟨entry, hentry, hevidence⟩ := Choices.exists_choice_of_forall₂ h.evidenceOf hneed
    obtain ⟨product, hproduct, hoffers⟩ := officialOffers_of_needEvidence hevidence
    rw [hproduct] at hid
    cases hid
    refine ⟨entry, h.mem_needs_iff.mpr hentry, ?_⟩
    rw [hoffers]
    exact (mem_applicableOffersByProduct h.validOffers).mpr ⟨hspecific, hexact⟩

/-- **The planner is given** the most specific offers of the requested products. -/
theorem mem_officialOffers_iff
    (hinput : exactRequestAsPlannerV2Input request products result = some input) :
    offer ∈ input.officialOffers ↔
      MostSpecific host (marketContextToGeographicContext request.marketContext)
          (some (directoryEvidence directory)) at_ offers.offers offer ∧
        ∃ canonicalProductId ∈ requestedProducts request snapshot,
          offer.exactProductId = some canonicalProductId := by
  rw [(exactRequestAsPlannerV2Input_spec hinput).1, ← h.mem_offers_iff]
  constructor
  · intro hoffer
    obtain ⟨pre, post, heq, -⟩ := JsMap.mem_values_ofEntries_map.mp hoffer
    rw [heq]
    simp
  · intro hoffer
    obtain ⟨other, hother, hid⟩ := JsMap.exists_mem_values_ofEntries_map OfficialOffer.id hoffer
    obtain ⟨pre, post, heq, -⟩ := JsMap.mem_values_ofEntries_map.mp hother
    have hmem : other ∈ result.evidence.needs.flatMap (·.officialOffers) := by
      rw [heq]
      simp
    have hsame : other = offer :=
      List.inj_on_of_nodup_map h.validOffers.uniqueOffers (h.mem_offers_iff.mp hmem).1.1
        (h.mem_offers_iff.mp hoffer).1.1 hid
    exact hsame ▸ hother

/-- **Whether an offer of the planner applies** depends on the market, the clock and the memberships
of the request alone. -/
theorem applicable_planner_iff
    (hinput : exactRequestAsPlannerV2Input request products result = some input)
    (hoffer : offer ∈ input.officialOffers) :
    Applicable host offer (PlannerV2.offerContext input at_) ↔
      AppliesFor host (marketContextToGeographicContext request.marketContext)
        (some (directoryEvidence directory)) at_ request.enabledMembershipProgramIds offer := by
  obtain ⟨entry, hentry, hmem⟩ :=
    List.mem_flatMap.mp (h.mem_offers_iff.mpr ((mem_officialOffers_iff h hinput).mp hoffer))
  have hsource := h.sourceId_mem hentry hmem
  have hcontext := (exactRequestAsPlannerV2Input_spec hinput).2
  rw [applicable_iff_of_sourceId_mem (by rw [PlannerV2.offerContext, hcontext]; exact hsource),
    PlannerV2.offerContext, hcontext, h.directoryRead]
  rfl

end Planner

end Handleplan.PriceService
