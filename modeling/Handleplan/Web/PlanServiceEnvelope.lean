import Handleplan.Web.PlanService

/-!
# When the complete candidate set fits the evidence envelope

The envelope of evidence was sized for the published plans, at most seven of at most fifty needs.
The plan service packs the evidence of every complete candidate into it as well, and answers that
price data is unavailable when it does not fit.

## Main definitions

* `PlanService.CompleteCandidates` — the complete candidates of a valid request,
  catalogue and price result, each assignment with its evidence.
* `PlanService.EnvelopeFits` — the bounds and the uniqueness the envelope demands.

## Main results

* `PlanService.exists_attach_iff` — evidence can be attached to plans exactly when the
  envelope fits.
* `PlanService.attachesCompleteSet_iff` — evidence is attached to the complete candidates
  of a request exactly when candidates times needs is at most 350 and the keys and sources fit.
-/

namespace Handleplan.PlanService

open JsString Sorting PriceService PlannerV2

variable {host : Host}

/-! ### Sources -/

/-- The sources of the evidence and of the catalogue records. -/
def declaredSources (evidence : ExactProductPlanApiEvidenceEnvelope)
    (products : List ExactProductPlanApiProductSummary) :
    List ExactProductPlanApiEvidenceSource :=
  evidence.sources ++ products.map (·.catalogEvidence.source)

/-- Sources with one identifier have one descriptor. -/
def DescriptorsAgree (sources : List ExactProductPlanApiEvidenceSource) : Prop :=
  ∀ a ∈ sources, ∀ b ∈ sources, a.id = b.id → a = b

instance : DecidablePred DescriptorsAgree :=
  fun sources => inferInstanceAs (Decidable (∀ a ∈ sources, ∀ b ∈ sources, a.id = b.id → a = b))

theorem functional_iff_descriptorsAgree (sources : List ExactProductPlanApiEvidenceSource) :
    JsMap.Functional (sources.map fun source => (source.id, source)) ↔
      DescriptorsAgree sources := by
  simp only [JsMap.Functional, DescriptorsAgree, List.forall_mem_map]

theorem descriptorsAgree_of_nodup {sources : List ExactProductPlanApiEvidenceSource}
    (h : (sources.map (·.id)).Nodup) : DescriptorsAgree sources :=
  fun _ ha _ hb => List.inj_on_of_nodup_map h ha hb

variable {evidence : ExactProductPlanApiEvidenceEnvelope}
  {products : List ExactProductPlanApiProductSummary} {plans : List PlanResultV2}
  {assigned : PlanResultV2 × PlanAssignmentV2}

/-- The sources of evidence and catalogue can be merged exactly when their descriptors agree. -/
theorem mergedSources_eq_some_iff {merged : JsMap JsString ExactProductPlanApiEvidenceSource}
    (h : (evidence.sources.map (·.id)).Nodup) :
    mergedSources evidence.sources products = some merged ↔
      DescriptorsAgree (declaredSources evidence products) ∧
        merged = JsMap.ofEntries ((declaredSources evidence products).map fun source =>
          (source.id, source)) := by
  have hpre := (functional_iff_descriptorsAgree _).mpr (descriptorsAgree_of_nodup h)
  have hfold : mergedSources evidence.sources products =
      (products.map fun product =>
        (product.catalogEvidence.source.id, product.catalogEvidence.source)).foldlM
        (fun m e => m.setUnlessOther e.1 e.2)
        (JsMap.ofEntries (evidence.sources.map fun source => (source.id, source))) := by
    rw [List.foldlM_map]
    rfl
  have happend : (evidence.sources.map fun source => (source.id, source)) ++
      (products.map fun product =>
        (product.catalogEvidence.source.id, product.catalogEvidence.source)) =
      (declaredSources evidence products).map fun source => (source.id, source) := by
    simp [declaredSources, List.map_map, Function.comp_def]
  rw [hfold, JsMap.foldlM_setUnlessOther hpre, happend, functional_iff_descriptorsAgree]

/-- The merged sources: one valid source for each declared identifier. -/
theorem values_declaredSources {sources : List ExactProductPlanApiEvidenceSource}
    (hevidence : ExactProductPlanApiEvidenceEnvelopeSchema host evidence)
    (hproducts : ∀ product ∈ products, ExactProductPlanApiProductSummarySchema product)
    (h : (JsMap.ofEntries ((declaredSources evidence products).map fun source =>
      (source.id, source))).values = sources) :
    sources.length = ((declaredSources evidence products).map (·.id)).dedup.length ∧
      (∀ source ∈ sources, ExactProductPlanApiEvidenceSourceSchema source) ∧
      (sources.map (·.id)).Nodup := by
  subst h
  have hentry : ∀ e ∈ JsMap.ofEntries ((declaredSources evidence products).map fun source =>
      (source.id, source)), e.2 ∈ declaredSources evidence products ∧ e.2.id = e.1 := by
    intro e he
    obtain ⟨source, hsource, rfl⟩ := List.mem_map.mp (JsMap.mem_of_mem_ofEntries he)
    exact ⟨hsource, rfl⟩
  refine ⟨?_, ?_, ?_⟩
  · simp only [JsMap.values, List.length_map, JsMap.length_ofEntries, List.map_map]
    rfl
  · intro source hsource
    obtain ⟨e, he, rfl⟩ := List.mem_map.mp hsource
    rcases List.mem_append.mp (hentry e he).1 with hmem | hmem
    · exact hevidence.sources _ hmem
    · obtain ⟨product, hproduct, heq⟩ := List.mem_map.mp hmem
      rw [← heq]
      exact (hproducts product hproduct).source
  · have hkeys : (JsMap.ofEntries ((declaredSources evidence products).map fun source =>
        (source.id, source))).values.map (·.id) =
        (JsMap.ofEntries ((declaredSources evidence products).map fun source =>
          (source.id, source))).keys := by
      simp only [JsMap.values, JsMap.keys, List.map_map]
      exact List.map_congr_left fun e he => (hentry e he).2
    rw [hkeys]
    exact JsMap.nodup_keys_ofEntries _

/-! ### References -/

/-- What tells the assignments of plans apart. -/
def assignmentKeys (plans : List PlanResultV2) : List (JsString × JsString × Chain) :=
  (assignmentsOf plans).map fun assigned => (assigned.1.id, assigned.2.needId, assigned.2.chain)

theorem mem_assignmentsOf :
    assigned ∈ assignmentsOf plans ↔
      assigned.1 ∈ plans ∧ assigned.2 ∈ assigned.1.assignments := by
  obtain ⟨plan, a⟩ := assigned
  simp only [assignmentsOf, List.mem_flatMap, List.mem_map, Prod.mk.injEq]
  constructor
  · rintro ⟨_, hplan, _, ha, rfl, rfl⟩
    exact ⟨hplan, ha⟩
  · rintro ⟨hplan, ha⟩
    exact ⟨plan, hplan, a, ha, rfl, rfl⟩

theorem assignmentReference_eq_some_iff {reference : ExactProductPlanApiAssignmentEvidence} :
    assignmentReference evidence assigned = some reference ↔
      ∃ ordinary, ordinaryPriceOf evidence assigned.2 = some ordinary ∧
        reference =
          { planId := assigned.1.id
            needId := assigned.2.needId
            chainId := assigned.2.chain
            evidenceId := ordinary.id
            conditions := assignmentConditions assigned.2 } := by
  unfold assignmentReference
  cases ordinaryPriceOf evidence assigned.2 <;> simp [eq_comm]

/-- The ordinary price of an assignment is an ordinary price of the evidence of its need. -/
theorem ordinaryPriceOf_spec {a : PlanAssignmentV2} {ordinary : PriceEvidence}
    (h : ordinaryPriceOf evidence a = some ordinary) :
    ∃ entry, byId (·.needId) evidence.needs a.needId = some entry ∧
      ordinary ∈ entry.ordinaryPrices ∧ IsOrdinaryPriceOf a ordinary := by
  unfold ordinaryPriceOf at h
  cases hentry : byId (·.needId) evidence.needs a.needId with
  | none => simp [hentry] at h
  | some entry =>
    rw [hentry] at h
    exact ⟨entry, rfl, List.mem_of_find?_eq_some h, by simpa using List.find?_some h⟩

/-- A reference from an assignment of a valid plan meets its schema. -/
theorem schema_of_assignmentReference {reference : ExactProductPlanApiAssignmentEvidence}
    (hevidence : ∀ entry ∈ evidence.needs, ExactProductPlanApiNeedEvidenceSchema host entry)
    (hplan : PlanResultV2Schema assigned.1) (ha : assigned.2 ∈ assigned.1.assignments)
    (h : assignmentReference evidence assigned = some reference) :
    ExactProductPlanApiAssignmentEvidenceSchema reference := by
  obtain ⟨ordinary, hordinary, rfl⟩ := assignmentReference_eq_some_iff.mp h
  obtain ⟨entry, hentry, hmem, -⟩ := ordinaryPriceOf_spec hordinary
  have hschema := hevidence entry (mem_of_byId_eq_some hentry).1
  have hassignment := hplan.assignments _ ha
  refine
    { planId := hplan.id
      needId := hassignment.needId
      evidenceId := (hschema.ordinaryPrices.2.1 ordinary hmem).id
      conditions := ?_ }
  have hoffer := hassignment.offer
  unfold assignmentConditions
  cases happlied : assigned.2.checkout.appliedOfferId with
  | none => trivial
  | some offerId =>
    rw [happlied] at hoffer
    obtain ⟨reference, hreference, rfl⟩ := Option.map_eq_some_iff.mp hoffer.symm
    exact (hassignment.officialOffer reference hreference).id

/-! ### The envelope -/

/-- The bounds and the uniqueness the envelope demands of plans and sources. -/
@[mk_iff] structure EnvelopeFits (evidence : ExactProductPlanApiEvidenceEnvelope)
    (plans : List PlanResultV2) (products : List ExactProductPlanApiProductSummary) : Prop where
  assignments : (assignmentsOf plans).length ≤ 350
  references : (assignmentKeys plans).Nodup
  descriptors : DescriptorsAgree (declaredSources evidence products)
  sources : ((declaredSources evidence products).map (·.id)).dedup.length ≤ 100

/-- The keys of references are unique exactly when the assignments are told apart. -/
theorem nodup_keys_iff {references : List ExactProductPlanApiAssignmentEvidence}
    (hids : ∀ plan ∈ plans, (0 : UInt16) ∉ plan.id)
    (h : List.Forall₂ (fun assigned reference =>
      assignmentReference evidence assigned = some reference) (assignmentsOf plans) references) :
    (references.map (·.key)).Nodup ↔ (assignmentKeys plans).Nodup := by
  have hkeys : references.map (·.key) = (assignmentKeys plans).map fun key =>
      referenceKey key.1 key.2.1 key.2.2 := by
    rw [assignmentKeys, List.map_map]
    refine (Choices.map_eq_map_of_forall₂ h fun assigned reference href => ?_).symm
    obtain ⟨ordinary, -, rfl⟩ := assignmentReference_eq_some_iff.mp href
    rfl
  have hinj : ∀ k ∈ assignmentKeys plans, ∀ k' ∈ assignmentKeys plans,
      referenceKey k.1 k.2.1 k.2.2 = referenceKey k'.1 k'.2.1 k'.2.2 → k = k' := by
    intro k hk k' hk' heq
    obtain ⟨assigned, hassigned, rfl⟩ := List.mem_map.mp hk
    obtain ⟨assigned', hassigned', rfl⟩ := List.mem_map.mp hk'
    obtain ⟨hid, hneed, hchain⟩ := referenceKey_injective
      (hids _ (mem_assignmentsOf.mp hassigned).1) (hids _ (mem_assignmentsOf.mp hassigned').1) heq
    exact Prod.ext hid (Prod.ext hneed hchain)
  rw [hkeys]
  exact ⟨List.Nodup.of_map _, fun hnodup => hnodup.map_on hinj⟩

/-- Every assignment of the plans has its ordinary price in the evidence, and the offer it applies,
when it applies one. -/
def Evidenced (evidence : ExactProductPlanApiEvidenceEnvelope) (plans : List PlanResultV2) : Prop :=
  ∀ plan ∈ plans, ∀ a ∈ plan.assignments, (ordinaryPriceOf evidence a).isSome = true ∧
    ∀ offerId ∈ a.checkout.appliedOfferId, ∃ entry ∈ byId (·.needId) evidence.needs a.needId,
      offerId ∈ entry.officialOffers.map (·.id)

instance (evidence : ExactProductPlanApiEvidenceEnvelope) (plans : List PlanResultV2) :
    Decidable (Evidenced evidence plans) := by
  unfold Evidenced
  infer_instance

/-- **Evidence can be attached** to plans with evidence exactly when the envelope fits.
**Proof sketch.** The references exist because every assignment has its ordinary price; the sources
merge exactly when their descriptors agree. What is left of the schema of the envelope are its two
bounds and the uniqueness of the references, since every record in it is a valid one. -/
theorem exists_attach_iff (hevidence : ExactProductPlanApiEvidenceEnvelopeSchema host evidence)
    (hproducts : ∀ product ∈ products, ExactProductPlanApiProductSummarySchema product)
    (hplans : ∀ plan ∈ plans, PlanResultV2Schema plan)
    (hids : ∀ plan ∈ plans, (0 : UInt16) ∉ plan.id) (hall : Evidenced evidence plans) :
    (∃ envelope, attachAssignmentEvidence host evidence plans products = some envelope) ↔
      EnvelopeFits evidence plans products := by
  have hexists : ∀ assigned ∈ assignmentsOf plans,
      ∃ reference, assignmentReference evidence assigned = some reference := by
    intro assigned hassigned
    obtain ⟨hplan, ha⟩ := mem_assignmentsOf.mp hassigned
    obtain ⟨ordinary, hordinary⟩ := Option.isSome_iff_exists.mp (hall _ hplan _ ha).1
    exact ⟨_, assignmentReference_eq_some_iff.mpr ⟨ordinary, hordinary, rfl⟩⟩
  obtain ⟨references, hreferences⟩ := Choices.exists_forall₂ hexists
  have hmapM := Choices.mapM_eq_some_iff.mpr hreferences
  have hlength : references.length = (assignmentsOf plans).length := hreferences.length_eq.symm
  have hkeys := nodup_keys_iff hids hreferences
  have hschema : ∀ reference ∈ references,
      ExactProductPlanApiAssignmentEvidenceSchema reference := by
    intro reference hreference
    obtain ⟨assigned, hassigned, heq⟩ := Choices.exists_mem_of_forall₂ hreferences hreference
    obtain ⟨hplan, ha⟩ := mem_assignmentsOf.mp hassigned
    exact schema_of_assignmentReference hevidence.needs (hplans _ hplan) ha heq
  unfold attachAssignmentEvidence
  rw [hmapM]
  cases hmerged : mergedSources evidence.sources products with
  | none =>
    simp only [reduceCtorEq, exists_false, false_iff]
    intro hfits
    rw [(mergedSources_eq_some_iff hevidence.uniqueSources).mpr ⟨hfits.descriptors, rfl⟩] at hmerged
    cases hmerged
  | some merged =>
    obtain ⟨hagree, rfl⟩ := (mergedSources_eq_some_iff hevidence.uniqueSources).mp hmerged
    obtain ⟨sources, hsources⟩ : ∃ sources, (JsMap.ofEntries
        ((declaredSources evidence products).map fun source => (source.id, source))).values =
          sources := ⟨_, rfl⟩
    obtain ⟨hcount, hvalid, hunique⟩ := values_declaredSources hevidence hproducts hsources
    have hperm := sortBy_perm (on ExactProductPlanApiEvidenceSource.id host.localeCompare) sources
    dsimp only
    rw [hsources]
    simp only [Option.ite_none_right_eq_some, Option.some.injEq, exists_and_left, exists_eq',
      and_true]
    constructor
    · intro henvelope
      have hassignments := henvelope.length_assignmentEvidence
      have hbound := henvelope.length_sources
      simp only [length_sortBy] at hassignments hbound
      exact
        { assignments := hlength ▸ hassignments
          references := hkeys.mp henvelope.uniqueReferences
          descriptors := hagree
          sources := hcount ▸ hbound }
    · intro hfits
      exact
        { length_sources := by
            simp only [length_sortBy, hcount]
            exact hfits.sources
          sources := fun source hsource => hvalid source (mem_sortBy.mp hsource)
          length_needs := hevidence.length_needs
          needs := hevidence.needs
          length_assignmentEvidence := by
            simp only [hlength]
            exact hfits.assignments
          assignmentEvidence := hschema
          uniqueSources := (hperm.map (·.id)).nodup_iff.mpr hunique
          uniqueNeeds := hevidence.uniqueNeeds
          uniqueReferences := hkeys.mpr hfits.references }

/-- An envelope that holds the evidence of plans has room for their assignments. -/
theorem length_assignmentsOf_le_of_attach {envelope : ExactProductPlanApiEvidenceEnvelope}
    (h : attachAssignmentEvidence host evidence plans products = some envelope) :
    (assignmentsOf plans).length ≤ 350 := by
  unfold attachAssignmentEvidence at h
  cases hreferences : (assignmentsOf plans).mapM (assignmentReference evidence) with
  | none => simp [hreferences] at h
  | some references =>
    rw [hreferences] at h
    split at h
    · rename_i heq _
      cases heq
      obtain ⟨hschema, -⟩ := Option.ite_none_right_eq_some.mp h
      rw [(Choices.mapM_eq_some_iff.mp hreferences).length_eq]
      exact hschema.length_assignmentEvidence
    · cases h

/-! ### The complete candidate set -/

/-- What `calculateExact` demands of the catalogue records of a request. -/
@[mk_iff] structure ValidCatalog (request : ExactProductPlanApiRequest)
    (products : List ExactProductPlanApiProductSummary) (catalogAt : ℤ) : Prop where
  bounded : products.length ≤ 50
  valid : ∀ product ∈ products, ExactProductPlanApiProductSummarySchema product
  fresh : ∀ product ∈ products, product.catalogEvidence.observedAt ≤ catalogAt ∧
    catalogAt - product.catalogEvidence.observedAt ≤ exactProductCatalogMaxAgeMs
  covers : products.map (·.gtin) = requestedExactGtins request

instance (request : ExactProductPlanApiRequest)
    (products : List ExactProductPlanApiProductSummary) (catalogAt : ℤ) :
    Decidable (ValidCatalog request products catalogAt) :=
  decidable_of_iff' _ (validCatalog_iff _ _ _)

/-- The plans are the complete candidates of a valid request, catalogue and price result; there are
some, and each of their assignments has its evidence. -/
structure CompleteCandidates (host : Host) (request : ExactProductPlanApiRequest)
    (products : List ExactProductPlanApiProductSummary) (priceResult : ExactPriceServiceResult)
    (catalogAt : ℤ) (plans : List PlanResultV2) : Prop where
  validRequest : ExactProductPlanApiRequestSchema host request
  catalog : ValidCatalog request products catalogAt
  validEvidence : ExactProductPlanApiEvidenceEnvelopeSchema host priceResult.evidence
  planned : ∃ input, exactRequestAsPlannerV2Input request products priceResult = some input ∧
    plans = enumerateCompletePlanCandidatesV2 host input catalogAt
  nonempty : plans ≠ []
  evidenced : Evidenced priceResult.evidence plans

/-- The condition on a complete candidate set under which its evidence fits the envelope. -/
@[mk_iff] structure CandidatesFit (request : ExactProductPlanApiRequest)
    (products : List ExactProductPlanApiProductSummary)
    (evidence : ExactProductPlanApiEvidenceEnvelope) (plans : List PlanResultV2) : Prop where
  bounded : plans.length * request.needs.length ≤ 350
  distinct : (assignmentKeys plans).Nodup
  descriptors : DescriptorsAgree (declaredSources evidence products)
  sources : ((declaredSources evidence products).map (·.id)).dedup.length ≤ 100

instance (request : ExactProductPlanApiRequest)
    (products : List ExactProductPlanApiProductSummary)
    (evidence : ExactProductPlanApiEvidenceEnvelope) (plans : List PlanResultV2) :
    Decidable (CandidatesFit request products evidence plans) :=
  decidable_of_iff' _ (candidatesFit_iff _ _ _ _)

section Complete

variable {request : ExactProductPlanApiRequest}
  {products : List ExactProductPlanApiProductSummary} {priceResult : ExactPriceServiceResult}
  {catalogAt : ℤ} {plans : List PlanResultV2}

theorem needs_exactRequestAsPlannerV2Input {input : ServerPlanningInputV2}
    (h : exactRequestAsPlannerV2Input request products priceResult = some input) :
    input.needs = request.needs.map (exactPlanningNeed products) := by
  unfold exactRequestAsPlannerV2Input at h
  split at h
  · cases h
  · rw [Option.ite_none_left_eq_some] at h
    obtain ⟨-, heq⟩ := h
    rw [← Option.some.inj heq]

/-- Each complete candidate assigns each need of the request once. -/
theorem CompleteCandidates.length_assignmentsOf
    (h : CompleteCandidates host request products priceResult catalogAt plans) :
    (assignmentsOf plans).length = plans.length * request.needs.length := by
  obtain ⟨input, hinput, hplans⟩ := h.planned
  have hlength : ∀ plan ∈ plans, plan.assignments.length = request.needs.length := by
    intro plan hplan
    rw [hplans] at hplan
    rw [length_assignments_of_mem_enumerate hplan, needs_exactRequestAsPlannerV2Input hinput,
      List.length_map]
  have hsums : plans.map (fun plan => plan.assignments.length) =
      List.replicate plans.length request.needs.length := by
    rw [List.eq_replicate_iff]
    refine ⟨List.length_map _, fun n hn => ?_⟩
    obtain ⟨plan, hplan, rfl⟩ := List.mem_map.mp hn
    exact hlength plan hplan
  simp only [assignmentsOf, List.length_flatMap, List.length_map, hsums,
    List.sum_replicate_nat]

/-- **The complete candidate set fits the envelope** exactly when candidates times needs is at most
350, no two of its assignments share plan identifier, need and chain, and the declared sources agree
and are at most 100.
**Proof sketch.** Complete candidates are valid plans whose identifiers lack NUL, so
`exists_attach_iff` applies; each of them has one assignment for each need. -/
theorem attachesCompleteSet_iff
    (h : CompleteCandidates host request products priceResult catalogAt plans) :
    (∃ envelope, attachAssignmentEvidence host priceResult.evidence plans products =
        some envelope) ↔
      CandidatesFit request products priceResult.evidence plans := by
  obtain ⟨input, hinput, hplans⟩ := h.planned
  have hschema : ∀ plan ∈ plans, PlanResultV2Schema plan := fun plan hplan =>
    planResultV2Schema_of_mem_enumerate (hplans ▸ hplan)
  have hids : ∀ plan ∈ plans, (0 : UInt16) ∉ plan.id := fun plan hplan =>
    zero_notMem_id_of_mem_enumerate (hplans ▸ hplan)
  rw [exists_attach_iff h.validEvidence h.catalog.valid hschema hids h.evidenced, envelopeFits_iff,
    candidatesFit_iff, h.length_assignmentsOf]

end Complete

/-! ### A wide shopping list -/

/-- The clock of the example: 2026-07-01T12:00:00.000Z. -/
def noon : ℤ := 1782907200000

/-- A source of prices. -/
def priceSource : ExactProductPlanApiEvidenceSource := ⟨js "priser", js "Priser", .ordinaryPrice⟩

/-- The catalogue record of a litre of milk. -/
def milkSummary : ExactProductPlanApiProductSummary where
  catalogEvidence :=
    { observedAt := noon
      source := ⟨js "katalog", js "Katalog", .catalog⟩
      sourceRecordId := js "source-record:" ++ List.replicate 64 48 }
  gtin := js "00000000"
  displayName := js "Melk"
  brand := none
  packageMeasure := some ⟨1000, .ml⟩
  unitsPerPack := 1

/-- The price of the milk at a chain. -/
def milkPrice (chain : Chain) : PriceEvidence where
  id := chain.text
  sourceId := js "priser"
  sourceRecordId := chain.text
  chainId := chain.text
  productMatch := .exact (js "melk")
  amountOre := 2000 + 100 * chainRank chain
  priceKind := .ordinary
  evidenceLevel := .observed
  observedAt := noon
  validFrom := none
  validUntil := none
  geographicScope := .national (js "NO")

/-- A request for `count` packages of milk on as many lines, from one store. -/
def milkRequest (count : ℕ) : ExactProductPlanApiRequest where
  enabledMembershipProgramIds := []
  marketContext := .national
  maxStores := 1
  needs := (List.range count).map fun i =>
    { id := [UInt16.ofNat (65 + i)], gtin := js "00000000", quantity := 1, quantityUnit := .each }

/-- The price snapshot of the milk, priced at the given chains. -/
def milkSnapshot (chains : List Chain) : PlanningEvidenceSnapshot where
  products := [⟨js "melk", js "00000000"⟩]
  sources := [priceSource]
  priceEvidence := chains.map milkPrice
  historicalEligibleEvidenceIds := []
  coverageChecks := []

/-- The evidence of a line of the list when the milk is priced at every chain. -/
def milkEvidence (need : ExactProductPlanApiNeed) : ExactProductPlanApiNeedEvidence where
  needId := need.id
  ordinaryPrices := chainOrder.map milkPrice
  historicalPriceEvidence := []
  excludedPriceEvidence := []
  officialOffers := []
  historicalComparisons := []
  comparisonScope :=
    { completeness := .complete
      evaluatedAt := noon
      expectedChainIds := chainOrder.map Chain.text
      entries := chainOrder.map fun chain => ⟨chain.text, .priced chain.text⟩ }

/-- The price result for `count` lines of milk that is priced at every chain. -/
def milkPriceResult (count : ℕ) : ExactPriceServiceResult where
  evidence :=
    { sources := [priceSource]
      needs := (milkRequest count).needs.map milkEvidence
      assignmentEvidence := [] }
  geographicDirectory := some (.unknown (js "postal-directory-unavailable"))
  prices := (sortBy (on Chain.text compareText) chainOrder).map fun chain =>
    { ean := js "00000000", chain := chain, amountOre := 2000 + 100 * chainRank chain,
      observedAt := noon, source := js "priser" }
  products := [⟨js "melk", js "00000000"⟩]

/-- The planner input of `count` lines of milk. -/
def milkInput (count : ℕ) : Option ServerPlanningInputV2 :=
  exactRequestAsPlannerV2Input (milkRequest count) [milkSummary] (milkPriceResult count)

/-- The complete candidates of `count` lines of milk. -/
def milkPlans (count : ℕ) : List PlanResultV2 :=
  (milkInput count).elim [] fun input =>
    enumerateCompletePlanCandidatesV2 Host.ascii input noon

/-- The lines of milk make complete candidates as soon as there are plans with evidence. -/
theorem completeCandidates_milkPlans {count : ℕ}
    (hrequest : ExactProductPlanApiRequestSchema Host.ascii (milkRequest count))
    (hcatalog : ValidCatalog (milkRequest count) [milkSummary] noon)
    (hevidence : ExactProductPlanApiEvidenceEnvelopeSchema Host.ascii
      (milkPriceResult count).evidence)
    (hinput : (milkInput count).isSome = true)
    (hplans : milkPlans count ≠ [] ∧ Evidenced (milkPriceResult count).evidence (milkPlans count)) :
    CompleteCandidates Host.ascii (milkRequest count) [milkSummary] (milkPriceResult count) noon
      (milkPlans count) := by
  obtain ⟨input, heq⟩ := Option.isSome_iff_exists.mp hinput
  have hplanned : milkPlans count = enumerateCompletePlanCandidatesV2 Host.ascii input noon := by
    rw [milkPlans, heq]
    rfl
  exact
    { validRequest := hrequest
      catalog := hcatalog
      validEvidence := hevidence
      planned := ⟨input, heq, hplanned⟩
      nonempty := hplans.1
      evidenced := hplans.2 }

/-- One line of milk: thirteen candidates, and the envelope holds their evidence. -/
theorem attachesCompleteSet_one_line :
    CandidatesFit (milkRequest 1) [milkSummary] (milkPriceResult 1).evidence (milkPlans 1) ∧
      ∃ envelope, attachAssignmentEvidence Host.ascii (milkPriceResult 1).evidence (milkPlans 1)
        [milkSummary] = some envelope := by
  have hcomplete : CompleteCandidates Host.ascii (milkRequest 1) [milkSummary] (milkPriceResult 1)
      noon (milkPlans 1) :=
    completeCandidates_milkPlans (by decide +kernel) (by decide +kernel) (by decide +kernel)
      (by decide +kernel) (by decide +kernel)
  have hfits : CandidatesFit (milkRequest 1) [milkSummary] (milkPriceResult 1).evidence
      (milkPlans 1) := by
    decide +kernel
  exact ⟨hfits, (attachesCompleteSet_iff hcomplete).mpr hfits⟩

/-- The assignment of a line of milk at a chain. -/
def milkAssignment (chain : Chain) (need : PlanningNeedV2) : PlanAssignmentV2 where
  needId := need.id
  canonicalProductId := js "melk"
  ean := js "00000000"
  chain := chain
  costOre := 2000 + 100 * chainRank chain
  observedAt := noon
  source := js "priser"
  fulfilment := ⟨need.id, js "melk", ⟨1, .package⟩, ⟨1000, .ml⟩, 1, ⟨1, .package⟩, ⟨0, .package⟩⟩
  checkout := ordinaryCheckoutCost (2000 + 100 * chainRank chain)
  officialOffer := none

/-- The assignments of the lines of milk at a chain. -/
def milkAssignments (input : ServerPlanningInputV2) (chain : Chain) : List PlanAssignmentV2 :=
  input.needs.map (milkAssignment chain)

/-- A chain serves each of twenty-seven lines. -/
def ServesMilk (chain : Chain) : Prop :=
  ∀ input ∈ milkInput 27, ∀ need ∈ input.needs,
    selectedAssignment Host.ascii input noon [chain] need = some (milkAssignment chain need)

instance : DecidablePred ServesMilk := fun _ => inferInstanceAs (Decidable (∀ _ ∈ _, _))

theorem servesMilk (chain : Chain) : ServesMilk chain := by
  cases chain <;> decide +kernel

/-- What else the planner asks of the lines and of the plans of the chains. -/
def PlansMilk : Prop :=
  ∀ input ∈ milkInput 27, ServerPlanningInputV2Schema Host.ascii input ∧
    protoKey ∉ input.needs.map (·.id) ∧
    Subsets.combinations (availableChains input noon) (min input.maxStores 3) =
      chainOrder.map (fun chain => [chain]) ∧
    ∀ chain ∈ chainOrder, totalOre (milkAssignments input chain) ≤ maxPersistedMoneyOre ∧
      chainCount (milkAssignments input chain) ≤ input.maxStores

instance : Decidable PlansMilk := inferInstanceAs (Decidable (∀ _ ∈ _, _))

theorem plansMilk : PlansMilk := by decide +kernel

/-- The plans of the chains. -/
def chainPlans : List PlanResultV2 :=
  (milkInput 27).elim [] fun input => sortBy comparePlans (uniqueAssignments
    (chainOrder.map fun chain => planOfAssignments input (milkAssignments input chain)))

/-- The candidates of twenty-seven lines are the plans of the chains. -/
theorem milkPlans_eq : milkPlans 27 = chainPlans := by
  have hserves := servesMilk
  have hplans := plansMilk
  unfold ServesMilk at hserves
  unfold PlansMilk at hplans
  unfold milkPlans chainPlans
  generalize milkInput 27 = found at hserves hplans ⊢
  cases found with
  | none => rw [Option.elim_none, Option.elim_none]
  | some input =>
    obtain ⟨hschema, hproto, hsubsets, hbounds⟩ := hplans input rfl
    have hplan : ∀ chain ∈ chainOrder, planForSubset Host.ascii input noon [chain] =
        some (planOfAssignments input (milkAssignments input chain)) := by
      intro chain hchain
      refine (planForSubset_eq_some_iff hschema).mpr ⟨hproto, milkAssignments input chain, ?_,
        (hbounds chain hchain).1, (hbounds chain hchain).2, rfl⟩
      exact List.forall₂_map_right_iff.mpr
        (List.forall₂_same.mpr fun need hneed => hserves chain input rfl need hneed)
    have hsubset : subsetPlans Host.ascii input noon =
        chainOrder.map fun chain => planOfAssignments input (milkAssignments input chain) := by
      rw [subsetPlans, hsubsets, List.filterMap_map, ← List.filterMap_eq_map]
      exact List.filterMap_congr hplan
    rw [Option.elim_some, Option.elim_some, enumerateCompletePlanCandidatesV2, if_pos hschema, hsubset]

/-- Twenty-seven lines of milk at thirteen chains: the price service returns this price result, each
chain serves the whole list, and no envelope holds the 351 references. -/
theorem not_attachesCompleteSet_wide_list :
    (readExact Host.ascii (milkRequest 27) (milkSnapshot chainOrder) none ⟨[], []⟩ noon).toOption =
        some (milkPriceResult 27) ∧
      CompleteCandidates Host.ascii (milkRequest 27) [milkSummary] (milkPriceResult 27) noon
        (milkPlans 27) ∧
      (milkPlans 27).length = 13 ∧
      ¬ ∃ envelope, attachAssignmentEvidence Host.ascii (milkPriceResult 27).evidence
        (milkPlans 27) [milkSummary] = some envelope := by
  have hplans : (milkPlans 27).length = 13 ∧
      Evidenced (milkPriceResult 27).evidence (milkPlans 27) := by
    rw [milkPlans_eq]
    decide +kernel
  have hnonempty : milkPlans 27 ≠ [] := List.ne_nil_of_length_pos (hplans.1 ▸ Nat.succ_pos 12)
  have hcomplete : CompleteCandidates Host.ascii (milkRequest 27) [milkSummary]
      (milkPriceResult 27) noon (milkPlans 27) :=
    completeCandidates_milkPlans (by decide +kernel) (by decide +kernel) (by decide +kernel)
      (by decide +kernel) ⟨hnonempty, hplans.2⟩
  refine ⟨by decide +kernel, hcomplete, hplans.1, ?_⟩
  rintro ⟨envelope, henvelope⟩
  have hbound := (length_assignmentsOf_le_of_attach henvelope)
  rw [hcomplete.length_assignmentsOf, hplans.1] at hbound
  exact absurd hbound (by decide)

end Handleplan.PlanService
