import Handleplan.Domain.PlannerV2Optimality
import Handleplan.Web.PriceServiceSpec
import Handleplan.Web.ReviewedPlanning

/-!
# The products planned for a reviewed need are its reviewed candidates

The planner knows nothing of candidates: it is given product families and match rules, and finds the
products of a need by matching texts. What it finds for a need of a reviewed request are exactly the
candidates of the need.

## Main definitions

* `PlanService.ReviewedRun` — the steps of a successful run of the service.
* `PlanService.IsReviewedCandidates` — the candidates of a need.

## Main results

* `PlanService.matchProducts_eq_candidates` — the products matched for a need are those
  of its candidates, and no plan gives it another product.

## Implementation notes

`normalize` could in principle let two families match each other's products. It does not, because
the identifier of a family has letters in lower case only, which lower casing leaves alone
(`Host.KeepsLowerCase`).
-/

namespace Handleplan.PlanService

open JsString Sorting PriceService PlannerV2

variable {host : Host} {request : ReviewedFamilyPlanApiRequestV2} {evaluatedAt : ℤ}
  {answers : ReviewedAnswers} {planning : ReviewedPlanning}

/-! ### The steps of a run -/

theorem require_eq_ok_iff {α : Type} {error : PlanServiceError} {value : Option α} {a : α} :
    require error value = .ok a ↔ value = some a := by
  cases value <;> simp [require]

/-- The steps of a successful run, with what each hands to the next. -/
structure ReviewedRun (host : Host) (request : ReviewedFamilyPlanApiRequestV2) (evaluatedAt : ℤ)
    (planning : ReviewedPlanning) (selections : List ReviewedFamilyMatch)
    (exactProducts : List ExactProductPlanApiProductSummary)
    (priceResult : ProductPriceServiceResult) (familyByProduct : JsMap JsString JsString) :
    Prop where
  validRequest : ReviewedFamilyPlanApiRequestV2Schema host request
  selected : uniqueFamilySelections request = .ok selections
  requested : CandidateInspectionRequestSchema host (candidateInspectionRequest selections)
  inspected : ReviewedFamilyCandidateInspectionResponseSchemaFor host
    (candidateInspectionRequest selections) planning.inspection
  confirmed : ∀ selection ∈ selections, IsConfirmed planning.inspection selection
  validProducts : ∀ product ∈ exactProducts, ExactProductPlanApiProductSummarySchema product
  exactCover : exactProducts.map (·.gtin) = exactCatalogGtins request
  claims : productClaimsForMixedPlan exactProducts planning.inspection priceResult =
    .ok planning.productClaims
  families : familyByCanonicalProduct planning.inspection = .ok familyByProduct
  matched : needMatchesForMixedPlan request planning.inspection priceResult =
    .ok planning.needMatches
  input : mixedPlannerInput request planning.needMatches planning.productClaims familyByProduct
    priceResult = .ok planning.planningInput

/-- What a successful reading of the catalogue has checked. -/
theorem exactCatalogProducts_spec {gtins : List JsString}
    {answer : Option (List ExactProductPlanApiProductSummary)}
    {products : List ExactProductPlanApiProductSummary}
    (h : exactCatalogProducts gtins evaluatedAt answer = .ok products) :
    (∀ product ∈ products, ExactProductPlanApiProductSummarySchema product) ∧
      products.map (·.gtin) = gtins := by
  unfold exactCatalogProducts at h
  by_cases hempty : gtins = []
  · rw [if_pos hempty] at h
    cases h
    simp [hempty]
  · rw [if_neg hempty] at h
    simp only [bind_eq_ok_iff, require_eq_ok_iff, ite_error_bind_eq_ok_iff, not_or, not_exists,
      not_and, not_not] at h
    obtain ⟨read, -, ⟨-, hvalid⟩, -, hcover, heq⟩ := h
    cases heq
    exact ⟨hvalid, hcover⟩

theorem exists_reviewedRun (h : calculateReviewed host request evaluatedAt answers = .ok planning) :
    ∃ selections exactProducts priceResult familyByProduct,
      ReviewedRun host request evaluatedAt planning selections exactProducts priceResult
        familyByProduct := by
  simp only [calculateReviewed, validatedInspection, ite_error_bind_eq_ok_iff, bind_eq_ok_iff,
    require_eq_ok_iff, not_not, not_exists, not_and, ite_error_eq_ok_iff, not_or] at h
  obtain ⟨hrequest, selections, hselected, inspection, ⟨answer, -, ⟨hrequested, hinspected, -⟩, hanswer⟩,
    hconfirmed, exactProducts, hexact, -, -, priceResult, -, -, -, claims, hclaims, -,
    familyByProduct, hfamilies, needMatches, hmatches, input, hinput, heq⟩ := h
  cases hanswer
  cases heq
  obtain ⟨hvalid, hcover⟩ := exactCatalogProducts_spec hexact
  exact ⟨selections, exactProducts, priceResult, familyByProduct, hrequest, hselected, hrequested,
    hinspected, hconfirmed, hvalid, hcover, hclaims, hfamilies, hmatches, hinput⟩

/-! ### Candidates of a need -/

/-- The candidates of a need: for an exact product the product itself, for a family those the user
confirmed, each of an allowed brand. -/
def IsReviewedCandidates (host : Host) (planning : ReviewedPlanning) (ids : List JsString) :
    ReviewedFamilyPlanApiMatch → Prop
  | .exactProduct gtin => ∃ claim ∈ planning.productClaims,
      claim.product.gtin = gtin ∧ ids = [claim.canonicalProductId]
  | .reviewedFamily selection => ∃ set ∈ planning.inspection.candidateSets,
      set.familyId = selection.familyId ∧ set.candidateSetId = selection.candidateSetId ∧
        set.allowedBrands = selection.allowedBrands ∧ ids = set.candidateProductIds ∧
        ∀ brands ∈ selection.allowedBrands, ∀ id ∈ ids,
          HasAllowedBrand host planning.inspection.productClaims brands id

/-- The products matched for a need are exactly its candidates. -/
structure MatchesCandidates (host : Host) (planning : ReviewedPlanning)
    (need : ReviewedFamilyPlanApiNeed) (planningNeed : PlanningNeedV2)
    (needMatch : ReviewedFamilyNeedMatch) : Prop where
  sameNeed : planningNeed.id = need.id ∧ needMatch.needId = need.id
  reviewed : IsReviewedCandidates host planning needMatch.candidateProductIds need.needMatch
  /-- What is matched under the rule of the need are the products of candidates. -/
  admits : ∃ rule, ruleById planning.planningInput planningNeed.matchRuleId = some rule ∧
    ∀ product, product ∈ matchProducts host (toLegacyNeed planningNeed) rule
        (planning.planningInput.products.map toLegacyProduct) ↔
      ∃ own ∈ planning.planningInput.products, toLegacyProduct own = product ∧
        own.canonicalProductId ∈ needMatch.candidateProductIds
  /-- Each candidate has a product. -/
  noneLost : ∀ id ∈ needMatch.candidateProductIds,
    ∃ own ∈ planning.planningInput.products, own.canonicalProductId = id

/-! ### Product claims -/

/-- The price result knows the product of a claim by its GTIN. -/
def IsIdentified (priceResult : ProductPriceServiceResult) (claim : ReviewedFamilyProductClaim) :
    Prop :=
  (identityByGtin priceResult claim.product.gtin).map (·.canonicalProductId) =
    some claim.canonicalProductId

/-- What every step of a successful sequence has checked. -/
theorem forall_of_foldlM_eq_ok {ε α β : Type} {step : β → α → Except ε β} {Q : α → Prop}
    (hstep : ∀ b a b', step b a = .ok b' → Q a) {l : List α} {b b' : β}
    (h : l.foldlM step b = .ok b') : ∀ a ∈ l, Q a := by
  induction l generalizing b with
  | nil => simp
  | cons a l ih =>
    rw [List.foldlM_cons, bind_eq_ok_iff] at h
    obtain ⟨next, hnext, h⟩ := h
    intro x hx
    obtain rfl | hx := List.mem_cons.mp hx
    · exact hstep _ _ _ hnext
    · exact ih h x hx

variable {claims claims' : JsMap JsString ReviewedFamilyProductClaim}
  {claim : ReviewedFamilyProductClaim} {priceResult : ProductPriceServiceResult}
  {inspection : ReviewedFamilyCandidateInspectionResponse}

theorem get?_of_addClaim (h : addClaim claims claim = .ok claims') (k : JsString)
    (v : ReviewedFamilyProductClaim) :
    claims'.get? k = some v ↔ claims.get? k = some v ∨ k = claim.canonicalProductId ∧ v = claim := by
  rw [addClaim, addUnlessOther, require_eq_ok_iff] at h
  exact JsMap.get?_setUnlessOther h k v

theorem nodup_keys_of_addClaim (h : addClaim claims claim = .ok claims')
    (hclaims : claims.keys.Nodup) : claims'.keys.Nodup := by
  rw [addClaim, addUnlessOther, require_eq_ok_iff] at h
  exact JsMap.nodup_keys_setUnlessOther h hclaims

theorem addInspectedClaim_eq_ok (h : addInspectedClaim priceResult claims claim = .ok claims') :
    IsIdentified priceResult claim ∧ addClaim claims claim = .ok claims' := by
  simpa only [addInspectedClaim, IsIdentified, ite_error_bind_eq_ok_iff, ne_eq, not_not] using h

theorem addExactClaim_eq_ok {product : ExactProductPlanApiProductSummary}
    (h : addExactClaim priceResult claims product = .ok claims') :
    ∃ identity, identityByGtin priceResult product.gtin = some identity ∧
      addClaim claims { canonicalProductId := identity.canonicalProductId, product := product } =
        .ok claims' := by
  simpa only [addExactClaim, bind_eq_ok_iff, require_eq_ok_iff] using h

/-- What the claims of a run are: one for each product, identified, and those of the inspection and
of the exact products. -/
structure ClaimsSpec (exactProducts : List ExactProductPlanApiProductSummary)
    (inspection : ReviewedFamilyCandidateInspectionResponse)
    (priceResult : ProductPriceServiceResult) (claims : List ReviewedFamilyProductClaim) : Prop where
  identified : ∀ claim ∈ claims, IsIdentified priceResult claim
  unique : (claims.map (·.canonicalProductId)).Nodup
  source : ∀ claim ∈ claims, claim ∈ inspection.productClaims ∨ claim.product ∈ exactProducts
  ofInspection : ∀ claim ∈ inspection.productClaims, claim ∈ claims
  ofExact : ∀ product ∈ exactProducts, ∃ claim ∈ claims, claim.product = product

/-- **The claims** of a request that is planned. -/
theorem claimsSpec_of_productClaimsForMixedPlan
    {exactProducts : List ExactProductPlanApiProductSummary}
    {claims : List ReviewedFamilyProductClaim}
    (h : productClaimsForMixedPlan exactProducts inspection priceResult = .ok claims) :
    ClaimsSpec exactProducts inspection priceResult claims := by
  simp only [productClaimsForMixedPlan, bind_eq_ok_iff] at h
  obtain ⟨inspected, hinspected, byCanonicalId, hexact, heq⟩ := h
  cases heq
  have hknown : ∀ claim ∈ inspection.productClaims, IsIdentified priceResult claim :=
    forall_of_foldlM_eq_ok (Q := IsIdentified priceResult)
      (fun _ _ _ hstep => (addInspectedClaim_eq_ok hstep).1) hinspected
  have hfound : ∀ product ∈ exactProducts, ∃ identity,
      identityByGtin priceResult product.gtin = some identity :=
    forall_of_foldlM_eq_ok (Q := fun product => ∃ identity,
        identityByGtin priceResult product.gtin = some identity)
      (fun _ _ _ hstep => (addExactClaim_eq_ok hstep).imp fun _ hidentity => hidentity.1) hexact
  have hget : ∀ k v, byCanonicalId.get? k = some v ↔
      (∃ claim ∈ inspection.productClaims, k = claim.canonicalProductId ∧ v = claim) ∨
        ∃ product ∈ exactProducts, ∃ identity,
          identityByGtin priceResult product.gtin = some identity ∧
            k = identity.canonicalProductId ∧
            v = { canonicalProductId := identity.canonicalProductId, product := product } := by
    intro k v
    rw [JsMap.get?_foldlM (R := fun product k v => ∃ identity,
        identityByGtin priceResult product.gtin = some identity ∧
          k = identity.canonicalProductId ∧
          v = { canonicalProductId := identity.canonicalProductId, product := product })
        (fun m product m' hstep k v => ?_) hexact,
      JsMap.get?_foldlM (R := fun claim k v => k = claim.canonicalProductId ∧ v = claim)
        (fun m claim m' hstep k v => get?_of_addClaim (addInspectedClaim_eq_ok hstep).2 k v)
        hinspected]
    · simp only [JsMap.get?_nil, reduceCtorEq, false_or]
    · obtain ⟨identity, hidentity, hadd⟩ := addExactClaim_eq_ok hstep
      rw [get?_of_addClaim hadd]
      simp only [hidentity, Option.some.injEq, exists_eq_left']
  have hkeys : byCanonicalId.keys.Nodup := by
    have hinspectedKeys : inspected.keys.Nodup := by
      refine JsMap.nodup_keys_foldlM (fun m claim m' hstep hm => ?_) hinspected List.nodup_nil
      exact nodup_keys_of_addClaim (addInspectedClaim_eq_ok hstep).2 hm
    refine JsMap.nodup_keys_foldlM (fun m product m' hstep hm => ?_) hexact hinspectedKeys
    obtain ⟨identity, -, hadd⟩ := addExactClaim_eq_ok hstep
    exact nodup_keys_of_addClaim hadd hm
  have hkey : ∀ k v, byCanonicalId.get? k = some v → k = v.canonicalProductId := by
    intro k v hv
    obtain ⟨claim, -, rfl, rfl⟩ | ⟨product, -, identity, -, rfl, rfl⟩ := (hget k v).mp hv <;> rfl
  have hmem : ∀ claim, claim ∈ sortBy (on (·.canonicalProductId) compareText) byCanonicalId.values ↔
      ∃ k, byCanonicalId.get? k = some claim := by
    intro claim
    rw [mem_sortBy, JsMap.mem_values_iff_get? hkeys]
  constructor
  case identified =>
    intro claim hclaim
    obtain ⟨k, hk⟩ := (hmem claim).mp hclaim
    obtain ⟨claim', hclaim', -, rfl⟩ | ⟨product, -, identity, hidentity, -, rfl⟩ := (hget k _).mp hk
    · exact hknown claim hclaim'
    · simp [IsIdentified, hidentity]
  case unique =>
    have hvalues : byCanonicalId.values.map (·.canonicalProductId) = byCanonicalId.keys := by
      simp only [JsMap.values, JsMap.keys, List.map_map]
      refine List.map_congr_left fun e he => ?_
      exact (hkey e.1 e.2 ((JsMap.mem_iff_get? hkeys e.1 e.2).mp he)).symm
    rw [((sortBy_perm _ _).map _).nodup_iff, hvalues]
    exact hkeys
  case source =>
    intro claim hclaim
    obtain ⟨k, hk⟩ := (hmem claim).mp hclaim
    obtain ⟨claim', hclaim', -, rfl⟩ | ⟨product, hproduct, identity, -, -, rfl⟩ := (hget k _).mp hk
    · exact Or.inl hclaim'
    · exact Or.inr hproduct
  case ofInspection =>
    intro claim hclaim
    exact (hmem claim).mpr ⟨_, (hget _ _).mpr (Or.inl ⟨claim, hclaim, rfl, rfl⟩)⟩
  case ofExact =>
    intro product hproduct
    obtain ⟨identity, hidentity⟩ := hfound product hproduct
    exact ⟨_, (hmem _).mpr ⟨_, (hget _ _).mpr
      (Or.inr ⟨product, hproduct, identity, hidentity, rfl, rfl⟩)⟩, rfl⟩

/-- A GTIN belongs to one claim. -/
theorem ClaimsSpec.nodup_gtins {exactProducts : List ExactProductPlanApiProductSummary}
    {claims : List ReviewedFamilyProductClaim}
    (h : ClaimsSpec exactProducts inspection priceResult claims) :
    (claims.map (·.product.gtin)).Nodup := by
  refine List.Nodup.map_on (fun a ha b hb hgtin => ?_) h.unique.of_map
  refine List.inj_on_of_nodup_map h.unique ha hb (Option.some.inj ?_)
  rw [← h.identified a ha, ← h.identified b hb, hgtin]

/-- The family of a product is the one it is a candidate of. -/
theorem get?_familyByCanonicalProduct {families : JsMap JsString JsString}
    (h : familyByCanonicalProduct inspection = .ok families)
    (canonicalProductId familyId : JsString) :
    families.get? canonicalProductId = some familyId ↔
      ∃ set ∈ inspection.candidateSets, set.familyId = familyId ∧
        canonicalProductId ∈ set.candidateProductIds := by
  rw [JsMap.get?_foldlM (R := fun candidate k v => k = candidate.1 ∧ v = candidate.2)
    (fun m candidate m' hstep k v => ?_) h]
  · simp only [JsMap.get?_nil, reduceCtorEq, false_or, candidatesWithFamily, List.mem_flatMap,
      List.mem_map]
    constructor
    · rintro ⟨-, ⟨set, hset, id, hid, rfl⟩, rfl, rfl⟩
      exact ⟨set, hset, rfl, hid⟩
    · rintro ⟨set, hset, rfl, hid⟩
      exact ⟨_, ⟨set, hset, _, hid, rfl⟩, rfl, rfl⟩
  · rw [addFamilyOfProduct, require_eq_ok_iff] at hstep
    exact JsMap.get?_setUnlessOther hstep k v

/-! ### Confirmed selections -/

/-- Each need has a selection with its identity among those that are inspected. -/
theorem exists_get?_of_foldlM_addFamilySelection {l : List ReviewedFamilyMatch}
    {before after : JsMap JsString ReviewedFamilyMatch}
    (h : l.foldlM addFamilySelection before = .ok after) :
    (∀ k m, before.get? k = some m → ∃ m', after.get? k = some m' ∧
        familySelectionIdentity m' = familySelectionIdentity m) ∧
      ∀ m ∈ l, ∃ m', after.get? m.familyId = some m' ∧
        familySelectionIdentity m' = familySelectionIdentity m := by
  induction l generalizing before with
  | nil =>
    cases h
    exact ⟨fun k m hm => ⟨m, hm, rfl⟩, by simp⟩
  | cons m l ih =>
    rw [List.foldlM_cons, bind_eq_ok_iff] at h
    obtain ⟨next, hnext, h⟩ := h
    obtain ⟨hkept, hlater⟩ := ih h
    have hset : next = JsMap.set before m.familyId m ∧ ∀ previous,
        before.get? m.familyId = some previous →
          familySelectionIdentity previous = familySelectionIdentity m := by
      unfold addFamilySelection at hnext
      cases hprevious : before.get? m.familyId with
      | none =>
        rw [hprevious] at hnext
        exact ⟨(Except.ok.inj hnext).symm, by simp⟩
      | some previous =>
        rw [hprevious] at hnext
        simp only [ite_error_eq_ok_iff, ne_eq, not_not] at hnext
        exact ⟨(Except.ok.inj hnext.2).symm, by simp [hnext.1]⟩
    obtain ⟨rfl, hagree⟩ := hset
    have hown : ∃ m', after.get? m.familyId = some m' ∧
        familySelectionIdentity m' = familySelectionIdentity m :=
      hkept _ _ (by rw [JsMap.get?_set, if_pos rfl])
    constructor
    · intro k previous hprevious
      by_cases hk : m.familyId = k
      · subst hk
        rw [hagree previous hprevious]
        exact hown
      · exact hkept k previous (by rw [JsMap.get?_set, if_neg hk, hprevious])
    · intro m' hm'
      obtain rfl | hm' := List.mem_cons.mp hm'
      · exact hown
      · exact hlater m' hm'

section Run

variable {selections : List ReviewedFamilyMatch}
  {exactProducts : List ExactProductPlanApiProductSummary}
  {priceResult : ProductPriceServiceResult} {familyByProduct : JsMap JsString JsString}

/-! ### Matches, rules and planning needs -/

variable {need : ReviewedFamilyPlanApiNeed} {claim : ReviewedFamilyProductClaim}
  {product : PlanningProductV2} {rule : MatchRule} {planningNeed : PlanningNeedV2}

/-- The planning product of a claim. -/
theorem mixedPlanningProduct_eq_ok (h : mixedPlanningProduct familyByProduct claim = .ok product) :
    product.canonicalProductId = claim.canonicalProductId ∧ product.ean = claim.product.gtin ∧
      product.name = claim.product.displayName ∧ product.brand = claim.product.brand ∧
      claim.product.packageMeasure = some product.packageMeasure ∧
      product.productFamily = familyByProduct.get? claim.canonicalProductId := by
  simp only [mixedPlanningProduct, bind_eq_ok_iff, require_eq_ok_iff] at h
  obtain ⟨packageMeasure, hmeasure, heq⟩ := h
  cases heq
  exact ⟨rfl, rfl, rfl, rfl, hmeasure, rfl⟩

/-- The rule of a need: its product for an exact need, its family for another. -/
theorem mixedMatchingRule_eq_ok {needMatches : List ReviewedFamilyNeedMatch}
    (h : mixedMatchingRule needMatches need = .ok rule) :
    rule.id = need.id ∧ rule.explanation ≠ [] ∧
      rule.mode = match need.needMatch with
        | .exactProduct gtin => .exact gtin
        | .reviewedFamily selection => .flexible selection.familyId := by
  simp only [mixedMatchingRule, bind_eq_ok_iff] at h
  obtain ⟨_, -, h⟩ := h
  cases hkind : need.needMatch with
  | exactProduct gtin =>
    rw [hkind] at h
    cases h
    exact ⟨rfl, by change js _ ≠ []; decide, rfl⟩
  | reviewedFamily selection =>
    rw [hkind] at h
    cases h
    exact ⟨rfl, by change js _ ≠ []; decide, rfl⟩

/-- The planning need of a need asks for its match. -/
theorem mixedPlanningNeed_eq_ok {needMatches : List ReviewedFamilyNeedMatch}
    {claims : List ReviewedFamilyProductClaim}
    (h : mixedPlanningNeed needMatches claims need = .ok planningNeed) :
    planningNeed.id = need.id ∧ planningNeed.matchRuleId = need.id ∧
      planningNeed.requested.amount = need.quantity ∧
      ∃ needMatch ∈ needMatches, mixedQuery claims needMatch = some planningNeed.query := by
  simp only [mixedPlanningNeed, bind_eq_ok_iff, require_eq_ok_iff] at h
  obtain ⟨needMatch, hmatch, query, hquery, heq⟩ := h
  cases heq
  exact ⟨rfl, rfl, rfl, needMatch, (mem_of_byId_eq_some hmatch).1, hquery⟩

section

variable (h : ReviewedRun host request evaluatedAt planning selections exactProducts priceResult
  familyByProduct)

include h

/-- The family of a need is inspected as the user confirmed it. -/
theorem ReviewedRun.isConfirmed {m : ReviewedFamilyMatch} (hm : m ∈ request.familyMatches) :
    IsConfirmed planning.inspection m := by
  have hselected := h.selected
  simp only [uniqueFamilySelections, bind_eq_ok_iff] at hselected
  obtain ⟨byFamilyId, hfold, heq⟩ := hselected
  cases heq
  obtain ⟨m', hget, hidentity⟩ := (exists_get?_of_foldlM_addFamilySelection hfold).2 m hm
  have hmem : m' ∈ sortBy (on (·.familyId) compareText) byFamilyId.values := by
    rw [mem_sortBy]
    exact List.mem_map.mpr ⟨_, JsMap.mem_of_get? hget, rfl⟩
  obtain ⟨current, hcurrent, hconfirmed⟩ := h.confirmed m' hmem
  simp only [familySelectionIdentity, Prod.mk.injEq] at hidentity
  obtain ⟨hbrands, hset, hfamily, htaxonomy⟩ := hidentity
  rw [hbrands, hset, htaxonomy] at hconfirmed
  rw [hfamily] at hcurrent
  exact ⟨current, hcurrent, hconfirmed⟩

/-- A family has one candidate set. -/
theorem ReviewedRun.nodup_families :
    (planning.inspection.candidateSets.map (·.familyId)).Nodup := by
  rw [h.inspected.requested, ((sortBy_perm _ _).map _).nodup_iff]
  exact h.requested.unique

/-- The match of each need is found under its identifier. -/
theorem ReviewedRun.exists_needMatch (hneed : need ∈ request.needs) :
    ∃ needMatch ∈ planning.needMatches, needMatch.needId = need.id ∧
      needMatchForMixedPlan planning.inspection priceResult need = .ok needMatch := by
  have hmatched := Choices.mapM_eq_ok_iff.mp h.matched
  obtain ⟨needMatch, hmem, hmatch⟩ :=
    Choices.exists_choice_of_forall₂ hmatched (mem_sortBy.mpr hneed)
  refine ⟨needMatch, hmem, ?_, hmatch⟩
  unfold needMatchForMixedPlan at hmatch
  cases hkind : need.needMatch with
  | exactProduct gtin =>
    rw [hkind] at hmatch
    simp only [bind_eq_ok_iff] at hmatch
    obtain ⟨identity, -, heq⟩ := hmatch
    cases heq
    rfl
  | reviewedFamily selection =>
    rw [hkind] at hmatch
    simp only [bind_eq_ok_iff] at hmatch
    obtain ⟨set, -, heq⟩ := hmatch
    cases heq
    rfl

/-- What the planner input is made of. -/
theorem ReviewedRun.input_spec :
    List.Forall₂ (fun claim product => mixedPlanningProduct familyByProduct claim = .ok product)
        planning.productClaims planning.planningInput.products ∧
      List.Forall₂ (fun need rule => mixedMatchingRule planning.needMatches need = .ok rule)
        request.needs planning.planningInput.matchingRules ∧
      List.Forall₂ (fun need planningNeed => mixedPlanningNeed planning.needMatches
        planning.productClaims need = .ok planningNeed) request.needs
        planning.planningInput.needs := by
  have hinput := h.input
  simp only [mixedPlannerInput, bind_eq_ok_iff, Choices.mapM_eq_ok_iff] at hinput
  obtain ⟨products, hproducts, offers, -, rules, hrules, needs, hneeds, heq⟩ := hinput
  have hinput := Except.ok.inj heq
  rw [← hinput]
  exact ⟨hproducts, hrules, hneeds⟩

/-- The needs and rules of the planner carry the identifiers of the needs of the request. -/
theorem ReviewedRun.ids :
    planning.planningInput.needs.map (·.id) = request.needs.map (·.id) ∧
      planning.planningInput.matchingRules.map (·.id) = request.needs.map (·.id) :=
  ⟨(Choices.map_eq_map_of_forall₂ h.input_spec.2.2 fun _ _ hneed =>
      (mixedPlanningNeed_eq_ok hneed).1.symm).symm,
    (Choices.map_eq_map_of_forall₂ h.input_spec.2.1 fun _ _ hrule =>
      (mixedMatchingRule_eq_ok hrule).1.symm).symm⟩

/-- The rule of a need is found under its identifier. -/
theorem ReviewedRun.exists_rule (hneed : need ∈ request.needs) :
    ∃ rule, ruleById planning.planningInput need.id = some rule ∧
      mixedMatchingRule planning.needMatches need = .ok rule := by
  obtain ⟨rule, hmem, hrule⟩ := Choices.exists_choice_of_forall₂ h.input_spec.2.1 hneed
  refine ⟨rule, ?_, hrule⟩
  have hunique : (planning.planningInput.matchingRules.map (·.id)).Nodup := by
    rw [h.ids.2]
    exact h.validRequest.uniqueNeeds
  exact (get?_ofEntries_map_eq_some_iff hunique).mpr ⟨hmem, (mixedMatchingRule_eq_ok hrule).1⟩

/-- No two planning products have one GTIN. -/
theorem ReviewedRun.nodup_eans :
    ((planning.planningInput.products.map toLegacyProduct).map (·.ean)).Nodup := by
  have heans : (planning.planningInput.products.map toLegacyProduct).map (·.ean) =
      planning.productClaims.map (·.product.gtin) := by
    rw [List.map_map]
    exact (Choices.map_eq_map_of_forall₂ h.input_spec.1 fun _ _ hproduct =>
      (mixedPlanningProduct_eq_ok hproduct).2.1.symm).symm
  rw [heans]
  exact (claimsSpec_of_productClaimsForMixedPlan h.claims).nodup_gtins

/-! ### What the planner accepts -/

/-- The records of the claims of a run meet their schema. -/
theorem ReviewedRun.summarySchema (hclaim : claim ∈ planning.productClaims) :
    ExactProductPlanApiProductSummarySchema claim.product := by
  obtain hinspected | hexact :=
    (claimsSpec_of_productClaimsForMixedPlan h.claims).source claim hclaim
  · exact (h.inspected.schema.claims claim hinspected).2
  · exact h.validProducts _ hexact

/-- The planner drops no product of a run. -/
theorem ReviewedRun.productSchema (hclaim : claim ∈ planning.productClaims)
    (hproduct : mixedPlanningProduct familyByProduct claim = .ok product) :
    ProductSchema (toLegacyProduct product) := by
  obtain ⟨-, hean, hname, hbrand, hmeasure, hfamily⟩ := mixedPlanningProduct_eq_ok hproduct
  have hschema := h.summarySchema hclaim
  constructor
  case ean =>
    change gtinShape product.ean = true
    exact hean ▸ gtinShape_of_isValidGtin hschema.gtin
  case name =>
    change product.name ≠ []
    exact hname ▸ hschema.displayName.ne_nil
  case brand =>
    intro brand hmem
    exact (hschema.brand brand (hbrand ▸ hmem)).ne_nil
  case packageQuantity =>
    intro quantity hmem
    cases hmem
    exact_mod_cast (hschema.packageMeasure _ hmeasure).1
  case productFamily =>
    intro family hmem
    have hget : familyByProduct.get? claim.canonicalProductId = some family := hfamily ▸ hmem
    obtain ⟨set, hset, rfl, -⟩ := (get?_familyByCanonicalProduct h.families _ _).mp hget
    intro hnil
    have hlength := (h.inspected.schema.sets set hset).familyId.1
    rw [hnil] at hlength
    simp at hlength

/-- The planner accepts the needs of a run. -/
theorem ReviewedRun.needSchema (hneed : need ∈ request.needs)
    (hplanning : mixedPlanningNeed planning.needMatches planning.productClaims need = .ok planningNeed) :
    NeedSchema (toLegacyNeed planningNeed) := by
  obtain ⟨hid, hrule, hamount, needMatch, hmem, hquery⟩ := mixedPlanningNeed_eq_ok hplanning
  have hvalid := h.validRequest.needs need hneed
  change planningNeed.id ≠ [] ∧ planningNeed.query ≠ [] ∧ 0 < planningNeed.requested.amount ∧
    planningNeed.matchRuleId ≠ []
  refine ⟨hid ▸ hvalid.id.ne_nil, ?_, hamount ▸ hvalid.quantity.1, hrule ▸ hvalid.id.ne_nil⟩
  obtain ⟨other, -, hmatch⟩ := Choices.exists_mem_of_forall₂ (Choices.mapM_eq_ok_iff.mp h.matched)
    hmem
  cases needMatch with
  | exactProduct needId ids =>
    obtain ⟨claim, hclaim, hname⟩ := Option.map_eq_some_iff.mp hquery
    obtain ⟨id, -, hby⟩ := Option.bind_eq_some_iff.mp hclaim
    rw [← hname]
    exact (h.summarySchema (mem_of_byId_eq_some hby).1).displayName.ne_nil
  | reviewedFamily needId set =>
    have hset : set ∈ planning.inspection.candidateSets := by
      unfold needMatchForMixedPlan at hmatch
      cases hkind : other.needMatch with
      | exactProduct gtin => simp [hkind, bind_eq_ok_iff, pure, Except.pure] at hmatch
      | reviewedFamily selection =>
        rw [hkind] at hmatch
        simp only [bind_eq_ok_iff, require_eq_ok_iff] at hmatch
        obtain ⟨set', hset', heq⟩ := hmatch
        cases Except.ok.inj heq
        exact (mem_of_byId_eq_some hset').1
    have hlabel : set.family.labelNo = planningNeed.query := Option.some.inj hquery
    intro hnil
    have hlength := (h.inspected.schema.sets set hset).family.labelNo.2.1
    rw [hlabel, hnil] at hlength
    simp at hlength

/-- The planner accepts the rules of a run. -/
theorem ReviewedRun.ruleSchema (hneed : need ∈ request.needs)
    (hrule : mixedMatchingRule planning.needMatches need = .ok rule) :
    MatchRuleSchema rule := by
  obtain ⟨hid, hexplanation, hmode⟩ := mixedMatchingRule_eq_ok hrule
  have hvalid := h.validRequest.needs need hneed
  refine ⟨hid ▸ hvalid.id.ne_nil, hexplanation, ?_⟩
  rw [hmode]
  cases hkind : need.needMatch with
  | exactProduct gtin =>
    exact gtinShape_of_isValidGtin (hvalid.gtin gtin (by simp [hkind, ReviewedFamilyPlanApiMatch.gtin?]))
  | reviewedFamily selection =>
    have hfamily := (hvalid.family selection
      (by simp [hkind, ReviewedFamilyPlanApiMatch.family?])).familyId
    change selection.familyId ≠ []
    intro hnil
    rw [hnil] at hfamily
    exact absurd hfamily (by decide)

/-! ### Candidates -/

/-- The match of a need names its candidates. -/
theorem ReviewedRun.isReviewedCandidates (hneed : need ∈ request.needs)
    {needMatch : ReviewedFamilyNeedMatch}
    (hmatch : needMatchForMixedPlan planning.inspection priceResult need = .ok needMatch) :
    IsReviewedCandidates host planning needMatch.candidateProductIds need.needMatch := by
  unfold needMatchForMixedPlan at hmatch
  cases hkind : need.needMatch with
  | exactProduct gtin =>
    rw [hkind] at hmatch
    simp only [bind_eq_ok_iff, require_eq_ok_iff] at hmatch
    obtain ⟨identity, hidentity, heq⟩ := hmatch
    cases heq
    have hclaims := claimsSpec_of_productClaimsForMixedPlan h.claims
    have hgtin : gtin ∈ exactProducts.map (·.gtin) := by
      rw [h.exactCover, exactCatalogGtins, canonicalStrings, mem_sortBy, List.mem_dedup,
        List.mem_filterMap]
      exact ⟨need, hneed, by rw [hkind]; rfl⟩
    obtain ⟨product, hproduct, rfl⟩ := List.mem_map.mp hgtin
    obtain ⟨claim, hclaim, rfl⟩ := hclaims.ofExact product hproduct
    have hid := hclaims.identified claim hclaim
    rw [IsIdentified, hidentity] at hid
    exact ⟨claim, hclaim, rfl, congrArg (fun id => [id]) (Option.some.inj hid)⟩
  | reviewedFamily selection =>
    rw [hkind] at hmatch
    simp only [bind_eq_ok_iff, require_eq_ok_iff] at hmatch
    obtain ⟨set, hset, heq⟩ := hmatch
    cases heq
    have hfamily : selection ∈ request.familyMatches :=
      List.mem_filterMap.mpr ⟨need, hneed, by rw [hkind]; rfl⟩
    obtain ⟨current, hcurrent, hid, -, -, hbrands⟩ := h.isConfirmed hfamily
    obtain rfl := Option.some.inj (hset.symm.trans hcurrent)
    obtain ⟨hmem, hfamilyId⟩ := mem_of_byId_eq_some hset
    refine ⟨set, hmem, hfamilyId, hid, hbrands, rfl, fun brands hb id hi => ?_⟩
    exact h.inspected.brands set hmem brands (hbrands ▸ hb) id hi

/-- A product satisfies the rule of a need when it is a candidate of the need. -/
theorem ReviewedRun.matchesConstraints_iff (hlower : host.KeepsLowerCase)
    (hneed : need ∈ request.needs)
    {needMatch : ReviewedFamilyNeedMatch}
    (hmatch : needMatchForMixedPlan planning.inspection priceResult need = .ok needMatch)
    (hrule : mixedMatchingRule planning.needMatches need = .ok rule)
    (hclaim : claim ∈ planning.productClaims)
    (hproduct : mixedPlanningProduct familyByProduct claim = .ok product) :
    matchesConstraints host (toLegacyProduct product) rule = true ↔
      claim.canonicalProductId ∈ needMatch.candidateProductIds := by
  obtain ⟨-, hean, -, -, -, hfamily⟩ := mixedPlanningProduct_eq_ok hproduct
  obtain ⟨-, -, hmode⟩ := mixedMatchingRule_eq_ok hrule
  have hclaims := claimsSpec_of_productClaimsForMixedPlan h.claims
  have hreviewed := h.isReviewedCandidates hneed hmatch
  cases hkind : need.needMatch with
  | exactProduct gtin =>
    rw [hkind] at hmode hreviewed
    obtain ⟨own, hown, rfl, hids⟩ := hreviewed
    have hconstraint : matchesConstraints host (toLegacyProduct product) rule = true ↔
        claim.product.gtin = own.product.gtin := by
      simp only [matchesConstraints, hmode, beq_iff_eq]
      exact ⟨fun heq => hean ▸ heq, fun heq => (hean.trans heq : product.ean = _)⟩
    rw [hconstraint, hids, List.mem_singleton]
    constructor
    · intro hgtin
      rw [List.inj_on_of_nodup_map hclaims.nodup_gtins hclaim hown hgtin]
    · intro hid
      rw [List.inj_on_of_nodup_map hclaims.unique hclaim hown hid]
  | reviewedFamily selection =>
    rw [hkind] at hmode hreviewed
    obtain ⟨set, hset, hfamilyId, -, -, hids, -⟩ := hreviewed
    have hnormalized : ∀ other ∈ planning.inspection.candidateSets,
        normalize host other.familyId = other.familyId := fun other hother =>
      normalize_familyId hlower (h.inspected.schema.sets other hother).familyId
    have hconstraint : matchesConstraints host (toLegacyProduct product) rule = true ↔
        familyByProduct.get? claim.canonicalProductId = some set.familyId := by
      simp only [matchesConstraints, hmode, matchesFamily, toLegacyProduct, hfamily,
        Option.any_eq_true, beq_iff_eq, ← hfamilyId]
      constructor
      · rintro ⟨own, hown, heq⟩
        obtain ⟨other, hother, rfl, -⟩ := (get?_familyByCanonicalProduct h.families _ _).mp hown
        rw [hnormalized other hother, hnormalized set hset] at heq
        rw [hown, heq]
      · intro hown
        exact ⟨_, hown, rfl⟩
    rw [hconstraint, get?_familyByCanonicalProduct h.families, hids]
    constructor
    · rintro ⟨other, hother, heq, hmem⟩
      rwa [List.inj_on_of_nodup_map h.nodup_families hother hset heq] at hmem
    · intro hmem
      exact ⟨set, hset, rfl, hmem⟩

/-- Every candidate is among the claims. -/
theorem ReviewedRun.exists_claim {m : ReviewedFamilyPlanApiMatch} {ids : List JsString}
    (hreviewed : IsReviewedCandidates host planning ids m) {id : JsString} (hid : id ∈ ids) :
    ∃ claim ∈ planning.productClaims, claim.canonicalProductId = id := by
  cases m with
  | exactProduct gtin =>
    obtain ⟨claim, hclaim, -, rfl⟩ := hreviewed
    exact ⟨claim, hclaim, (List.mem_singleton.mp hid).symm⟩
  | reviewedFamily selection =>
    obtain ⟨set, hset, -, -, -, rfl, -⟩ := hreviewed
    have hall : id ∈ planning.inspection.productClaims.map (·.canonicalProductId) := by
      rw [h.inspected.covered, canonicalStrings, mem_sortBy, List.mem_dedup]
      exact List.mem_flatMap.mpr ⟨set, hset, hid⟩
    obtain ⟨claim, hclaim, rfl⟩ := List.mem_map.mp hall
    exact ⟨claim, (claimsSpec_of_productClaimsForMixedPlan h.claims).ofInspection claim hclaim, rfl⟩

/-- What is matched for a need are its candidates. -/
theorem ReviewedRun.matchesCandidates (hlower : host.KeepsLowerCase) (hneed : need ∈ request.needs)
    (hplanning : mixedPlanningNeed planning.needMatches planning.productClaims need = .ok planningNeed) :
    ∃ needMatch ∈ planning.needMatches, MatchesCandidates host planning need planningNeed needMatch := by
  obtain ⟨needMatch, hmem, hneedId, hmatch⟩ := h.exists_needMatch hneed
  obtain ⟨rule, hget, hrule⟩ := h.exists_rule hneed
  obtain ⟨hid, hmatchRule, -, -⟩ := mixedPlanningNeed_eq_ok hplanning
  have hreviewed := h.isReviewedCandidates hneed hmatch
  refine ⟨needMatch, hmem, ⟨hid, hneedId⟩, hreviewed, ⟨rule, by rw [hmatchRule, hget], ?_⟩, ?_⟩
  · intro product
    have hrules : (toLegacyNeed planningNeed).matchRuleId = rule.id :=
      hmatchRule.trans (mixedMatchingRule_eq_ok hrule).1.symm
    rw [mem_matchProducts (h.needSchema hneed hplanning) (h.ruleSchema hneed hrule) hrules
      h.nodup_eans]
    constructor
    · rintro ⟨hlegacy, -, hconstraint⟩
      obtain ⟨own, hown, rfl⟩ := List.mem_map.mp hlegacy
      obtain ⟨claim, hclaim, hproduct⟩ := Choices.exists_mem_of_forall₂ h.input_spec.1 hown
      refine ⟨own, hown, rfl, ?_⟩
      rw [(mixedPlanningProduct_eq_ok hproduct).1]
      exact (h.matchesConstraints_iff hlower hneed hmatch hrule hclaim hproduct).mp hconstraint
    · rintro ⟨own, hown, rfl, hcandidate⟩
      obtain ⟨claim, hclaim, hproduct⟩ := Choices.exists_mem_of_forall₂ h.input_spec.1 hown
      rw [(mixedPlanningProduct_eq_ok hproduct).1] at hcandidate
      exact ⟨List.mem_map_of_mem hown, h.productSchema hclaim hproduct,
        (h.matchesConstraints_iff hlower hneed hmatch hrule hclaim hproduct).mpr hcandidate⟩
  · intro id hid
    obtain ⟨claim, hclaim, rfl⟩ := h.exists_claim hreviewed hid
    obtain ⟨product, hmemProduct, hproduct⟩ :=
      Choices.exists_choice_of_forall₂ h.input_spec.1 hclaim
    exact ⟨product, hmemProduct, (mixedPlanningProduct_eq_ok hproduct).1⟩

end

end Run

/-- An assignment of an enumerated plan gives a need of the input a product matched for it. -/
theorem exists_matched_of_mem_enumerate {input : ServerPlanningInputV2} {now : ℤ}
    {plan : PlanResultV2} (hplan : plan ∈ enumerateCompletePlanCandidatesV2 host input now)
    {a : PlanAssignmentV2} (ha : a ∈ plan.assignments) :
    ∃ need ∈ input.needs, ∃ rule product, ruleById input need.matchRuleId = some rule ∧
      product ∈ input.products ∧ a.needId = need.id ∧
      a.canonicalProductId = product.canonicalProductId ∧
      toLegacyProduct product ∈
        matchProducts host (toLegacyNeed need) rule (input.products.map toLegacyProduct) := by
  obtain ⟨hschema, subset, selected, hbest, rfl⟩ := exists_bestChoice_of_mem_enumerate hplan
  rw [mem_assignments_planOfAssignments] at ha
  obtain ⟨need, hneed, rule, hrule, hmem⟩ := Choices.exists_mem_of_forall₂ hbest.serves ha
  obtain ⟨observation, -, -, hmatched, hcandidate⟩ := mem_candidates.mp hmem
  obtain ⟨product, fulfilment, best, hproduct, -, -, rfl⟩ := candidateAt_spec hcandidate
  obtain ⟨hmemProduct, hean⟩ := (productByEan_eq_some_iff hschema).mp hproduct
  refine ⟨need, hneed, rule, product, hrule, hmemProduct, rfl, rfl, ?_⟩
  obtain ⟨legacy, hlegacy, heq⟩ := List.mem_map.mp hmatched
  have hunique : ((input.products.map toLegacyProduct).map (·.ean)).Nodup := by
    rw [List.map_map]
    exact hschema.uniqueEans
  obtain ⟨hmemRule, hid⟩ := (ruleById_eq_some_iff hschema).mp hrule
  have hsound := (mem_matchProducts (needSchema_toLegacyNeed (hschema.needs need hneed))
    (hschema.matchingRules rule hmemRule) hid.symm hunique).mp hlegacy
  have hsame : legacy = toLegacyProduct product :=
    List.inj_on_of_nodup_map hunique hsound.1 (List.mem_map_of_mem hmemProduct)
      (heq.trans hean.symm)
  rwa [← hsame]

/-- **The products planned for a reviewed need are its reviewed candidates**, in every successful
run of the service: what `matchProducts` finds for a need are the products of the candidates of the
need, all of them, and a plan gives the need one of these.

**Proof sketch.** Every claim is identified by its GTIN, so claims, GTINs and canonical products
correspond, and an exact rule matches the one product it names. A product has the family of the
candidate set it is in, and `normalize` leaves identifiers of families alone, so a flexible rule
matches the candidates of its family. The planner takes products from what is matched. -/
theorem matchProducts_eq_candidates (hlower : host.KeepsLowerCase)
    (h : calculateReviewed host request evaluatedAt answers = .ok planning) :
    (∀ need ∈ request.needs, ∃ planningNeed ∈ planning.planningInput.needs,
      ∃ needMatch ∈ planning.needMatches,
        MatchesCandidates host planning need planningNeed needMatch) ∧
    ∀ now, ∀ plan ∈ enumerateCompletePlanCandidatesV2 host planning.planningInput now,
      ∀ a ∈ plan.assignments, ∃ need ∈ request.needs, ∃ needMatch ∈ planning.needMatches,
        need.id = a.needId ∧ needMatch.needId = a.needId ∧
          IsReviewedCandidates host planning needMatch.candidateProductIds need.needMatch ∧
          a.canonicalProductId ∈ needMatch.candidateProductIds := by
  obtain ⟨selections, exactProducts, priceResult, familyByProduct, hrun⟩ := exists_reviewedRun h
  constructor
  · intro need hneed
    obtain ⟨planningNeed, hmem, hplanning⟩ :=
      Choices.exists_choice_of_forall₂ hrun.input_spec.2.2 hneed
    exact ⟨planningNeed, hmem, hrun.matchesCandidates hlower hneed hplanning⟩
  · intro now plan hplan a ha
    obtain ⟨planningNeed, hmemPlanning, rule, product, hrule, hproduct, hneedId, hid, hmatched⟩ :=
      exists_matched_of_mem_enumerate hplan ha
    obtain ⟨need, hneed, hplanning⟩ :=
      Choices.exists_mem_of_forall₂ hrun.input_spec.2.2 hmemPlanning
    obtain ⟨needMatch, hmem, hmatches⟩ := hrun.matchesCandidates hlower hneed hplanning
    obtain ⟨rule', hrule', hadmits⟩ := hmatches.admits
    obtain rfl := Option.some.inj (hrule.symm.trans hrule')
    obtain ⟨own, hown, hlegacy, hcandidate⟩ := (hadmits _).mp hmatched
    have hsame : own = product := by
      refine List.inj_on_of_nodup_map (f := fun p : PlanningProductV2 => (toLegacyProduct p).ean)
        ?_ hown hproduct (by rw [hlegacy])
      have heans := hrun.nodup_eans
      rwa [List.map_map] at heans
    refine ⟨need, hneed, needMatch, hmem, ?_, ?_, hmatches.reviewed, ?_⟩
    · rw [hneedId, hmatches.sameNeed.1]
    · rw [hneedId, hmatches.sameNeed.1, hmatches.sameNeed.2]
    · rw [hid, ← hsame]
      exact hcandidate

/-! ### A request for one bread and any milk -/

/-- The runtime on ASCII texts leaves lower case alone. -/
theorem keepsLowerCase_ascii : Host.ascii.KeepsLowerCase := by
  intro s hs
  change s.map (fun u => if 65 ≤ u ∧ u ≤ 90 then u + 32 else u) = s
  have hkept : ∀ u ∈ s, (if 65 ≤ u ∧ u ≤ 90 then u + 32 else u) = u := by
    intro u hu
    refine if_neg fun hupper => ?_
    have hletter := hs u hu
    simp only [isLowerAlphanumeric, isDigit, Bool.or_eq_true, Bool.and_eq_true, decide_eq_true_eq,
      ← UInt16.toNat_inj, UInt16.le_iff_toNat_le, UInt16.reduceToNat] at hletter hupper
    omega
  rw [List.map_congr_left hkept, List.map_id']

/-- A digest. -/
def zeroDigest : JsString := List.replicate 64 48

/-- The catalogue. -/
def catalogSource : ExactProductPlanApiEvidenceSource where
  id := js "katalog"
  displayName := js "Katalog"
  sourceClass := .catalog

/-- A product of the catalogue. -/
def catalogProduct (gtin displayName : JsString) : ExactProductPlanApiProductSummary where
  catalogEvidence :=
    { observedAt := 0
      source := catalogSource
      sourceRecordId := js "source-record:" ++ zeroDigest }
  gtin := gtin
  displayName := displayName
  brand := none
  packageMeasure := some { amount := 1, unit := .package }
  unitsPerPack := 1

/-- The family of milk. -/
def milkFamily : ReviewedFamilyDescriptor where
  id := js "family:melk"
  slug := js "melk"
  labelNo := js "Melk"
  aliases := []
  parentId := none
  status := .active

/-- One package of the bread and one of any milk. -/
def breadAndMilk : ReviewedFamilyPlanApiRequestV2 where
  enabledMembershipProgramIds := []
  marketContext := .national
  maxStores := 1
  needs :=
    [ { id := js "brod", needMatch := .exactProduct (js "00000000"), quantity := 1,
        quantityUnit := .package },
      { id := js "melk"
        needMatch := .reviewedFamily
          { allowedBrands := none
            candidateSetId := js "candidate-set:" ++ zeroDigest
            taxonomyVersionId := js "mat@1.0.0"
            familyId := js "family:melk" }
        quantity := 1
        quantityUnit := .package } ]

/-- The milk is the one candidate of its family, and both products are priced. -/
def breadAndMilkAnswers : ReviewedAnswers where
  inspection := some
    { candidateSets :=
        [{ allowedBrands := none
           candidateProductIds := [js "p-melk"]
           candidateSetId := js "candidate-set:" ++ zeroDigest
           family := milkFamily
           familyId := js "family:melk"
           taxonomyVersionId := js "mat@1.0.0" }]
      generatedAt := 0
      memberships :=
        [{ canonicalProductId := js "p-melk"
           decisionId := js "family-membership:1"
           familyId := js "family:melk"
           reviewedAt := 0
           method := .humanReview }]
      productClaims :=
        [{ canonicalProductId := js "p-melk"
           product := catalogProduct (js "00000017") (js "Melk") }]
      sources := [catalogSource]
      taxonomy :=
        { contentSha256 := zeroDigest
          publishedAt := 0
          taxonomyId := js "mat"
          taxonomyVersion := js "1.0.0"
          versionId := js "mat@1.0.0" } }
  catalog := some [catalogProduct (js "00000000") (js "Brod")]
  prices := some
    { geographicDirectory := none
      productEvidence :=
        [ { gtin := js "00000000", canonicalProductId := js "p-brod", officialOffers := [] },
          { gtin := js "00000017", canonicalProductId := js "p-melk", officialOffers := [] } ]
      prices :=
        [ { ean := js "00000000", chain := .bunnpris, amountOre := 3000, observedAt := 0,
            source := js "priser" },
          { ean := js "00000017", chain := .bunnpris, amountOre := 2000, observedAt := 0,
            source := js "priser" } ]
      products :=
        [ { canonicalProductId := js "p-brod", gtin := js "00000000" },
          { canonicalProductId := js "p-melk", gtin := js "00000017" } ]
      sources := [] }

/-- The bread is planned for the first need and the milk for the second. -/
theorem matchProducts_eq_candidates_bread_and_milk :
    ∃ planning, calculateReviewed Host.ascii breadAndMilk 0 breadAndMilkAnswers = .ok planning ∧
      (enumerateCompletePlanCandidatesV2 Host.ascii planning.planningInput 0).length = 1 ∧
      ∀ need ∈ breadAndMilk.needs, ∃ planningNeed ∈ planning.planningInput.needs,
        ∃ needMatch ∈ planning.needMatches,
          MatchesCandidates Host.ascii planning need planningNeed needMatch := by
  have hplans : ((calculateReviewed Host.ascii breadAndMilk 0 breadAndMilkAnswers).toOption.map
      fun planning => (enumerateCompletePlanCandidatesV2 Host.ascii planning.planningInput 0).length)
        = some 1 := by decide +kernel
  cases hrun : calculateReviewed Host.ascii breadAndMilk 0 breadAndMilkAnswers with
  | error error =>
    rw [hrun] at hplans
    cases hplans
  | ok planning =>
    rw [hrun] at hplans
    exact ⟨planning, rfl, Option.some.inj hplans,
      (matchProducts_eq_candidates keepsLowerCase_ascii hrun).1⟩

end Handleplan.PlanService
