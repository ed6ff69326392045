import Handleplan.Domain.Matching
import Handleplan.Domain.PlanApiContracts

/-!
# Contracts of the reviewed-family planning API

A request of the second contract mixes needs for one exact product with needs for a family whose
candidate products have been reviewed. The candidates of a family come from an inspection, which is
accepted for a list of requested families only.

## Main definitions

* `ReviewedFamilyPlanApiRequestV2` and its schema — the request.
* `ReviewedFamilyCandidateSet` — the reviewed candidates of one family.
* `ReviewedFamilyCandidateInspectionResponse` and
  `ReviewedFamilyCandidateInspectionResponseSchemaFor` — an inspection, and when it
  answers a request.

## Design

Contract versions, `kind`, `complete`, `required`, `userApproved`, `confidence` and `decision` are
literals of their schemas, so the records leave them out. The texts of `JSON.stringify` that the
request schema compares are compared here as the values they are the texts of.
-/

namespace Handleplan

open JsString Sorting

/-! ### Patterns -/

/-- A letter from `a` to `z` or a digit. -/
def isLowerAlphanumeric (u : UInt16) : Bool := (97 ≤ u && u ≤ 122) || isDigit u

/-- A hexadecimal digit in lower case. -/
def isLowerHex (u : UInt16) : Bool := (97 ≤ u && u ≤ 102) || isDigit u

variable (s : JsString)

/-- `taxonomyIdentifierShape`, the pattern `/^[a-z0-9]+(?:-[a-z0-9]+)*$/`. -/
def taxonomyIdentifierShape : Bool :=
  (s.splitOn 45).all fun part => !part.isEmpty && part.all isLowerAlphanumeric

/-- `familyIdentifierShape`, the pattern `/^family:[a-z0-9]+(?:-[a-z0-9]+)*$/`. -/
def familyIdentifierShape : Bool :=
  s.take 7 == js "family:" && taxonomyIdentifierShape (s.drop 7)

/-- The pattern `/^(?:0|[1-9]\d*)$/`. -/
def canonicalNumeral : Bool :=
  s == js "0" || (s.head?.any (fun u => 49 ≤ u && u ≤ 57) && s.all isDigit)

/-- `taxonomyVersionShape`: three numerals with points between them. -/
def taxonomyVersionShape : Bool :=
  (s.splitOn 46).length == 3 && (s.splitOn 46).all canonicalNumeral

/-- The pattern `/^[0-9a-f]{64}$/`. -/
def sha256Shape : Bool := s.length == 64 && s.all isLowerHex

/-- The pattern `/^candidate-set:[0-9a-f]{64}$/`. -/
def candidateSetIdShape : Bool :=
  s.take 14 == js "candidate-set:" && sha256Shape (s.drop 14)

/-- The pattern of the identifier of a taxonomy version: an identifier, `@` and a version. -/
def taxonomyVersionIdShape : Bool :=
  match s.splitOn 64 with
  | [taxonomyId, taxonomyVersion] =>
    taxonomyIdentifierShape taxonomyId && taxonomyVersionShape taxonomyVersion
  | _ => false

/-- The pattern `/^family-membership:[1-9][0-9]{0,18}$/`. -/
def membershipDecisionIdShape : Bool :=
  s.take 18 == js "family-membership:" && (s.drop 18).head?.any (fun u => 49 ≤ u && u ≤ 57) &&
    (s.drop 18).all isDigit && decide ((s.drop 18).length ≤ 19)

/-- A letter of a Norwegian alias, or a digit. -/
def isAliasLetter (u : UInt16) : Bool :=
  isLowerAlphanumeric u || u == 0xE6 || u == 0xF8 || u == 0xE5

/-- `norwegianAliasShape`: words with one blank or hyphen between them. -/
def norwegianAliasShape : Bool :=
  (s.splitOnP fun u => u == 32 || u == 45).all fun part =>
    !part.isEmpty && part.all isAliasLetter

/-- `familyIdentifierSchema`. -/
def FamilyIdentifierSchema : Prop :=
  8 ≤ s.length ∧ s.length ≤ 80 ∧ familyIdentifierShape s = true

instance : DecidablePred FamilyIdentifierSchema := fun _ => inferInstanceAs (Decidable (_ ∧ _ ∧ _))

/-- `reviewedFamilyTaxonomyVersionIdSchema`. -/
def TaxonomyVersionIdSchema : Prop :=
  7 ≤ s.length ∧ s.length ≤ 120 ∧ taxonomyVersionIdShape s = true

instance : DecidablePred TaxonomyVersionIdSchema := fun _ => inferInstanceAs (Decidable (_ ∧ _ ∧ _))

/-! ### Texts and brands -/

/-- `value.replace(/\s+/gu, " ")`, after a blank or not. -/
def collapseSpacesFrom : Bool → JsString → JsString
  | _, [] => []
  | afterSpace, u :: s =>
    if isSpace u then (if afterSpace then [] else [32]) ++ collapseSpacesFrom true s
    else u :: collapseSpacesFrom false s

/-- `canonicalStrings`. -/
def canonicalStrings (values : List JsString) : List JsString := sortBy compareText values.dedup

section Host

variable (host : Host)

/-- `normalizeReviewedFamilyAllowedBrand`. -/
def normalizeReviewedFamilyAllowedBrand (value : JsString) : JsString :=
  host.toLocaleLowerCase (collapseSpacesFrom false (trim (host.normalizeNFC value)))

/-- `reviewedFamilyAllowedBrandsInputSchema`. -/
@[mk_iff] structure AllowedBrandsInputSchema (brands : List JsString) : Prop where
  length : 1 ≤ brands.length ∧ brands.length ≤ 20
  normalized : ∀ brand ∈ brands, normalizeReviewedFamilyAllowedBrand host brand = brand ∧
    1 ≤ brand.length ∧ brand.length ≤ 120 ∧ host.hasControlOrFormat brand = false
  canonical : canonicalStrings brands = brands

instance : DecidablePred (AllowedBrandsInputSchema host) :=
  fun _ => decidable_of_iff' _ (allowedBrandsInputSchema_iff _ _)

/-- `canonicalReviewedFamilyAllowedBrandsSchema`. -/
@[mk_iff] structure CanonicalAllowedBrandsSchema (brands : List JsString) : Prop where
  length : 1 ≤ brands.length ∧ brands.length ≤ 20
  normalized : ∀ brand ∈ brands, normalizeReviewedFamilyAllowedBrand host brand = brand ∧
    1 ≤ brand.length ∧ brand.length ≤ 120
  unique : brands.Nodup
  canonical : HasCanonicalStringOrder brands

instance : DecidablePred (CanonicalAllowedBrandsSchema host) :=
  fun _ => decidable_of_iff' _ (canonicalAllowedBrandsSchema_iff _ _)

end Host

/-! ### The request -/

/-- `reviewedFamilyPlanApiMatchSchema`, the record; the identifiers of the candidate set and of the
taxonomy version are those of its `confirmation`. -/
structure ReviewedFamilyMatch where
  allowedBrands : Option (List JsString)
  candidateSetId : JsString
  taxonomyVersionId : JsString
  familyId : JsString

/-- `match` of a need: one exact product, by its GTIN, or a reviewed family. -/
inductive ReviewedFamilyPlanApiMatch where
  | exactProduct (gtin : JsString)
  | reviewedFamily (selection : ReviewedFamilyMatch)

/-- A need of the request; `needMatch` is `match`. -/
structure ReviewedFamilyPlanApiNeed where
  id : JsString
  needMatch : ReviewedFamilyPlanApiMatch
  quantity : ℕ
  quantityUnit : QuantityUnit

/-- `ReviewedFamilyPlanApiRequestV2`. -/
structure ReviewedFamilyPlanApiRequestV2 where
  enabledMembershipProgramIds : List JsString
  marketContext : MarketContextV1
  maxStores : ℕ
  needs : List ReviewedFamilyPlanApiNeed

/-- The family a need is for. -/
def ReviewedFamilyPlanApiMatch.family? : ReviewedFamilyPlanApiMatch → Option ReviewedFamilyMatch
  | .exactProduct _ => none
  | .reviewedFamily selection => some selection

/-- The GTIN a need is for. -/
def ReviewedFamilyPlanApiMatch.gtin? : ReviewedFamilyPlanApiMatch → Option JsString
  | .exactProduct gtin => some gtin
  | .reviewedFamily _ => none

/-- The families of the needs of a request, in order. -/
def ReviewedFamilyPlanApiRequestV2.familyMatches (request : ReviewedFamilyPlanApiRequestV2) :
    List ReviewedFamilyMatch :=
  request.needs.filterMap (·.needMatch.family?)

/-- What the confirmation of a candidate set binds. -/
def ReviewedFamilyMatch.selection (m : ReviewedFamilyMatch) :
    Option (List JsString) × JsString × JsString :=
  (m.allowedBrands, m.familyId, m.taxonomyVersionId)

section Host

variable (host : Host)

/-- `reviewedFamilyPlanApiMatchSchema`. -/
@[mk_iff] structure ReviewedFamilyMatchSchema (m : ReviewedFamilyMatch) : Prop where
  allowedBrands : ∀ brands ∈ m.allowedBrands, AllowedBrandsInputSchema host brands
  candidateSetId : candidateSetIdShape m.candidateSetId = true
  taxonomyVersionId : TaxonomyVersionIdSchema m.taxonomyVersionId
  familyId : FamilyIdentifierSchema m.familyId

instance : DecidablePred (ReviewedFamilyMatchSchema host) :=
  fun _ => decidable_of_iff' _ (reviewedFamilyMatchSchema_iff _ _)

/-- `exactProductPlanApiNeedSchema` and `reviewedFamilyPlanApiNeedSchema`. -/
@[mk_iff] structure ReviewedFamilyPlanApiNeedSchema (need : ReviewedFamilyPlanApiNeed) : Prop where
  id : IdentifierSchema need.id
  gtin : ∀ gtin ∈ need.needMatch.gtin?, isValidGtin gtin = true
  family : ∀ selection ∈ need.needMatch.family?, ReviewedFamilyMatchSchema host selection
  quantity : PositiveSafeInteger need.quantity

instance : DecidablePred (ReviewedFamilyPlanApiNeedSchema host) :=
  fun _ => decidable_of_iff' _ (reviewedFamilyPlanApiNeedSchema_iff _ _)

/-- `reviewedFamilyPlanApiRequestV2Schema`. -/
@[mk_iff] structure ReviewedFamilyPlanApiRequestV2Schema
    (request : ReviewedFamilyPlanApiRequestV2) : Prop where
  enabledMembershipProgramIds :
    EnabledMembershipProgramIdsSchema host request.enabledMembershipProgramIds
  marketContext : MarketContextV1Schema request.marketContext
  maxStores : 1 ≤ request.maxStores ∧ request.maxStores ≤ 3
  length_needs : 1 ≤ request.needs.length ∧ request.needs.length ≤ 50
  needs : ∀ need ∈ request.needs, ReviewedFamilyPlanApiNeedSchema host need
  uniqueNeeds : (request.needs.map (·.id)).Nodup
  hasFamily : request.familyMatches ≠ []
  confirmations : ∀ a ∈ request.familyMatches, ∀ b ∈ request.familyMatches,
    a.candidateSetId = b.candidateSetId ↔ a.selection = b.selection

instance : DecidablePred (ReviewedFamilyPlanApiRequestV2Schema host) :=
  fun _ => decidable_of_iff' _ (reviewedFamilyPlanApiRequestV2Schema_iff _ _)

end Host

/-! ### Families and candidates -/

/-- `status` of a family. -/
inductive FamilyStatus where
  | active | retired
  deriving DecidableEq

/-- `ReviewedFamilyDescriptor`. -/
structure ReviewedFamilyDescriptor where
  id : JsString
  slug : JsString
  labelNo : JsString
  aliases : List JsString
  parentId : Option JsString
  status : FamilyStatus

/-- `ReviewedFamilyCandidateSet`. -/
structure ReviewedFamilyCandidateSet where
  allowedBrands : Option (List JsString)
  candidateProductIds : List JsString
  candidateSetId : JsString
  family : ReviewedFamilyDescriptor
  familyId : JsString
  taxonomyVersionId : JsString

/-- `ReviewedFamilyProductClaim`. -/
structure ReviewedFamilyProductClaim where
  canonicalProductId : JsString
  product : ExactProductPlanApiProductSummary
  deriving DecidableEq

/-- `method` of a membership, with the version of the rule that made it. -/
inductive MembershipMethod where
  | humanReview
  | deterministicRule (ruleVersion : JsString)

/-- `ruleVersion`. -/
def MembershipMethod.ruleVersion? : MembershipMethod → Option JsString
  | .humanReview => none
  | .deterministicRule ruleVersion => some ruleVersion

/-- `ReviewedFamilyPublicMembershipEvidence`. -/
structure ReviewedFamilyPublicMembershipEvidence where
  canonicalProductId : JsString
  decisionId : JsString
  familyId : JsString
  reviewedAt : ℤ
  method : MembershipMethod

/-- `ReviewedFamilyPublicTaxonomyEvidence`. -/
structure ReviewedFamilyPublicTaxonomyEvidence where
  contentSha256 : JsString
  publishedAt : ℤ
  taxonomyId : JsString
  taxonomyVersion : JsString
  versionId : JsString

section Host

variable (host : Host)

/-- `reviewedFamilyDescriptorSchema`. -/
@[mk_iff] structure ReviewedFamilyDescriptorSchema (family : ReviewedFamilyDescriptor) : Prop where
  id : FamilyIdentifierSchema family.id
  slug : 1 ≤ family.slug.length ∧ family.slug.length ≤ 80 ∧
    taxonomyIdentifierShape family.slug = true
  labelNo : trim family.labelNo = family.labelNo ∧ 1 ≤ family.labelNo.length ∧
    family.labelNo.length ≤ 160
  length_aliases : family.aliases.length ≤ 20
  aliases : ∀ name ∈ family.aliases, 1 ≤ name.length ∧ name.length ≤ 80 ∧
    norwegianAliasShape name = true ∧ host.normalizeNFC name = name
  parentId : ∀ parentId ∈ family.parentId, FamilyIdentifierSchema parentId
  uniqueAliases : family.aliases.Nodup

instance : DecidablePred (ReviewedFamilyDescriptorSchema host) :=
  fun _ => decidable_of_iff' _ (reviewedFamilyDescriptorSchema_iff _ _)

/-- `reviewedFamilyCandidateSetSchema`. -/
@[mk_iff] structure ReviewedFamilyCandidateSetSchema (set : ReviewedFamilyCandidateSet) :
    Prop where
  allowedBrands : ∀ brands ∈ set.allowedBrands, CanonicalAllowedBrandsSchema host brands
  length_candidates : 1 ≤ set.candidateProductIds.length ∧ set.candidateProductIds.length ≤ 50
  candidates : ∀ id ∈ set.candidateProductIds, IdentifierSchema id
  candidateSetId : candidateSetIdShape set.candidateSetId = true
  family : ReviewedFamilyDescriptorSchema host set.family
  familyId : FamilyIdentifierSchema set.familyId
  taxonomyVersionId : TaxonomyVersionIdSchema set.taxonomyVersionId
  uniqueCandidates : set.candidateProductIds.Nodup
  canonicalCandidates : HasCanonicalStringOrder set.candidateProductIds

instance : DecidablePred (ReviewedFamilyCandidateSetSchema host) :=
  fun _ => decidable_of_iff' _ (reviewedFamilyCandidateSetSchema_iff _ _)

end Host

/-- `reviewedFamilyPublicMembershipEvidenceSchema`. -/
@[mk_iff] structure MembershipEvidenceSchema
    (membership : ReviewedFamilyPublicMembershipEvidence) : Prop where
  canonicalProductId : IdentifierSchema membership.canonicalProductId
  decisionId : membershipDecisionIdShape membership.decisionId = true
  familyId : FamilyIdentifierSchema membership.familyId
  reviewedAt : CanonicalTimestamp membership.reviewedAt
  ruleVersion : ∀ ruleVersion ∈ membership.method.ruleVersion?, NonEmptyStringSchema ruleVersion

instance : DecidablePred MembershipEvidenceSchema :=
  fun _ => decidable_of_iff' _ (membershipEvidenceSchema_iff _)

/-- `reviewedFamilyPublicTaxonomyEvidenceSchema`. -/
@[mk_iff] structure TaxonomyEvidenceSchema (taxonomy : ReviewedFamilyPublicTaxonomyEvidence) :
    Prop where
  contentSha256 : sha256Shape taxonomy.contentSha256 = true
  publishedAt : CanonicalTimestamp taxonomy.publishedAt
  taxonomyId : 1 ≤ taxonomy.taxonomyId.length ∧ taxonomy.taxonomyId.length ≤ 80 ∧
    taxonomyIdentifierShape taxonomy.taxonomyId = true
  taxonomyVersion : 5 ≤ taxonomy.taxonomyVersion.length ∧ taxonomy.taxonomyVersion.length ≤ 32 ∧
    taxonomyVersionShape taxonomy.taxonomyVersion = true
  versionId : TaxonomyVersionIdSchema taxonomy.versionId
  bound : taxonomy.versionId = taxonomy.taxonomyId ++ js "@" ++ taxonomy.taxonomyVersion

instance : DecidablePred TaxonomyEvidenceSchema :=
  fun _ => decidable_of_iff' _ (taxonomyEvidenceSchema_iff _)

/-! ### Inspections -/

/-- An entry of `families` of an inspection request. -/
structure CandidateSelection where
  familyId : JsString
  allowedBrands : Option (List JsString)

/-- `ReviewedFamilyCandidateInspectionResponse`. -/
structure ReviewedFamilyCandidateInspectionResponse where
  candidateSets : List ReviewedFamilyCandidateSet
  generatedAt : ℤ
  memberships : List ReviewedFamilyPublicMembershipEvidence
  productClaims : List ReviewedFamilyProductClaim
  sources : List ExactProductPlanApiEvidenceSource
  taxonomy : ReviewedFamilyPublicTaxonomyEvidence

/-- `membershipKey` and `candidateKey`. -/
def candidateKey (familyId canonicalProductId : JsString) : JsString :=
  familyId ++ 0 :: canonicalProductId

/-- `allCandidateIds`. -/
def ReviewedFamilyCandidateInspectionResponse.allCandidateIds
    (response : ReviewedFamilyCandidateInspectionResponse) : List JsString :=
  response.candidateSets.flatMap (·.candidateProductIds)

/-- `expectedMembershipKeys`. -/
def ReviewedFamilyCandidateInspectionResponse.expectedMembershipKeys
    (response : ReviewedFamilyCandidateInspectionResponse) : List JsString :=
  sortBy compareText (response.candidateSets.flatMap fun set =>
    set.candidateProductIds.map (candidateKey set.familyId))

/-- `reviewedFamilyProductClaimSchema`. -/
def ReviewedFamilyProductClaimSchema (claim : ReviewedFamilyProductClaim) : Prop :=
  IdentifierSchema claim.canonicalProductId ∧ ExactProductPlanApiProductSummarySchema claim.product

instance : DecidablePred ReviewedFamilyProductClaimSchema :=
  fun _ => inferInstanceAs (Decidable (_ ∧ _))

/-- Whether a catalogue record is approved and current at an instant. -/
def HasCurrentCatalogEvidence (at_ : ℤ) (product : ExactProductPlanApiProductSummary) : Prop :=
  product.catalogEvidence.source.sourceClass = .catalog ∧
    product.catalogEvidence.observedAt ≤ at_ ∧
    at_ - product.catalogEvidence.observedAt ≤ exactProductCatalogMaxAgeMs

instance (at_ : ℤ) : DecidablePred (HasCurrentCatalogEvidence at_) :=
  fun _ => inferInstanceAs (Decidable (_ ∧ _ ∧ _))

section Host

variable (host : Host)

/-- `reviewedFamilyCandidateInspectionRequestSchema`, on the families of a request. -/
@[mk_iff] structure CandidateInspectionRequestSchema (families : List CandidateSelection) :
    Prop where
  length : 1 ≤ families.length ∧ families.length ≤ 20
  familyId : ∀ selection ∈ families, FamilyIdentifierSchema selection.familyId
  allowedBrands : ∀ selection ∈ families, ∀ brands ∈ selection.allowedBrands,
    AllowedBrandsInputSchema host brands
  unique : (families.map (·.familyId)).Nodup

instance : DecidablePred (CandidateInspectionRequestSchema host) :=
  fun _ => decidable_of_iff' _ (candidateInspectionRequestSchema_iff _ _)

/-- `reviewedFamilyCandidateInspectionResponseSchema`. -/
@[mk_iff] structure ReviewedFamilyCandidateInspectionResponseSchema
    (response : ReviewedFamilyCandidateInspectionResponse) : Prop where
  length_sets : 1 ≤ response.candidateSets.length ∧ response.candidateSets.length ≤ 20
  sets : ∀ set ∈ response.candidateSets, ReviewedFamilyCandidateSetSchema host set
  generatedAt : CanonicalTimestamp response.generatedAt
  length_memberships : 1 ≤ response.memberships.length ∧ response.memberships.length ≤ 50
  memberships : ∀ membership ∈ response.memberships, MembershipEvidenceSchema membership
  length_claims : 1 ≤ response.productClaims.length ∧ response.productClaims.length ≤ 50
  claims : ∀ claim ∈ response.productClaims, ReviewedFamilyProductClaimSchema claim
  length_sources : 1 ≤ response.sources.length ∧ response.sources.length ≤ 100
  sources : ∀ source ∈ response.sources, ExactProductPlanApiEvidenceSourceSchema source
  taxonomy : TaxonomyEvidenceSchema response.taxonomy

instance : DecidablePred (ReviewedFamilyCandidateInspectionResponseSchema host) :=
  fun _ => decidable_of_iff' _ (reviewedFamilyCandidateInspectionResponseSchema_iff _ _)

/-- Whether a candidate set answers the selection of its family. -/
def AnswersSelection (taxonomyVersionId : JsString) (families : List CandidateSelection)
    (set : ReviewedFamilyCandidateSet) : Prop :=
  (∃ selection ∈ byId (·.familyId) families set.familyId,
      set.allowedBrands = selection.allowedBrands) ∧
    set.family.id = set.familyId ∧ set.family.status = .active ∧
      set.taxonomyVersionId = taxonomyVersionId

instance (taxonomyVersionId : JsString) (families : List CandidateSelection) :
    DecidablePred (AnswersSelection taxonomyVersionId families) :=
  fun _ => inferInstanceAs (Decidable (_ ∧ _ ∧ _ ∧ _))

/-- Whether the brand of a candidate is among those its set is filtered by. -/
def HasAllowedBrand (claims : List ReviewedFamilyProductClaim) (brands : List JsString)
    (canonicalProductId : JsString) : Prop :=
  ∃ brand ∈ (byId (·.canonicalProductId) claims canonicalProductId).bind (·.product.brand),
    normalizeReviewedFamilyAllowedBrand host brand ∈ brands

instance (claims : List ReviewedFamilyProductClaim) (brands : List JsString) :
    DecidablePred (HasAllowedBrand host claims brands) :=
  fun _ => inferInstanceAs (Decidable (∃ _ ∈ _, _))

/-- `reviewedFamilyCandidateInspectionResponseSchemaFor`. -/
@[mk_iff] structure ReviewedFamilyCandidateInspectionResponseSchemaFor
    (families : List CandidateSelection)
    (response : ReviewedFamilyCandidateInspectionResponse) : Prop where
  schema : ReviewedFamilyCandidateInspectionResponseSchema host response
  publication : response.taxonomy.publishedAt ≤ response.generatedAt
  requested : response.candidateSets.map (·.familyId) =
    (sortBy (on (·.familyId) compareText) families).map (·.familyId)
  uniqueSets : (response.candidateSets.map (·.candidateSetId)).Nodup
  unambiguous : response.allCandidateIds.length ≤ 50 ∧ response.allCandidateIds.Nodup
  bound : ∀ set ∈ response.candidateSets, AnswersSelection response.taxonomy.versionId families set
  uniqueClaims : (response.productClaims.map (·.canonicalProductId)).Nodup
  canonicalClaims : HasCanonicalStringOrder (response.productClaims.map (·.canonicalProductId))
  covered : response.productClaims.map (·.canonicalProductId) =
    canonicalStrings response.allCandidateIds
  uniqueGtins : (response.productClaims.map (·.product.gtin)).Nodup
  catalog : ∀ claim ∈ response.productClaims,
    HasCurrentCatalogEvidence response.generatedAt claim.product
  uniqueDecisions : (response.memberships.map (·.decisionId)).Nodup
  memberships : response.memberships.map (fun m => candidateKey m.familyId m.canonicalProductId) =
    response.expectedMembershipKeys
  uniqueMemberships :
    (response.memberships.map fun m => candidateKey m.familyId m.canonicalProductId).Nodup
  reviewed : ∀ membership ∈ response.memberships, membership.reviewedAt ≤ response.generatedAt
  uniqueSources : (response.sources.map (·.id)).Nodup
  canonicalSources : response.sources.map (·.id) =
    canonicalStrings (response.productClaims.map (·.product.catalogEvidence.source.id))
  embedded : ∀ claim ∈ response.productClaims,
    byId (·.id) response.sources claim.product.catalogEvidence.source.id =
      some claim.product.catalogEvidence.source
  brands : ∀ set ∈ response.candidateSets, ∀ brands ∈ set.allowedBrands,
    ∀ id ∈ set.candidateProductIds, HasAllowedBrand host response.productClaims brands id

instance (families : List CandidateSelection) :
    DecidablePred (ReviewedFamilyCandidateInspectionResponseSchemaFor host families) :=
  fun _ => decidable_of_iff' _ (reviewedFamilyCandidateInspectionResponseSchemaFor_iff _ _ _)

end Host

/-! ### Identifiers of families -/

/-- What holds of the members of the parts of a list holds of its members, but for the
separators. -/
theorem forall_mem_of_forall_splitOnP {α : Type*} {p : α → Bool} {q : α → Prop} {l : List α}
    (h : ∀ part ∈ l.splitOnP p, ∀ a ∈ part, q a) : ∀ a ∈ l, p a = true ∨ q a := by
  induction l with
  | nil => simp
  | cons b l ih =>
    rw [List.splitOnP_cons_eq_if_modifyHead] at h
    obtain ⟨part, parts, hparts⟩ := List.exists_cons_of_ne_nil (List.splitOnP_ne_nil p l)
    by_cases hb : p b = true
    · rw [if_pos hb] at h
      intro a ha
      obtain rfl | ha := List.mem_cons.mp ha
      · exact Or.inl hb
      · exact ih (fun part hpart => h part (List.mem_cons_of_mem _ hpart)) a ha
    · rw [if_neg hb, hparts, List.modifyHead_cons] at h
      have hhead : q b ∧ ∀ a ∈ part, q a := by
        simpa using h (b :: part) List.mem_cons_self
      intro a ha
      obtain rfl | ha := List.mem_cons.mp ha
      · exact Or.inr hhead.1
      · refine ih (fun part' hpart' => ?_) a ha
        rw [hparts] at hpart'
        obtain rfl | hpart' := List.mem_cons.mp hpart'
        · exact hhead.2
        · exact h part' (List.mem_cons_of_mem _ hpart')

/-- Lower casing leaves letters in lower case, digits, hyphens and colons alone. -/
def Host.KeepsLowerCase (host : Host) : Prop :=
  ∀ s : JsString, (∀ u ∈ s, isLowerAlphanumeric u = true ∨ u = 45 ∨ u = 58) →
    host.toLocaleLowerCase s = s

/-- The identifier of a family has letters in lower case, digits, hyphens and a colon only. -/
theorem FamilyIdentifierSchema.mem {s : JsString} (h : FamilyIdentifierSchema s) :
    ∀ u ∈ s, isLowerAlphanumeric u = true ∨ u = 45 ∨ u = 58 := by
  obtain ⟨-, -, hshape⟩ := h
  simp only [familyIdentifierShape, taxonomyIdentifierShape, Bool.and_eq_true, beq_iff_eq,
    List.all_eq_true, List.splitOn_eq_splitOnP] at hshape
  obtain ⟨hhead, hparts⟩ := hshape
  have hrest := forall_mem_of_forall_splitOnP (fun part hpart => (hparts part hpart).2)
  intro u hu
  rw [← List.take_append_drop 7 s, List.mem_append, hhead] at hu
  obtain hu | hu := hu
  · have hall : ∀ u ∈ js "family:", isLowerAlphanumeric u = true ∨ u = 45 ∨ u = 58 := by decide
    exact hall u hu
  · obtain hsep | hletter := hrest u hu
    · exact Or.inr (Or.inl (by simpa using hsep))
    · exact Or.inl hletter

/-- `normalize` leaves the identifier of a family alone. -/
theorem normalize_familyId {host : Host} (hlower : host.KeepsLowerCase) {s : JsString}
    (h : FamilyIdentifierSchema s) : normalize host s = s := by
  have hspace : ∀ u : UInt16, isLowerAlphanumeric u = true ∨ u = 45 ∨ u = 58 →
      isSpace u = false := by
    intro u hu
    simp only [isLowerAlphanumeric, isDigit, isSpace, Bool.or_eq_true, Bool.and_eq_true,
      decide_eq_true_eq, Bool.or_eq_false_iff, Bool.and_eq_false_iff, decide_eq_false_iff_not,
      beq_eq_false_iff_ne, ne_eq, ← UInt16.toNat_inj, UInt16.le_iff_toNat_le] at hu ⊢
    simp only [UInt16.reduceToNat] at hu ⊢
    omega
  rw [normalize, trim_eq_self fun u hu => hspace u (h.mem u hu), hlower s h.mem]

end Handleplan
