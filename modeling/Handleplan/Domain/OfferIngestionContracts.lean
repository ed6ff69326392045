import Handleplan.Domain.Geography
import Handleplan.Lib.Sorting

/-!
# Official-offer ingestion contracts

The records that pass through the official-offer foundation: authorization fences, editions, capture
metadata, extraction envelopes and the candidates in them, with their schemas.

## Main definitions

* `OfficialOfferAuthorizationFence` — an approval of a source with its capabilities.
* `OfficialOfferEdition` — `OfficialOfferEditionDiscoveryInputV1`.
* `OfficialOfferCaptureMetadata`, `OfficialOfferExtractionTiming`.
* `ExtractedOfficialOfferCandidate`, `OfficialOfferExtractionEnvelope` — what
  an extractor returns.
* `OfficialOfferExtractionValidationContext` — what a validation expects and looks up.

## Main results

* `officialOfferExtractionEnvelopeSchema_iff_of_shared` — when an envelope of candidates
  that share their scope meets its contract.

## Implementation notes

An authorization clock is written with three or with six digits after the point, and two texts of
one instant differ; a clock is hence its milliseconds with the digits that may follow. The literal
contract versions are left out.
-/

namespace Handleplan

open JsString Sorting

/-! ### Enumerations -/

/-- `officialOfferRightsClassificationSchema`. -/
inductive RightsClassification where
  | privateReview | extractOnly | publicDisplay
  deriving DecidableEq

/-- The text of a rights classification. -/
def RightsClassification.text : RightsClassification → JsString
  | .privateReview => js "private_review"
  | .extractOnly => js "extract_only"
  | .publicDisplay => js "public_display"

/-- `officialOfferExtractionMethodSchema`. -/
inductive ExtractionMethod where
  | structured | embeddedText | ocr
  deriving DecidableEq

/-- `officialOfferAuthorizationCapabilitySchema`. -/
inductive AuthorizationCapability where
  | capture | discover | extract | ocr
  deriving DecidableEq

/-- The text of a capability. -/
def AuthorizationCapability.text : AuthorizationCapability → JsString
  | .capture => js "capture"
  | .discover => js "discover"
  | .extract => js "extract"
  | .ocr => js "ocr"

/-- `officialOfferAnomalyCodeSchema`. -/
inductive AnomalyCode where
  | ambiguousProduct | beforePriceBelowOffer | duplicateCandidateKey | duplicateOffer
  | extractorAnomaly | layoutDrift | ocrReviewRequired | packageUnknown | schemaDrift
  | scopeMismatch | unexpectedEmpty | unknownScope | unmatchedProduct | unreadableDate
  | validityOutsideEdition
  deriving DecidableEq

/-- The text of an anomaly code. -/
def AnomalyCode.text : AnomalyCode → JsString
  | .ambiguousProduct => js "AMBIGUOUS_PRODUCT"
  | .beforePriceBelowOffer => js "BEFORE_PRICE_BELOW_OFFER"
  | .duplicateCandidateKey => js "DUPLICATE_CANDIDATE_KEY"
  | .duplicateOffer => js "DUPLICATE_OFFER"
  | .extractorAnomaly => js "EXTRACTOR_ANOMALY"
  | .layoutDrift => js "LAYOUT_DRIFT"
  | .ocrReviewRequired => js "OCR_REVIEW_REQUIRED"
  | .packageUnknown => js "PACKAGE_UNKNOWN"
  | .schemaDrift => js "SCHEMA_DRIFT"
  | .scopeMismatch => js "SCOPE_MISMATCH"
  | .unexpectedEmpty => js "UNEXPECTED_EMPTY"
  | .unknownScope => js "UNKNOWN_SCOPE"
  | .unmatchedProduct => js "UNMATCHED_PRODUCT"
  | .unreadableDate => js "UNREADABLE_DATE"
  | .validityOutsideEdition => js "VALIDITY_OUTSIDE_EDITION"

/-- `sha256Schema`, the pattern `/^[0-9a-f]{64}$/u`. -/
def Sha256Schema (s : JsString) : Prop :=
  s.length = 64 ∧ ∀ u ∈ s, (48 ≤ u ∧ u ≤ 57) ∨ (97 ≤ u ∧ u ≤ 102)

instance : DecidablePred Sha256Schema := fun _ => inferInstanceAs (Decidable (_ ∧ _))

/-! ### Authorization -/

/-- `officialOfferAuthorizationTimestampSchema`: milliseconds, and three more digits if the text has
six after the point. -/
structure AuthorizationTimestamp where
  ms : ℤ
  digits : Option (Fin 1000)
  deriving DecidableEq

/-- `officialOfferAuthorizationTimestampSchema`. -/
def AuthorizationTimestampSchema (t : AuthorizationTimestamp) : Prop := CanonicalTimestamp t.ms

instance : DecidablePred AuthorizationTimestampSchema :=
  fun t => inferInstanceAs (Decidable (CanonicalTimestamp t.ms))

/-- `officialOfferAuthorizationOrderKey`, as a number of microseconds. -/
def AuthorizationTimestamp.orderKey (t : AuthorizationTimestamp) : ℤ :=
  t.ms * 1000 + (t.digits.map fun d => (d.val : ℤ)).getD 0

/-- `OfficialOfferAuthorizationFenceV1`. -/
structure OfficialOfferAuthorizationFence where
  permissionId : ℕ
  sourceId : JsString
  capabilities : List AuthorizationCapability
  rightsClassifications : List RightsClassification
  reviewedAt : AuthorizationTimestamp
  validUntil : Option AuthorizationTimestamp
  evaluatedAt : AuthorizationTimestamp

/-- The capabilities every authorization includes. -/
def requiredCapabilities : List AuthorizationCapability := [.capture, .discover, .extract]

/-- `officialOfferAuthorizationFenceV1Schema`. -/
@[mk_iff] structure OfficialOfferAuthorizationFenceSchema
    (fence : OfficialOfferAuthorizationFence) : Prop where
  permissionId : PositiveSafeInteger fence.permissionId
  sourceId : IdentifierSchema fence.sourceId ∧ fence.sourceId.length ≤ 64
  capabilitiesBound : 3 ≤ fence.capabilities.length ∧ fence.capabilities.length ≤ 4
  capabilities : HasCanonicalStringOrder (fence.capabilities.map AuthorizationCapability.text)
  required : ∀ c ∈ requiredCapabilities, c ∈ fence.capabilities
  rightsBound : 1 ≤ fence.rightsClassifications.length ∧ fence.rightsClassifications.length ≤ 3
  rights : HasCanonicalStringOrder (fence.rightsClassifications.map RightsClassification.text)
  timestamps : AuthorizationTimestampSchema fence.reviewedAt ∧
    (∀ t ∈ fence.validUntil, AuthorizationTimestampSchema t) ∧
    AuthorizationTimestampSchema fence.evaluatedAt
  reviewed : fence.reviewedAt.orderKey ≤ fence.evaluatedAt.orderKey
  current : ∀ t ∈ fence.validUntil, fence.evaluatedAt.orderKey < t.orderKey

instance : DecidablePred OfficialOfferAuthorizationFenceSchema :=
  fun _ => decidable_of_iff' _ (officialOfferAuthorizationFenceSchema_iff _)

/-- `editionAuthorizationSchema`, its type. -/
structure EditionAuthorization where
  capabilities : List AuthorizationCapability
  reviewedAt : AuthorizationTimestamp
  validUntil : Option AuthorizationTimestamp

/-- `editionAuthorizationSchema`. -/
@[mk_iff] structure EditionAuthorizationSchema (authorization : EditionAuthorization) :
    Prop where
  capabilitiesBound : 3 ≤ authorization.capabilities.length ∧ authorization.capabilities.length ≤ 4
  capabilities : authorization.capabilities.Nodup
  required : ∀ c ∈ requiredCapabilities, c ∈ authorization.capabilities
  timestamps : AuthorizationTimestampSchema authorization.reviewedAt ∧
    ∀ t ∈ authorization.validUntil, AuthorizationTimestampSchema t
  validity : ∀ t ∈ authorization.validUntil, authorization.reviewedAt.orderKey < t.orderKey

instance : DecidablePred EditionAuthorizationSchema :=
  fun _ => decidable_of_iff' _ (editionAuthorizationSchema_iff _)

/-! ### Editions and captures -/

/-- `contentKind`. -/
inductive ContentKind where
  | structuredFeed | publication
  deriving DecidableEq

/-- `OfficialOfferEditionDiscoveryInputV1`. -/
structure OfficialOfferEdition where
  sourceId : JsString
  externalEditionId : JsString
  chain : Chain
  title : JsString
  contentKind : ContentKind
  geographicScopeId : ℕ
  declaredGeographicScope : GeographicScope
  validFrom : ℤ
  validUntil : ℤ
  discoveredAt : ℤ
  authorization : EditionAuthorization

/-- `officialOfferEditionDiscoveryInputV1Schema`. -/
@[mk_iff] structure OfficialOfferEditionSchema (edition : OfficialOfferEdition) : Prop where
  sourceId : IdentifierSchema edition.sourceId ∧ edition.sourceId.length ≤ 64
  externalEditionId :
    IdentifierSchema edition.externalEditionId ∧ edition.externalEditionId.length ≤ 160
  title : NonEmptyStringSchema edition.title ∧ edition.title.length ≤ 240
  geographicScopeId : PositiveSafeInteger edition.geographicScopeId
  declaredGeographicScope : GeographicScopeSchema edition.declaredGeographicScope
  clocks : CanonicalTimestamp edition.validFrom ∧ CanonicalTimestamp edition.validUntil ∧
    CanonicalTimestamp edition.discoveredAt
  authorization : EditionAuthorizationSchema edition.authorization
  validity : edition.validFrom < edition.validUntil
  current : ∀ t ∈ edition.authorization.validUntil, edition.discoveredAt * 1000 < t.orderKey
  reviewed : edition.authorization.reviewedAt.orderKey ≤ edition.discoveredAt * 1000

instance : DecidablePred OfficialOfferEditionSchema :=
  fun _ => decidable_of_iff' _ (officialOfferEditionSchema_iff _)

/-- A week of a national catalog. -/
def catalogEdition : OfficialOfferEdition where
  sourceId := js "bunnpris-tjek"
  externalEditionId := js "week-27"
  chain := .bunnpris
  title := js "Week 27"
  contentKind := .publication
  geographicScopeId := 1
  declaredGeographicScope := .national (js "NO")
  validFrom := 1782684000000
  validUntil := 1783288800000
  discoveredAt := 1782900000000
  authorization := ⟨[.capture, .discover, .extract], ⟨1782800000000, none⟩, none⟩

example : OfficialOfferEditionSchema catalogEdition := by decide +kernel

/-- `geographicScopeIdentity`: members in their order as texts. -/
def geographicScopeIdentity : GeographicScope → GeographicScope
  | .national countryCode => .national countryCode
  | .regions countryCode regionCodes => .regions countryCode (sortBy compareText regionCodes)
  | .postalSet countryCode postalCodes => .postalSet countryCode (sortBy compareText postalCodes)
  | .stores storeIds => .stores (sortBy compareText storeIds)
  | .unknown reason => .unknown reason

/-- The first code unit of either part of a media type; the pattern ignores case as Unicode does. -/
def isMimeLead (u : UInt16) : Bool :=
  isDigit u || (65 ≤ u && u ≤ 90) || (97 ≤ u && u ≤ 122) || u == 0x17F || u == 0x212A

/-- A code unit of either part of a media type. -/
def isMimeChar (u : UInt16) : Bool :=
  isMimeLead u || [33, 35, 36, 38, 94, 95, 46, 43, 45].contains u

/-- One part of a media type. -/
def isMimePart (s : JsString) : Bool := (s.head?.any isMimeLead) && s.all isMimeChar

/-- `boundedMimeTypeSchema`. -/
def BoundedMimeTypeSchema (s : JsString) : Prop :=
  trim s = s ∧ (1 ≤ s.length ∧ s.length ≤ 120) ∧
    isMimePart (s.takeWhile (· != 47)) = true ∧
    (s.dropWhile (· != 47)).head? = some 47 ∧ isMimePart (s.dropWhile (· != 47)).tail = true

instance : DecidablePred BoundedMimeTypeSchema :=
  fun _ => inferInstanceAs (Decidable (_ ∧ _ ∧ _ ∧ _ ∧ _))

/-- `OfficialOfferCaptureMetadataV1`. -/
structure OfficialOfferCaptureMetadata where
  publicationId : ℕ
  sourceId : JsString
  externalEditionId : JsString
  checksumSha256 : JsString
  mimeType : JsString
  byteLength : ℕ
  rightsClassification : RightsClassification
  retrievedAt : ℤ

/-- `officialOfferCaptureMetadataV1Schema`. -/
@[mk_iff] structure OfficialOfferCaptureMetadataSchema (metadata : OfficialOfferCaptureMetadata) :
    Prop where
  publicationId : PositiveSafeInteger metadata.publicationId
  sourceId : IdentifierSchema metadata.sourceId ∧ metadata.sourceId.length ≤ 64
  externalEditionId :
    IdentifierSchema metadata.externalEditionId ∧ metadata.externalEditionId.length ≤ 160
  checksum : Sha256Schema metadata.checksumSha256
  mimeType : BoundedMimeTypeSchema metadata.mimeType
  byteLength : 0 < metadata.byteLength ∧ metadata.byteLength ≤ 50 * 1024 * 1024
  retrievedAt : CanonicalTimestamp metadata.retrievedAt

instance : DecidablePred OfficialOfferCaptureMetadataSchema :=
  fun _ => decidable_of_iff' _ (officialOfferCaptureMetadataSchema_iff _)

/-- `MAX_OFFICIAL_OFFER_EXTRACTION_DURATION_MS`. -/
def maxOfficialOfferExtractionDurationMs : ℤ := 10 * 60 * 1000

/-- `MAX_OFFICIAL_OFFER_CLOCK_SKEW_MS`. -/
def maxOfficialOfferClockSkewMs : ℤ := 5000

/-- `OfficialOfferExtractionTimingV1`. -/
structure OfficialOfferExtractionTiming where
  serverStartedAt : ℤ
  serverCompletedAt : ℤ

/-- `officialOfferExtractionTimingV1Schema`. -/
def OfficialOfferExtractionTimingSchema (timing : OfficialOfferExtractionTiming) : Prop :=
  CanonicalTimestamp timing.serverStartedAt ∧ CanonicalTimestamp timing.serverCompletedAt ∧
    timing.serverStartedAt ≤ timing.serverCompletedAt ∧
    timing.serverCompletedAt - timing.serverStartedAt ≤ maxOfficialOfferExtractionDurationMs

instance : DecidablePred OfficialOfferExtractionTimingSchema :=
  fun _ => inferInstanceAs (Decidable (_ ∧ _ ∧ _ ∧ _))

/-! ### Candidates -/

/-- `exactIdentifierProductSchema` or `unresolvedProductSchema`. -/
inductive ExtractedProduct where
  | exactIdentifier (value : JsString)
  | unresolvedLabel (label : JsString) (brand : Option JsString)
  deriving DecidableEq

/-- `unit` of a parsed package. -/
inductive ExtractedPackageUnit where
  | g | ml | piece | package
  deriving DecidableEq

/-- Why a package is unknown. -/
inductive UnknownPackageReason where
  | missing | unreadable | unsupportedUnit
  deriving DecidableEq

/-- `parsedPackageSchema` or `unknownPackageSchema`. -/
inductive ExtractedPackage where
  | parsed (amount : ℕ) (unit : ExtractedPackageUnit) (unitsPerPack : ℕ)
  | unknown (reasonCode : UnknownPackageReason)
  deriving DecidableEq

/-- `unitPricingSchema` or `multibuyPricingSchema`. -/
inductive ExtractedPricing where
  | unit (offerPriceOre : ℕ) (beforePriceOre : Option ℕ)
  | multibuy (quantity totalOre : ℕ) (beforeUnitPriceOre : Option ℕ)
  deriving DecidableEq

/-- `publicEligibilitySchema` or `memberEligibilitySchema`. -/
inductive ExtractedEligibility where
  | publicEligibility
  | member (programId : JsString)
  deriving DecidableEq

/-- Why a validity is unreadable. -/
inductive UnreadableValidityReason where
  | missing | ocrAmbiguous | unsupportedFormat
  deriving DecidableEq

/-- `parsedValiditySchema` or `unreadableValiditySchema`. -/
inductive ExtractedValidity where
  | parsed (startsAt endsAt : ℤ)
  | unreadable (reasonCode : UnreadableValidityReason)
  deriving DecidableEq

/-- A channel of a candidate. -/
inductive ExtractedChannel where
  | inStore | online
  deriving DecidableEq

/-- The text of a channel. -/
def ExtractedChannel.text : ExtractedChannel → JsString
  | .inStore => js "in-store"
  | .online => js "online"

/-- `extractionProvenanceSchema`, its type. -/
structure ExtractionProvenance where
  method : ExtractionMethod
  evidenceLocator : JsString
  confidence : ℕ
  deriving DecidableEq

/-- `ExtractedOfficialOfferCandidateV1`. -/
structure ExtractedOfficialOfferCandidate where
  candidateKey : JsString
  product : ExtractedProduct
  package : ExtractedPackage
  pricing : ExtractedPricing
  eligibility : ExtractedEligibility
  validity : ExtractedValidity
  geographicScope : GeographicScope
  channels : List ExtractedChannel
  provenance : ExtractionProvenance
  anomalyCodes : List AnomalyCode
  deriving DecidableEq

/-- `exactIdentifierProductSchema` or `unresolvedProductSchema`. -/
def ExtractedProductSchema : ExtractedProduct → Prop
  | .exactIdentifier value => gtinShape value = true
  | .unresolvedLabel label brand => (NonEmptyStringSchema label ∧ label.length ≤ 240) ∧
      ∀ b ∈ brand, NonEmptyStringSchema b ∧ b.length ≤ 160

instance : DecidablePred ExtractedProductSchema := fun product => by
  cases product <;> unfold ExtractedProductSchema <;> infer_instance

/-- `parsedPackageSchema` or `unknownPackageSchema`. -/
def ExtractedPackageSchema : ExtractedPackage → Prop
  | .parsed amount _ unitsPerPack =>
    (0 < amount ∧ amount ≤ 1000000) ∧ 0 < unitsPerPack ∧ unitsPerPack ≤ 10000
  | .unknown _ => True

instance : DecidablePred ExtractedPackageSchema := fun package => by
  cases package <;> unfold ExtractedPackageSchema <;> infer_instance

/-- `unitPricingSchema` or `multibuyPricingSchema`. -/
def ExtractedPricingSchema : ExtractedPricing → Prop
  | .unit offerPriceOre beforePriceOre =>
    MoneyOreSchema offerPriceOre ∧ ∀ p ∈ beforePriceOre, MoneyOreSchema p
  | .multibuy quantity totalOre beforeUnitPriceOre =>
    (2 ≤ quantity ∧ quantity ≤ 100) ∧ MoneyOreSchema totalOre ∧
      ∀ p ∈ beforeUnitPriceOre, MoneyOreSchema p

instance : DecidablePred ExtractedPricingSchema := fun pricing => by
  cases pricing <;> unfold ExtractedPricingSchema <;> infer_instance

/-- `publicEligibilitySchema` or `memberEligibilitySchema`. -/
def ExtractedEligibilitySchema : ExtractedEligibility → Prop
  | .publicEligibility => True
  | .member programId => IdentifierSchema programId

instance : DecidablePred ExtractedEligibilitySchema := fun eligibility => by
  cases eligibility <;> unfold ExtractedEligibilitySchema <;> infer_instance

/-- `parsedValiditySchema` or `unreadableValiditySchema`. -/
def ExtractedValiditySchema : ExtractedValidity → Prop
  | .parsed startsAt endsAt =>
    CanonicalTimestamp startsAt ∧ CanonicalTimestamp endsAt ∧ startsAt < endsAt
  | .unreadable _ => True

instance : DecidablePred ExtractedValiditySchema := fun validity => by
  cases validity <;> unfold ExtractedValiditySchema <;> infer_instance

/-- `extractedOfficialOfferCandidateV1Schema`. -/
@[mk_iff] structure ExtractedOfficialOfferCandidateSchema
    (candidate : ExtractedOfficialOfferCandidate) : Prop where
  candidateKey : IdentifierSchema candidate.candidateKey ∧ candidate.candidateKey.length ≤ 160
  product : ExtractedProductSchema candidate.product
  package : ExtractedPackageSchema candidate.package
  pricing : ExtractedPricingSchema candidate.pricing
  eligibility : ExtractedEligibilitySchema candidate.eligibility
  validity : ExtractedValiditySchema candidate.validity
  geographicScope : GeographicScopeSchema candidate.geographicScope
  channelsBound : 1 ≤ candidate.channels.length ∧ candidate.channels.length ≤ 2
  provenance : IdentifierSchema candidate.provenance.evidenceLocator ∧
    candidate.provenance.confidence ≤ 100
  anomalyBound : candidate.anomalyCodes.length ≤ 20
  anomalyCodes : candidate.anomalyCodes.Nodup
  channels : candidate.channels.Nodup

instance : DecidablePred ExtractedOfficialOfferCandidateSchema :=
  fun _ => decidable_of_iff' _ (extractedOfficialOfferCandidateSchema_iff _)

/-! ### Envelopes -/

/-- `emptyResult`. -/
inductive ExtractionEmptyResult where
  | notEmpty | confirmedEmpty | unexpectedEmpty
  deriving DecidableEq

/-- `basis` of a confirmation. -/
inductive ConfirmedEmptyBasis where
  | sourceDeclaredEmpty | sourceRecordCountZero
  deriving DecidableEq

/-- `confirmedEmptyEvidenceSchema`, its type. -/
structure ConfirmedEmptyEvidence where
  sourceId : JsString
  externalEditionId : JsString
  basis : ConfirmedEmptyBasis
  evidenceLocator : JsString
  deriving DecidableEq

/-- `OfficialOfferExtractionEnvelopeV1`. -/
structure OfficialOfferExtractionEnvelope where
  captureChecksumSha256 : JsString
  extractorVersion : JsString
  method : ExtractionMethod
  layoutFingerprintSha256 : JsString
  schemaFingerprintSha256 : JsString
  startedAt : ℤ
  completedAt : ℤ
  emptyResult : ExtractionEmptyResult
  emptyConfirmation : Option ConfirmedEmptyEvidence
  candidates : List ExtractedOfficialOfferCandidate

/-- The members of a scope that count towards the bound of an envelope. -/
def scopeMembers : GeographicScope → ℕ
  | .regions _ regionCodes => regionCodes.length
  | .postalSet _ postalCodes => postalCodes.length
  | .stores storeIds => storeIds.length
  | .national _ => 1
  | .unknown _ => 1

/-- `confirmedEmptyEvidenceSchema`. -/
def ConfirmedEmptyEvidenceSchema (evidence : ConfirmedEmptyEvidence) : Prop :=
  (IdentifierSchema evidence.sourceId ∧ evidence.sourceId.length ≤ 64) ∧
    (IdentifierSchema evidence.externalEditionId ∧ evidence.externalEditionId.length ≤ 160) ∧
    IdentifierSchema evidence.evidenceLocator

instance : DecidablePred ConfirmedEmptyEvidenceSchema :=
  fun _ => inferInstanceAs (Decidable (_ ∧ _ ∧ _))

/-- `officialOfferExtractionEnvelopeV1Schema`. -/
@[mk_iff] structure OfficialOfferExtractionEnvelopeSchema
    (envelope : OfficialOfferExtractionEnvelope) : Prop where
  checksum : Sha256Schema envelope.captureChecksumSha256
  extractorVersion :
    IdentifierSchema envelope.extractorVersion ∧ envelope.extractorVersion.length ≤ 80
  fingerprints : Sha256Schema envelope.layoutFingerprintSha256 ∧
    Sha256Schema envelope.schemaFingerprintSha256
  clocks : CanonicalTimestamp envelope.startedAt ∧ CanonicalTimestamp envelope.completedAt
  confirmation : ∀ e ∈ envelope.emptyConfirmation, ConfirmedEmptyEvidenceSchema e
  candidates : ∀ c ∈ envelope.candidates, ExtractedOfficialOfferCandidateSchema c
  candidatesBound : envelope.candidates.length ≤ 500
  order : envelope.startedAt ≤ envelope.completedAt
  empty : envelope.candidates = [] ↔ envelope.emptyResult ≠ .notEmpty
  confirmed : envelope.emptyResult = .confirmedEmpty ↔ envelope.emptyConfirmation ≠ none
  method : ∀ c ∈ envelope.candidates, c.provenance.method = envelope.method
  scopeBound : (envelope.candidates.map fun c => scopeMembers c.geographicScope).sum ≤ 10000

instance : DecidablePred OfficialOfferExtractionEnvelopeSchema :=
  fun _ => decidable_of_iff' _ (officialOfferExtractionEnvelopeSchema_iff _)

/-- **The envelope of candidates that share their scope**, from an extractor that confirms no empty
result: its candidates meet the contract, they and the members of their scopes are not too many, and
the clock has not gone back. -/
theorem officialOfferExtractionEnvelopeSchema_iff_of_shared
    {envelope : OfficialOfferExtractionEnvelope} {scope : GeographicScope}
    (hchecksum : Sha256Schema envelope.captureChecksumSha256)
    (hversion : IdentifierSchema envelope.extractorVersion ∧ envelope.extractorVersion.length ≤ 80)
    (hfingerprints : Sha256Schema envelope.layoutFingerprintSha256 ∧
      Sha256Schema envelope.schemaFingerprintSha256)
    (hconfirmation : envelope.emptyConfirmation = none)
    (hempty : envelope.emptyResult =
      if envelope.candidates.length ≠ 0 then .notEmpty else .unexpectedEmpty)
    (hshared : ∀ c ∈ envelope.candidates,
      c.provenance.method = envelope.method ∧ c.geographicScope = scope) :
    OfficialOfferExtractionEnvelopeSchema envelope ↔
      (∀ c ∈ envelope.candidates, ExtractedOfficialOfferCandidateSchema c) ∧
        envelope.candidates.length ≤ 500 ∧
        envelope.candidates.length * scopeMembers scope ≤ 10000 ∧
        (CanonicalTimestamp envelope.startedAt ∧ CanonicalTimestamp envelope.completedAt) ∧
        envelope.startedAt ≤ envelope.completedAt := by
  have hsum : (envelope.candidates.map fun c => scopeMembers c.geographicScope).sum =
      envelope.candidates.length * scopeMembers scope := by
    rw [List.map_congr_left fun c hc => congrArg scopeMembers (hshared c hc).2, List.map_const',
      List.sum_replicate_nat]
  constructor
  · intro h
    exact ⟨h.candidates, h.candidatesBound, hsum ▸ h.scopeBound, h.clocks, h.order⟩
  · rintro ⟨hall, hbound, hscope, hclocks, horder⟩
    exact
      { checksum := hchecksum
        extractorVersion := hversion
        fingerprints := hfingerprints
        clocks := hclocks
        confirmation := by simp [hconfirmation]
        candidates := hall
        candidatesBound := hbound
        order := horder
        empty := by
          rw [hempty]
          cases envelope.candidates <;> simp
        confirmed := by
          rw [hempty, hconfirmation]
          split_ifs <;> simp
        method := fun c hc => (hshared c hc).1
        scopeBound := hsum.symm ▸ hscope }

/-! ### Validation contexts -/

/-- `OfficialOfferExtractionValidationContext`, the lookups as the entries of the record. -/
structure OfficialOfferExtractionValidationContext where
  expectedLayoutFingerprintsSha256 : List JsString
  expectedSchemaFingerprintSha256 : JsString
  exactProductIdsByGtin : List (JsString × List JsString)

/-- `officialOfferExtractionValidationContextV1Schema`. -/
@[mk_iff] structure OfficialOfferExtractionValidationContextSchema
    (context : OfficialOfferExtractionValidationContext) : Prop where
  layouts : ∀ s ∈ context.expectedLayoutFingerprintsSha256, Sha256Schema s
  layoutsBound : 1 ≤ context.expectedLayoutFingerprintsSha256.length ∧
    context.expectedLayoutFingerprintsSha256.length ≤ 20
  schema : Sha256Schema context.expectedSchemaFingerprintSha256
  gtins : ∀ e ∈ context.exactProductIdsByGtin, gtinShape e.1 = true
  distinct : (context.exactProductIdsByGtin.map Prod.fst).Nodup
  matchesBound : ∀ e ∈ context.exactProductIdsByGtin, e.2.length ≤ 20 ∧ e.2.Nodup
  identifiers : ∀ e ∈ context.exactProductIdsByGtin, ∀ id ∈ e.2, IdentifierSchema id
  lookupsBound : context.exactProductIdsByGtin.length ≤ 500

instance : DecidablePred OfficialOfferExtractionValidationContextSchema :=
  fun _ => decidable_of_iff' _ (officialOfferExtractionValidationContextSchema_iff _)

end Handleplan
