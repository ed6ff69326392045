import Handleplan.Domain.OfferIngestionContracts

/-!
# Validation of official-offer extractions

`validateOfficialOfferExtraction` classifies the candidates of an extraction: it records the
anomalies of each candidate, decides which are rejected, and derives the status and the counts that
are stored with the extraction.

## Main definitions

* `raisedAnomalies` — the anomalies the validation adds to those of the extractor.
* `validatedCandidate` — one candidate, classified.
* `validateOfficialOfferExtraction` — the validation.

## Main results

* `mem_candidateAnomalies` — the recorded anomalies are those of the extractor and those
  the validation raises.
* `validate_eq` — what the validation of schema-valid inputs returns.
* `schema_validatedCandidate` — a classified candidate passes its schema again.

## Implementation notes

A candidate signature is the text of a JSON array; two such texts are equal exactly when the arrays
are, so the signature is the tuple itself.
-/

namespace Handleplan

open JsString Sorting

/-! ### Anomalies -/

/-- `addAnomaly`. -/
def addAnomaly (anomalies : List AnomalyCode) (anomaly : AnomalyCode) : List AnomalyCode :=
  if anomaly ∈ anomalies then anomalies else anomalies ++ [anomaly]

variable {anomalies : List AnomalyCode} {code : AnomalyCode}
  {candidates : List ExtractedOfficialOfferCandidate} {candidate : ExtractedOfficialOfferCandidate}

theorem mem_addAnomaly {anomaly : AnomalyCode} :
    code ∈ addAnomaly anomalies anomaly ↔ code ∈ anomalies ∨ code = anomaly := by
  unfold addAnomaly
  split_ifs with h
  · exact ⟨Or.inl, fun hcode => hcode.elim id fun heq => heq ▸ h⟩
  · simp

theorem nodup_addAnomaly {anomaly : AnomalyCode} (h : anomalies.Nodup) :
    (addAnomaly anomalies anomaly).Nodup := by
  unfold addAnomaly
  split_ifs with hmem
  · exact h
  · rw [List.nodup_append]
    refine ⟨h, List.nodup_singleton _, fun a ha b hb hab => hmem ?_⟩
    rw [List.mem_singleton] at hb
    rwa [← hb, ← hab]

theorem mem_foldl_addAnomaly {raised : List AnomalyCode} :
    code ∈ raised.foldl addAnomaly anomalies ↔ code ∈ anomalies ∨ code ∈ raised := by
  induction raised generalizing anomalies with
  | nil => simp
  | cons anomaly raised ih => rw [List.foldl_cons, ih, mem_addAnomaly, List.mem_cons, or_assoc]

theorem nodup_foldl_addAnomaly {raised : List AnomalyCode} (h : anomalies.Nodup) :
    (raised.foldl addAnomaly anomalies).Nodup := by
  induction raised generalizing anomalies with
  | nil => exact h
  | cons anomaly raised ih => exact ih (nodup_addAnomaly h)

/-- `geographicScopeKey`. -/
def geographicScopeKey : GeographicScope → JsString
  | .national countryCode => js "national:" ++ countryCode
  | .regions countryCode regionCodes => js "regions:" ++ countryCode ++ js ":" ++
      joinWith (js ",") (sortBy compareText regionCodes)
  | .postalSet countryCode postalCodes => js "postal-set:" ++ countryCode ++ js ":" ++
      joinWith (js ",") (sortBy compareText postalCodes)
  | .stores storeIds => js "stores:" ++ joinWith (js ",") (sortBy compareText storeIds)
  | .unknown reason => js "unknown:" ++ reason

/-- `candidateSignature`. -/
def candidateSignature (candidate : ExtractedOfficialOfferCandidate) :=
  (candidate.product, candidate.package, candidate.pricing, candidate.eligibility,
    candidate.validity, geographicScopeIdentity candidate.geographicScope,
    sortBy compareText (candidate.channels.map ExtractedChannel.text))

/-- `pricingIsInvalid`. -/
def PricingIsInvalid : ExtractedPricing → Prop
  | .unit offerPriceOre beforePriceOre => ∃ p ∈ beforePriceOre, p < offerPriceOre
  | .multibuy quantity totalOre beforeUnitPriceOre =>
    ∃ p ∈ beforeUnitPriceOre, p * quantity < totalOre

instance : DecidablePred PricingIsInvalid
  | .unit _ beforePriceOre => inferInstanceAs (Decidable (∃ p ∈ beforePriceOre, _))
  | .multibuy _ _ beforeUnitPriceOre => inferInstanceAs (Decidable (∃ p ∈ beforeUnitPriceOre, _))

/-- Whether a readable validity leaves the validity of the edition. -/
def ValidityIsOutside (edition : OfficialOfferEdition) : ExtractedValidity → Prop
  | .parsed startsAt endsAt => startsAt < edition.validFrom ∨ edition.validUntil < endsAt
  | .unreadable _ => False

instance (edition : OfficialOfferEdition) : DecidablePred (ValidityIsOutside edition)
  | .parsed _ _ => inferInstanceAs (Decidable (_ ∨ _))
  | .unreadable _ => .isFalse id

/-- The canonical products a lookup context has for a GTIN. -/
def lookup (context : OfficialOfferExtractionValidationContext) (gtin : JsString) :
    List JsString :=
  ((context.exactProductIdsByGtin.find? fun e => e.1 = gtin).map Prod.snd).getD []

/-- The anomaly of a geographic scope. -/
def scopeAnomalies (edition : OfficialOfferEdition) (scope : GeographicScope) :
    List AnomalyCode :=
  match scope with
  | .unknown _ => [.unknownScope]
  | _ =>
    if geographicScopeKey scope ≠ geographicScopeKey edition.declaredGeographicScope then
      [.scopeMismatch]
    else []

/-- The anomaly of a product. -/
def productAnomalies (context : OfficialOfferExtractionValidationContext) :
    ExtractedProduct → List AnomalyCode
  | .exactIdentifier value =>
    if (lookup context value).length = 1 then []
    else if (lookup context value).length = 0 then [.unmatchedProduct]
    else [.ambiguousProduct]
  | .unresolvedLabel _ _ => [.unmatchedProduct]

/-- The canonical product of a candidate. -/
def exactCanonicalProductId (context : OfficialOfferExtractionValidationContext) :
    ExtractedProduct → Option JsString
  | .exactIdentifier value =>
    if (lookup context value).length = 1 then (lookup context value).head? else none
  | .unresolvedLabel _ _ => none

/-- The anomalies the validation raises, in the order in which it adds them. -/
def raisedAnomalies (candidates : List ExtractedOfficialOfferCandidate)
    (edition : OfficialOfferEdition) (context : OfficialOfferExtractionValidationContext)
    (candidate : ExtractedOfficialOfferCandidate) : List AnomalyCode :=
  (if 1 < (candidates.map fun c => c.candidateKey).count candidate.candidateKey then
      [.duplicateCandidateKey] else []) ++
    (if 1 < (candidates.map candidateSignature).count (candidateSignature candidate) then
      [.duplicateOffer] else []) ++
    (if PricingIsInvalid candidate.pricing then [.beforePriceBelowOffer] else []) ++
    (match candidate.validity with
      | .unreadable _ => [.unreadableDate]
      | .parsed _ _ => []) ++
    (if ValidityIsOutside edition candidate.validity then [.validityOutsideEdition] else []) ++
    (match candidate.package with
      | .unknown _ => [.packageUnknown]
      | .parsed _ _ _ => []) ++
    scopeAnomalies edition candidate.geographicScope ++
    (if candidate.provenance.method = .ocr then [.ocrReviewRequired] else []) ++
    productAnomalies context candidate.product

/-- The recorded anomalies of a candidate, in the order of their texts. -/
def candidateAnomalies (candidates : List ExtractedOfficialOfferCandidate)
    (edition : OfficialOfferEdition) (context : OfficialOfferExtractionValidationContext)
    (candidate : ExtractedOfficialOfferCandidate) : List AnomalyCode :=
  sortBy (on AnomalyCode.text compareText)
    ((raisedAnomalies candidates edition context candidate).foldl addAnomaly
      candidate.anomalyCodes)

/-! ### The validation -/

/-- `disposition`. -/
inductive CandidateDisposition where
  | exactMatch | rejected | reviewRequired
  deriving DecidableEq

/-- `publicationRoute`. -/
inductive PublicationRoute where
  | blocked | humanReviewRequired
  deriving DecidableEq

/-- `ValidatedOfficialOfferCandidateV1`. -/
structure ValidatedOfficialOfferCandidate where
  anomalyCodes : List AnomalyCode
  candidate : ExtractedOfficialOfferCandidate
  disposition : CandidateDisposition
  publicationRoute : PublicationRoute
  exactCanonicalProductId : Option JsString
  deriving DecidableEq

/-- `counts` of a validation. -/
structure ExtractionCounts where
  exactMatch : ℕ
  rejected : ℕ
  reviewRequired : ℕ
  total : ℕ
  deriving DecidableEq

/-- `errorClass` of a validation. -/
inductive ExtractionErrorClass where
  | invalidContract | layoutDrift | schemaDrift | unexpectedEmpty
  deriving DecidableEq

/-- `status` of a validation. -/
inductive ExtractionValidationStatus where
  | completed | degraded | failed
  deriving DecidableEq

/-- `OfficialOfferExtractionValidation`. -/
structure OfficialOfferExtractionValidation where
  candidates : List ValidatedOfficialOfferCandidate
  counts : ExtractionCounts
  errorClass : Option ExtractionErrorClass
  status : ExtractionValidationStatus

/-- A validation without candidates. -/
def emptyValidation (errorClass : Option ExtractionErrorClass)
    (status : ExtractionValidationStatus) : OfficialOfferExtractionValidation where
  candidates := []
  counts := ⟨0, 0, 0, 0⟩
  errorClass := errorClass
  status := status

/-- Whether a candidate with these anomalies is rejected. -/
def Rejected (anomalies : List AnomalyCode) : Prop :=
  .beforePriceBelowOffer ∈ anomalies ∨ .duplicateCandidateKey ∈ anomalies

instance : DecidablePred Rejected := fun _ => inferInstanceAs (Decidable (_ ∨ _))

/-- The disposition of a candidate with these anomalies. -/
def dispositionOf (anomalies : List AnomalyCode) : CandidateDisposition :=
  if Rejected anomalies then .rejected
  else if 0 < anomalies.length then .reviewRequired
  else .exactMatch

/-- One candidate, classified. -/
def validatedCandidate (candidates : List ExtractedOfficialOfferCandidate)
    (edition : OfficialOfferEdition) (context : OfficialOfferExtractionValidationContext)
    (candidate : ExtractedOfficialOfferCandidate) : ValidatedOfficialOfferCandidate :=
  let anomalies := candidateAnomalies candidates edition context candidate
  { anomalyCodes := anomalies
    candidate := { candidate with anomalyCodes := anomalies }
    disposition := dispositionOf anomalies
    publicationRoute := if Rejected anomalies then .blocked else .humanReviewRequired
    exactCanonicalProductId := exactCanonicalProductId context candidate.product }

/-- Whether a classified candidate degrades its extraction. -/
def Degrades (validated : ValidatedOfficialOfferCandidate) : Prop :=
  validated.disposition = .rejected ∨ ∃ anomaly ∈ validated.anomalyCodes, anomaly ∈
    [AnomalyCode.extractorAnomaly, .scopeMismatch, .unknownScope, .unreadableDate,
      .validityOutsideEdition]

instance : DecidablePred Degrades := fun _ => inferInstanceAs (Decidable (_ ∨ _))

/-- `counts` of classified candidates. -/
def countsOf (validated : List ValidatedOfficialOfferCandidate) : ExtractionCounts where
  exactMatch := (validated.filter fun v => v.disposition = .exactMatch).length
  rejected := (validated.filter fun v => v.disposition = .rejected).length
  reviewRequired := (validated.filter fun v => v.disposition = .reviewRequired).length
  total := validated.length

/-- The GTIN of an exactly identified candidate. -/
def gtinOf (candidate : ExtractedOfficialOfferCandidate) : Option JsString :=
  match candidate.product with
  | .exactIdentifier value => some value
  | .unresolvedLabel _ _ => none

/-- `requestedGtins`: the GTINs of the candidates, each once, in their order as texts. -/
def requestedGtins (candidates : List ExtractedOfficialOfferCandidate) : List JsString :=
  sortBy compareText (candidates.filterMap gtinOf).dedup

/-- `lookupGtins`. -/
def lookupGtins (context : OfficialOfferExtractionValidationContext) : List JsString :=
  sortBy compareText (context.exactProductIdsByGtin.map Prod.fst)

/-- Whether a confirmation that an edition is empty is of another edition. -/
def ConfirmsOther (envelope : OfficialOfferExtractionEnvelope) (edition : OfficialOfferEdition) :
    Prop :=
  envelope.emptyResult = .confirmedEmpty ∧
    ∀ e ∈ envelope.emptyConfirmation, e.sourceId ≠ edition.sourceId ∨
      e.externalEditionId ≠ edition.externalEditionId

instance (envelope : OfficialOfferExtractionEnvelope) (edition : OfficialOfferEdition) :
    Decidable (ConfirmsOther envelope edition) := inferInstanceAs (Decidable (_ ∧ _))

/-- `validateOfficialOfferExtraction`. -/
def validateOfficialOfferExtraction (envelope : OfficialOfferExtractionEnvelope)
    (edition : OfficialOfferEdition) (context : OfficialOfferExtractionValidationContext) :
    OfficialOfferExtractionValidation :=
  if ¬ OfficialOfferExtractionEnvelopeSchema envelope ∨ ¬ OfficialOfferEditionSchema edition ∨
      ¬ OfficialOfferExtractionValidationContextSchema context then
    emptyValidation (some .invalidContract) .failed
  else if requestedGtins envelope.candidates ≠ lookupGtins context then
    emptyValidation (some .invalidContract) .failed
  else if envelope.schemaFingerprintSha256 ≠ context.expectedSchemaFingerprintSha256 then
    emptyValidation (some .schemaDrift) .failed
  else if envelope.layoutFingerprintSha256 ∉ context.expectedLayoutFingerprintsSha256 then
    emptyValidation (some .layoutDrift) .degraded
  else if ConfirmsOther envelope edition then emptyValidation (some .invalidContract) .failed
  else if envelope.emptyResult = .unexpectedEmpty ∨
      (envelope.method = .ocr ∧ envelope.candidates.length = 0) then
    emptyValidation (some .unexpectedEmpty) .degraded
  else if envelope.candidates.length = 0 then emptyValidation none .completed
  else
    let validated := envelope.candidates.map (validatedCandidate envelope.candidates edition context)
    { candidates := validated
      counts := countsOf validated
      errorClass := none
      status := if ∃ v ∈ validated, Degrades v then .degraded else .completed }

/-! ### What the validation returns -/

variable {envelope : OfficialOfferExtractionEnvelope} {edition : OfficialOfferEdition}
  {context : OfficialOfferExtractionValidationContext}

/-- **The recorded anomalies** are those of the extractor and those the validation raises. -/
theorem mem_candidateAnomalies :
    code ∈ candidateAnomalies candidates edition context candidate ↔
      code ∈ candidate.anomalyCodes ∨
        code ∈ raisedAnomalies candidates edition context candidate := by
  rw [candidateAnomalies, (sortBy_perm _ _).mem_iff, mem_foldl_addAnomaly]

theorem nodup_candidateAnomalies (h : candidate.anomalyCodes.Nodup) :
    (candidateAnomalies candidates edition context candidate).Nodup :=
  (sortBy_perm _ _).nodup_iff.mpr (nodup_foldl_addAnomaly h)

/-- All anomaly codes. -/
def anomalyCodes : List AnomalyCode :=
  [.ambiguousProduct, .beforePriceBelowOffer, .duplicateCandidateKey, .duplicateOffer,
    .extractorAnomaly, .layoutDrift, .ocrReviewRequired, .packageUnknown, .schemaDrift,
    .scopeMismatch, .unexpectedEmpty, .unknownScope, .unmatchedProduct, .unreadableDate,
    .validityOutsideEdition]

theorem mem_anomalyCodes (code : AnomalyCode) : code ∈ anomalyCodes := by
  cases code <;> decide

/-- Distinct anomaly codes are fifteen at most. -/
theorem length_le_of_nodup (h : anomalies.Nodup) :
    anomalies.length ≤ 15 :=
  (h.subperm fun code _ => mem_anomalyCodes code).length_le

/-- A classified candidate passes its schema again. -/
theorem schema_validatedCandidate (h : ExtractedOfficialOfferCandidateSchema candidate) :
    ExtractedOfficialOfferCandidateSchema
      (validatedCandidate candidates edition context candidate).candidate :=
  { h with
    anomalyBound := (length_le_of_nodup (nodup_candidateAnomalies h.anomalyCodes)).trans
      (by norm_num)
    anomalyCodes := nodup_candidateAnomalies h.anomalyCodes }

/-- Whether a validation reaches the candidates of an extraction: the lookups are those of its GTINs
and its fingerprints are the expected ones. -/
def ReachesCandidates (envelope : OfficialOfferExtractionEnvelope)
    (context : OfficialOfferExtractionValidationContext) : Prop :=
  requestedGtins envelope.candidates = lookupGtins context ∧
    envelope.schemaFingerprintSha256 = context.expectedSchemaFingerprintSha256 ∧
    envelope.layoutFingerprintSha256 ∈ context.expectedLayoutFingerprintsSha256

instance (envelope : OfficialOfferExtractionEnvelope)
    (context : OfficialOfferExtractionValidationContext) :
    Decidable (ReachesCandidates envelope context) := inferInstanceAs (Decidable (_ ∧ _ ∧ _))

/-- The status and the error class of a validation without candidates go together. -/
def ErrorMatchesStatus (errorClass : Option ExtractionErrorClass)
    (status : ExtractionValidationStatus) : Prop :=
  (errorClass = some .invalidContract ∨ errorClass = some .schemaDrift → status = .failed) ∧
    (errorClass = some .layoutDrift ∨ errorClass = some .unexpectedEmpty → status = .degraded) ∧
    ¬ (errorClass = none ∧ status = .failed)

instance (errorClass : Option ExtractionErrorClass) (status : ExtractionValidationStatus) :
    Decidable (ErrorMatchesStatus errorClass status) := inferInstanceAs (Decidable (_ ∧ _ ∧ _))

/-- **What the validation of schema-valid inputs returns**: when it reaches candidates, each of them
classified, and otherwise none.

**Proof sketch.** Each guard but the first ends in a validation without candidates. A schema-valid
envelope with candidates is neither confirmed nor unexpectedly empty, so the last three guards pass
it. -/
theorem validate_eq (henvelope : OfficialOfferExtractionEnvelopeSchema envelope)
    (hedition : OfficialOfferEditionSchema edition)
    (hcontext : OfficialOfferExtractionValidationContextSchema context) :
    (envelope.candidates ≠ [] ∧ ReachesCandidates envelope context ∧
      validateOfficialOfferExtraction envelope edition context =
        let validated := envelope.candidates.map
          (validatedCandidate envelope.candidates edition context)
        { candidates := validated
          counts := countsOf validated
          errorClass := none
          status := if ∃ v ∈ validated, Degrades v then .degraded else .completed }) ∨
    (¬ (envelope.candidates ≠ [] ∧ ReachesCandidates envelope context) ∧
      ∃ errorClass status, ErrorMatchesStatus errorClass status ∧
        validateOfficialOfferExtraction envelope edition context =
          emptyValidation errorClass status) := by
  unfold validateOfficialOfferExtraction
  rw [if_neg (by simp [henvelope, hedition, hcontext])]
  by_cases hgtins : requestedGtins envelope.candidates = lookupGtins context
  swap
  · rw [if_pos hgtins]
    exact .inr ⟨fun h => hgtins h.2.1, _, _, by decide, rfl⟩
  rw [if_neg (not_not.mpr hgtins)]
  by_cases hschema : envelope.schemaFingerprintSha256 = context.expectedSchemaFingerprintSha256
  swap
  · rw [if_pos hschema]
    exact .inr ⟨fun h => hschema h.2.2.1, _, _, by decide, rfl⟩
  rw [if_neg (not_not.mpr hschema)]
  by_cases hlayout :
      envelope.layoutFingerprintSha256 ∈ context.expectedLayoutFingerprintsSha256
  swap
  · rw [if_pos hlayout]
    exact .inr ⟨fun h => hlayout h.2.2.2, _, _, by decide, rfl⟩
  rw [if_neg (not_not.mpr hlayout)]
  by_cases hempty : envelope.candidates = []
  · refine .inr ⟨fun h => h.1 hempty, ?_⟩
    split_ifs
    · exact ⟨_, _, by decide, rfl⟩
    · exact ⟨_, _, by decide, rfl⟩
    · exact ⟨_, _, by decide, rfl⟩
    · exact absurd (by simp [hempty]) ‹¬ envelope.candidates.length = 0›
  · have hnotEmpty : envelope.emptyResult = .notEmpty :=
      not_not.mp fun h => hempty (henvelope.empty.mpr h)
    have hlength : envelope.candidates.length ≠ 0 := fun h => hempty (List.length_eq_zero_iff.mp h)
    rw [if_neg (by simp [ConfirmsOther, hnotEmpty]), if_neg (by simp [hnotEmpty, hlength]),
      if_neg hlength]
    exact .inl ⟨hempty, ⟨hgtins, hschema, hlayout⟩, rfl⟩

/-- Every candidate has one of the three dispositions. -/
theorem countsOf_sum (validated : List ValidatedOfficialOfferCandidate) :
    (countsOf validated).total = (countsOf validated).exactMatch + (countsOf validated).rejected +
      (countsOf validated).reviewRequired := by
  induction validated with
  | nil => rfl
  | cons v validated ih =>
    simp only [countsOf, List.length_cons, List.filter_cons] at ih ⊢
    cases hv : v.disposition <;> simp [ih] <;> omega

end Handleplan
