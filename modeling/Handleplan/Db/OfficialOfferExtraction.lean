import Handleplan.Domain.OfferIngestion
import Handleplan.Lib.JsMap

/-!
# The payload of a recorded extraction

`PostgresOfficialOfferFoundation.recordExtraction` validates an extraction against the edition that
is stored for its capture and sends the result with the raw envelope to
`record_official_offer_extraction_v1`, which binds the two to each other once more.

## Main definitions

* `Foundation.PublicationRow` — a row of `publications`, and when it matches an edition.
* `Foundation.extractionPayload` — the payload of a recorded extraction.
* `Foundation.CandidateBindings` — the count, status and candidate-binding checks of
  `record_official_offer_extraction_v1`.

## Main results

* `Foundation.schema_storedEdition` — the stored edition passes the schema.
* `Foundation.recordable_iff` — when an extraction can be recorded.

## Implementation notes

The digests of a payload are those of a canonical JSON text, so they are arbitrary functions of the
values with hexadecimal results. Two typed values have equal JSON exactly when they are equal.
-/

namespace Handleplan.Foundation

open JsString Sorting

/-- `status` of a publication. -/
inductive PublicationStatus where
  | captured | discovered | expired | failed | published
  deriving DecidableEq

/-- A row of `publications`; its clocks are whole milliseconds. -/
structure PublicationRow where
  id : ℕ
  sourceId : JsString
  externalId : JsString
  chain : Chain
  title : JsString
  validFrom : ℤ
  validUntil : ℤ
  geographicScopeId : ℕ
  status : PublicationStatus
  discoveredAt : ℤ
  contentKind : ContentKind
  declaredGeographicScope : GeographicScope
  editionIdentitySha256 : JsString
  discoveryPermissionId : ℕ
  deriving DecidableEq

/-- The SHA-256 digests of canonical JSON texts. -/
structure Digests where
  edition : OfficialOfferEdition → JsString
  envelope : OfficialOfferExtractionEnvelope → JsString
  validation : OfficialOfferExtractionValidation → JsString
  isHex : (∀ e, Sha256Schema (edition e)) ∧ (∀ e, Sha256Schema (envelope e)) ∧
    ∀ v, Sha256Schema (validation v)

/-- `canonicalScope`. -/
def canonicalScope (scope : GeographicScope) : GeographicScope := geographicScopeIdentity scope

/-- `exactEditionMatch`. -/
@[mk_iff] structure ExactEditionMatch (digests : Digests) (row : PublicationRow)
    (edition : OfficialOfferEdition) : Prop where
  sourceId : row.sourceId = edition.sourceId
  externalId : row.externalId = edition.externalEditionId
  chain : row.chain = edition.chain
  title : row.title = edition.title
  geographicScopeId : row.geographicScopeId = edition.geographicScopeId
  validFrom : row.validFrom = edition.validFrom
  validUntil : row.validUntil = edition.validUntil
  discoveredAt : row.discoveredAt = edition.discoveredAt
  contentKind : row.contentKind = edition.contentKind
  /-- `sameScope`. -/
  scope : GeographicScopeSchema row.declaredGeographicScope ∧
    GeographicScopeSchema edition.declaredGeographicScope ∧
    canonicalScope row.declaredGeographicScope = canonicalScope edition.declaredGeographicScope
  identity : row.editionIdentitySha256 = digests.edition edition
  permission : PositiveSafeInteger row.discoveryPermissionId

instance (digests : Digests) (row : PublicationRow) (edition : OfficialOfferEdition) :
    Decidable (ExactEditionMatch digests row edition) :=
  decidable_of_iff' _ (exactEditionMatch_iff _ _ _)

/-- `canonicalCapabilities`. -/
def canonicalCapabilities (capabilities : List AuthorizationCapability) : List JsString :=
  sortBy compareText (capabilities.map AuthorizationCapability.text)

/-- `assertEditionAuthorizationFence`. -/
@[mk_iff] structure EditionAuthorizationFence (edition : OfficialOfferEdition)
    (authorization : OfficialOfferAuthorizationFence) : Prop where
  sourceId : authorization.sourceId = edition.sourceId
  capabilities : canonicalCapabilities authorization.capabilities =
    canonicalCapabilities edition.authorization.capabilities
  reviewedAt : authorization.reviewedAt.orderKey = edition.authorization.reviewedAt.orderKey
  validUntil : authorization.validUntil.map AuthorizationTimestamp.orderKey =
    edition.authorization.validUntil.map AuthorizationTimestamp.orderKey

instance (edition : OfficialOfferEdition) (authorization : OfficialOfferAuthorizationFence) :
    Decidable (EditionAuthorizationFence edition authorization) :=
  decidable_of_iff' _ (editionAuthorizationFence_iff _ _)

/-- The edition as it is stored, under the authorization of the call. -/
def storedEdition (row : PublicationRow) (authorization : OfficialOfferAuthorizationFence) :
    OfficialOfferEdition where
  sourceId := row.sourceId
  externalEditionId := row.externalId
  chain := row.chain
  title := row.title
  contentKind := row.contentKind
  geographicScopeId := row.geographicScopeId
  declaredGeographicScope := canonicalScope row.declaredGeographicScope
  validFrom := row.validFrom
  validUntil := row.validUntil
  discoveredAt := row.discoveredAt
  authorization :=
    { capabilities := authorization.capabilities
      reviewedAt := authorization.reviewedAt
      validUntil := authorization.validUntil }

/-- The counts that are stored with an extraction. -/
structure StoredCounts where
  envelopeSha256 : JsString
  exactMatch : ℕ
  persistedCandidates : ℕ
  rejected : ℕ
  reviewRequired : ℕ
  total : ℕ
  validationSha256 : JsString
  deriving DecidableEq

/-- `extractionCounts`. -/
def extractionCounts (digests : Digests) (envelope : OfficialOfferExtractionEnvelope)
    (validation : OfficialOfferExtractionValidation) (persistedCandidates : ℕ) : StoredCounts where
  envelopeSha256 := digests.envelope envelope
  exactMatch := validation.counts.exactMatch
  persistedCandidates := persistedCandidates
  rejected := validation.counts.rejected
  reviewRequired := validation.counts.reviewRequired
  total := validation.counts.total
  validationSha256 := digests.validation validation

/-- The payload of `record_official_offer_extraction_v1`. -/
structure ExtractionPayload where
  envelope : OfficialOfferExtractionEnvelope
  edition : OfficialOfferEdition
  timing : OfficialOfferExtractionTiming
  authorization : OfficialOfferAuthorizationFence
  ocrAuthorization : Option OfficialOfferAuthorizationFence
  counts : StoredCounts
  validationStatus : ExtractionValidationStatus
  validationErrorClass : Option ExtractionErrorClass
  candidates : List ValidatedOfficialOfferCandidate

/-- `uniqueCandidates`: the last classified candidate of each key, at the place of the first. -/
def uniqueCandidates (candidates : List ValidatedOfficialOfferCandidate) :
    List ValidatedOfficialOfferCandidate :=
  (JsMap.ofEntries (candidates.map fun c => (c.candidate.candidateKey, c))).values

/-- The payload `recordExtraction` builds from the validation of an envelope against the stored
edition. -/
def extractionPayload (digests : Digests) (row : PublicationRow)
    (envelope : OfficialOfferExtractionEnvelope) (edition : OfficialOfferEdition)
    (context : OfficialOfferExtractionValidationContext) (timing : OfficialOfferExtractionTiming)
    (authorization : OfficialOfferAuthorizationFence)
    (ocrAuthorization : Option OfficialOfferAuthorizationFence) : ExtractionPayload :=
  let validation := validateOfficialOfferExtraction envelope (storedEdition row authorization)
    context
  let candidates := uniqueCandidates validation.candidates
  { envelope := envelope
    edition := edition
    timing := timing
    authorization := authorization
    ocrAuthorization := ocrAuthorization
    counts := extractionCounts digests envelope validation candidates.length
    validationStatus := validation.status
    validationErrorClass := validation.errorClass
    candidates := candidates }

/-! ### The checks of the database -/

/-- A candidate without its anomaly codes. -/
def withoutAnomalies (candidate : ExtractedOfficialOfferCandidate) :
    ExtractedOfficialOfferCandidate :=
  { candidate with anomalyCodes := [] }

/-- Whether a wrapper is of a candidate of the envelope: the same but for the anomaly codes, of
which it has all. -/
def Wraps (wrapper : ValidatedOfficialOfferCandidate) (item : ExtractedOfficialOfferCandidate) :
    Prop :=
  withoutAnomalies item = withoutAnomalies wrapper.candidate ∧
    item.anomalyCodes ⊆ wrapper.anomalyCodes

instance (wrapper : ValidatedOfficialOfferCandidate) (item : ExtractedOfficialOfferCandidate) :
    Decidable (Wraps wrapper item) :=
  inferInstanceAs (Decidable (_ ∧ ∀ code ∈ item.anomalyCodes, code ∈ wrapper.anomalyCodes))

/-- The count, status and candidate-binding checks of `record_official_offer_extraction_v1`. -/
@[mk_iff] structure CandidateBindings (payload : ExtractionPayload) : Prop where
  bounds : payload.candidates.length ≤ 500 ∧ payload.envelope.candidates.length ≤ 500
  notEmpty : ¬ (payload.envelope.emptyResult = .notEmpty ∧ payload.envelope.candidates.length = 0)
  empty : ¬ (payload.envelope.emptyResult ≠ .notEmpty ∧ payload.envelope.candidates.length ≠ 0)
  fewer : payload.candidates.length ≤ payload.envelope.candidates.length
  items : ∀ item ∈ payload.envelope.candidates, item.anomalyCodes.length ≤ 20 ∧
    item.anomalyCodes.Nodup ∧ ∃ wrapper ∈ payload.candidates, Wraps wrapper item
  error : ErrorMatchesStatus payload.validationErrorClass payload.validationStatus
  digests : Sha256Schema payload.counts.envelopeSha256 ∧
    Sha256Schema payload.counts.validationSha256
  persisted : payload.counts.persistedCandidates = payload.candidates.length
  total : payload.counts.total =
    payload.counts.exactMatch + payload.counts.rejected + payload.counts.reviewRequired
  keys : (payload.candidates.map fun c => c.candidate.candidateKey).Nodup
  exactMatch : payload.counts.exactMatch =
    (payload.candidates.filter fun c => c.disposition = .exactMatch).length
  rejected : payload.counts.rejected =
    (payload.candidates.filter fun c => c.disposition = .rejected).length
  reviewRequired : payload.counts.reviewRequired =
    (payload.candidates.filter fun c => c.disposition = .reviewRequired).length

instance : DecidablePred CandidateBindings :=
  fun _ => decidable_of_iff' _ (candidateBindings_iff _)

/-! ### The stored edition -/

variable {digests : Digests} {row : PublicationRow} {edition : OfficialOfferEdition}
  {authorization : OfficialOfferAuthorizationFence}

/-- A scope with its members in order passes its schema. -/
theorem schema_canonicalScope {scope : GeographicScope} (h : GeographicScopeSchema scope) :
    GeographicScopeSchema (canonicalScope scope) := by
  cases scope with
  | national countryCode => exact h
  | unknown reason => exact h
  | regions countryCode regionCodes =>
    obtain ⟨hcountry, hlength, hcodes, hnodup⟩ := h
    have hperm := sortBy_perm compareText regionCodes
    exact ⟨hcountry, hperm.length_eq ▸ hlength,
      fun code hcode => hcodes code (hperm.mem_iff.mp hcode), hperm.nodup_iff.mpr hnodup⟩
  | stores storeIds =>
    obtain ⟨hlength, hids, hnodup⟩ := h
    have hperm := sortBy_perm compareText storeIds
    exact ⟨hperm.length_eq ▸ hlength, fun id hid => hids id (hperm.mem_iff.mp hid),
      hperm.nodup_iff.mpr hnodup⟩
  | postalSet countryCode postalCodes =>
    -- the codes of a schema-valid set are in order already
    have hsorted : sortBy compareText postalCodes = postalCodes := by
      refine sortBy_of_pairwise (h.2.2.2.2.pairwise.imp fun hlt => ?_)
      rw [hlt]
      rfl
    show GeographicScopeSchema (.postalSet countryCode (sortBy compareText postalCodes))
    rw [hsorted]
    exact h

/-- **The stored edition passes the schema** when its row matches a schema-valid edition and the
authorization is that of the edition. -/
theorem schema_storedEdition (hmatch : ExactEditionMatch digests row edition)
    (hfence : EditionAuthorizationFence edition authorization)
    (hedition : OfficialOfferEditionSchema edition)
    (hauthorization : OfficialOfferAuthorizationFenceSchema authorization) :
    OfficialOfferEditionSchema (storedEdition row authorization) := by
  obtain ⟨hsource, hexternal, -, htitle, hscopeId, hfrom, huntil, hdiscovered, -, hscope, -, -⟩ :=
    hmatch
  have hvalidUntil : ∀ t ∈ authorization.validUntil,
      ∃ u ∈ edition.authorization.validUntil, u.orderKey = t.orderKey := fun t ht => by
    have hmap := hfence.validUntil
    rw [Option.mem_def.mp ht, Option.map_some, eq_comm, Option.map_eq_some_iff] at hmap
    exact hmap
  exact
    { sourceId := by
        rw [show (storedEdition row authorization).sourceId = edition.sourceId from hsource]
        exact hedition.sourceId
      externalEditionId := by
        rw [show (storedEdition row authorization).externalEditionId =
          edition.externalEditionId from hexternal]
        exact hedition.externalEditionId
      title := by
        rw [show (storedEdition row authorization).title = edition.title from htitle]
        exact hedition.title
      geographicScopeId := by
        show PositiveSafeInteger row.geographicScopeId
        rw [hscopeId]
        exact hedition.geographicScopeId
      declaredGeographicScope := schema_canonicalScope hscope.1
      clocks := by
        show CanonicalTimestamp row.validFrom ∧ CanonicalTimestamp row.validUntil ∧
          CanonicalTimestamp row.discoveredAt
        rw [hfrom, huntil, hdiscovered]
        exact hedition.clocks
      authorization :=
        { capabilitiesBound := hauthorization.capabilitiesBound
          capabilities := List.Nodup.of_map _ hauthorization.capabilities.nodup
          required := hauthorization.required
          timestamps := ⟨hauthorization.timestamps.1, hauthorization.timestamps.2.1⟩
          validity := fun t ht => hauthorization.reviewed.trans_lt (hauthorization.current t ht) }
      validity := by
        show row.validFrom < row.validUntil
        rw [hfrom, huntil]
        exact hedition.validity
      current := fun t ht => by
        obtain ⟨u, hu, hkey⟩ := hvalidUntil t ht
        show row.discoveredAt * 1000 < t.orderKey
        rw [hdiscovered, ← hkey]
        exact hedition.current u hu
      reviewed := by
        show authorization.reviewedAt.orderKey ≤ row.discoveredAt * 1000
        rw [hdiscovered, hfence.reviewedAt]
        exact hedition.reviewed }

/-! ### When an extraction can be recorded -/

variable {envelope : OfficialOfferExtractionEnvelope}
  {context : OfficialOfferExtractionValidationContext}

/-- The keys of the classified candidates are those of the candidates. -/
theorem map_candidateKey_validated (candidates : List ExtractedOfficialOfferCandidate) :
    ((envelope.candidates.map (validatedCandidate candidates edition context)).map fun v =>
      v.candidate.candidateKey) = envelope.candidates.map fun c => c.candidateKey := by
  rw [List.map_map]
  rfl

/-- Classified candidates with distinct keys are all kept. -/
theorem uniqueCandidates_of_nodup {candidates : List ValidatedOfficialOfferCandidate}
    (h : (candidates.map fun v => v.candidate.candidateKey).Nodup) :
    uniqueCandidates candidates = candidates := by
  unfold uniqueCandidates
  rw [JsMap.ofEntries_of_nodup (by simpa [Function.comp_def] using h), JsMap.values, List.map_map]
  exact List.map_id candidates

/-- As many classified candidates are kept as there are keys. -/
theorem length_uniqueCandidates (candidates : List ValidatedOfficialOfferCandidate) :
    (uniqueCandidates candidates).length =
      (candidates.map fun v => v.candidate.candidateKey).dedup.length := by
  unfold uniqueCandidates JsMap.values
  rw [List.length_map, JsMap.length_ofEntries, List.map_map]
  rfl

/-- A classified candidate wraps its candidate. -/
theorem wraps_validatedCandidate {candidates : List ExtractedOfficialOfferCandidate}
    (candidate : ExtractedOfficialOfferCandidate) :
    Wraps (validatedCandidate candidates edition context candidate) candidate :=
  ⟨rfl, fun _ hcode => mem_candidateAnomalies.mpr (.inl hcode)⟩

/-- A validation without an error class has not failed. -/
theorem errorMatchesStatus_none {status : ExtractionValidationStatus} (h : status ≠ .failed) :
    ErrorMatchesStatus none status := by
  cases status with
  | completed => decide
  | degraded => decide
  | failed => exact absurd rfl h

/-- The counts of all the classified candidates are those of the kept ones only if no key is
repeated. -/
theorem nodup_of_counts {validated : List ValidatedOfficialOfferCandidate}
    (hexact : (countsOf validated).exactMatch = (countsOf (uniqueCandidates validated)).exactMatch)
    (hrejected : (countsOf validated).rejected = (countsOf (uniqueCandidates validated)).rejected)
    (hreview : (countsOf validated).reviewRequired =
      (countsOf (uniqueCandidates validated)).reviewRequired) :
    (validated.map fun v => v.candidate.candidateKey).Nodup := by
  have htotal : (countsOf validated).total = (countsOf (uniqueCandidates validated)).total := by
    rw [countsOf_sum, countsOf_sum, hexact, hrejected, hreview]
  have hlength : (validated.map fun v => v.candidate.candidateKey).dedup.length =
      (validated.map fun v => v.candidate.candidateKey).length := by
    rw [List.length_map, ← length_uniqueCandidates]
    exact htotal.symm
  rw [← List.dedup_eq_self]
  exact (List.dedup_sublist _).eq_of_length hlength

/-- **When an extraction can be recorded**: for a schema-valid envelope, edition and context, under
the authorization of the edition and for the row of that edition, the payload meets the count,
status and candidate-binding checks exactly when the envelope has no candidates, or its lookups and
fingerprints are the expected ones and no candidate key is repeated.

**Proof sketch.** If the validation ends without candidates, the envelope may not have any.
Otherwise the payload keeps one candidate of each key while its counts are those of all of them, so
they agree only if no key is repeated; then the payload keeps every candidate, and each wraps its
own. -/
theorem recordable_iff (digests : Digests) (row : PublicationRow)
    (envelope : OfficialOfferExtractionEnvelope) (edition : OfficialOfferEdition)
    (context : OfficialOfferExtractionValidationContext) (timing : OfficialOfferExtractionTiming)
    (authorization : OfficialOfferAuthorizationFence)
    (ocrAuthorization : Option OfficialOfferAuthorizationFence)
    (henvelope : OfficialOfferExtractionEnvelopeSchema envelope)
    (hedition : OfficialOfferEditionSchema edition)
    (hcontext : OfficialOfferExtractionValidationContextSchema context)
    (hauthorization : OfficialOfferAuthorizationFenceSchema authorization)
    (hfence : EditionAuthorizationFence edition authorization)
    (hmatch : ExactEditionMatch digests row edition) :
    CandidateBindings (extractionPayload digests row envelope edition context timing authorization
        ocrAuthorization) ↔
      envelope.candidates = [] ∨ ReachesCandidates envelope context ∧
        (envelope.candidates.map fun c => c.candidateKey).Nodup := by
  have hstored := schema_storedEdition hmatch hfence hedition hauthorization
  obtain ⟨hne, hreaches, hvalidation⟩ | ⟨hnot, errorClass, status, herror, hvalidation⟩ :=
    validate_eq henvelope hstored hcontext
  · set validated := envelope.candidates.map
      (validatedCandidate envelope.candidates (storedEdition row authorization) context)
      with hvalidated
    have hkeys : (validated.map fun v => v.candidate.candidateKey) =
        envelope.candidates.map fun c => c.candidateKey := map_candidateKey_validated _
    constructor
    · intro h
      rw [extractionPayload, hvalidation] at h
      exact .inr ⟨hreaches, hkeys ▸ nodup_of_counts h.exactMatch h.rejected h.reviewRequired⟩
    · rintro (hempty | ⟨-, hnodup⟩)
      · exact absurd hempty hne
      have hunique : uniqueCandidates validated = validated :=
        uniqueCandidates_of_nodup (hkeys ▸ hnodup)
      have hlength : validated.length = envelope.candidates.length := List.length_map _
      have hnotEmpty : envelope.emptyResult = .notEmpty :=
        not_not.mp fun h => hne (henvelope.empty.mpr h)
      simp only [extractionPayload, extractionCounts, hvalidation, hunique]
      exact
        { bounds := ⟨hlength ▸ henvelope.candidatesBound, henvelope.candidatesBound⟩
          notEmpty := fun h => hne (List.length_eq_zero_iff.mp h.2)
          empty := fun h => h.1 hnotEmpty
          fewer := hlength.le
          items := fun item hitem => ⟨(henvelope.candidates item hitem).anomalyBound,
            (henvelope.candidates item hitem).anomalyCodes, _, List.mem_map_of_mem hitem,
            wraps_validatedCandidate item⟩
          error := errorMatchesStatus_none (by split_ifs <;> simp)
          digests := ⟨digests.isHex.2.1 _, digests.isHex.2.2 _⟩
          persisted := rfl
          total := countsOf_sum validated
          keys := hkeys ▸ hnodup
          exactMatch := rfl
          rejected := rfl
          reviewRequired := rfl }
  · constructor
    · intro h
      by_contra hne
      rw [not_or] at hne
      obtain ⟨item, hitem⟩ := List.exists_mem_of_ne_nil _ hne.1
      obtain ⟨-, -, wrapper, hwrapper, -⟩ := h.items item hitem
      rw [extractionPayload, hvalidation] at hwrapper
      cases hwrapper
    · intro h
      have hempty : envelope.candidates = [] := by
        by_contra hne
        obtain hempty | ⟨hreaches, -⟩ := h
        · exact hne hempty
        · exact hnot ⟨hne, hreaches⟩
      simp only [extractionPayload, extractionCounts, hvalidation]
      exact
        { bounds := ⟨Nat.zero_le _, henvelope.candidatesBound⟩
          notEmpty := fun h => henvelope.empty.mp hempty h.1
          empty := fun h => h.2 (List.length_eq_zero_iff.mpr hempty)
          fewer := Nat.zero_le _
          items := fun item hitem => by
            rw [hempty] at hitem
            cases hitem
          error := herror
          digests := ⟨digests.isHex.2.1 _, digests.isHex.2.2 _⟩
          persisted := rfl
          total := rfl
          keys := List.nodup_nil
          exactMatch := rfl
          rejected := rfl
          reviewRequired := rfl }

/-! ### An extraction of a changed schema -/

/-- A digest of one digit. -/
def digestOf (digit : UInt16) : JsString := List.replicate 64 digit

/-- One digest for every text. -/
def oneDigest : Digests where
  edition _ := digestOf 48
  envelope _ := digestOf 48
  validation _ := digestOf 48
  isHex := by
    have hhex : Sha256Schema (digestOf 48) := by decide +kernel
    exact ⟨fun _ => hhex, fun _ => hhex, fun _ => hhex⟩

/-- An authorization without an end. -/
def catalogAuthorization : OfficialOfferAuthorizationFence where
  permissionId := 1
  sourceId := js "bunnpris-tjek"
  capabilities := [.capture, .discover, .extract]
  rightsClassifications := [.privateReview]
  reviewedAt := ⟨1782800000000, none⟩
  validUntil := none
  evaluatedAt := ⟨1782907200000, none⟩

/-- The row of that edition. -/
def catalogRow : PublicationRow where
  id := 1
  sourceId := js "bunnpris-tjek"
  externalId := js "week-27"
  chain := .bunnpris
  title := js "Week 27"
  validFrom := 1782684000000
  validUntil := 1783288800000
  geographicScopeId := 1
  status := .captured
  discoveredAt := 1782900000000
  contentKind := .publication
  declaredGeographicScope := .national (js "NO")
  editionIdentitySha256 := digestOf 48
  discoveryPermissionId := 1

/-- A candidate with a label, at a price. -/
def catalogCandidate (candidateKey : JsString) (offerPriceOre : ℕ) :
    ExtractedOfficialOfferCandidate where
  candidateKey := candidateKey
  product := .unresolvedLabel (js "Melk") none
  package := .parsed 1000 .ml 1
  pricing := .unit offerPriceOre none
  eligibility := .publicEligibility
  validity := .parsed 1782684000000 1783288800000
  geographicScope := .national (js "NO")
  channels := [.inStore]
  provenance := ⟨.structured, js "page-1", 90⟩
  anomalyCodes := []

/-- An envelope of two candidates. -/
def catalogEnvelope (schemaDigit : UInt16) (firstKey secondKey : JsString) :
    OfficialOfferExtractionEnvelope where
  captureChecksumSha256 := digestOf 48
  extractorVersion := js "catalog-1"
  method := .structured
  layoutFingerprintSha256 := digestOf 48
  schemaFingerprintSha256 := digestOf schemaDigit
  startedAt := 1782907200000
  completedAt := 1782907201000
  emptyResult := .notEmpty
  emptyConfirmation := none
  candidates := [catalogCandidate firstKey 1990, catalogCandidate secondKey 2490]

/-- The expected fingerprints, and no lookups. -/
def catalogContext : OfficialOfferExtractionValidationContext where
  expectedLayoutFingerprintsSha256 := [digestOf 48]
  expectedSchemaFingerprintSha256 := digestOf 48
  exactProductIdsByGtin := []

/-- The payload of such an envelope. -/
def catalogPayload (schemaDigit : UInt16) (firstKey secondKey : JsString) : ExtractionPayload :=
  extractionPayload oneDigest catalogRow (catalogEnvelope schemaDigit firstKey secondKey)
    catalogEdition catalogContext ⟨1782907200000, 1782907201000⟩ catalogAuthorization none

/-- Two candidates with keys of their own can be recorded, in an envelope of the expected schema. -/
theorem recordable_iff_of_catalog :
    CandidateBindings (catalogPayload 48 (js "a") (js "b")) ↔
      (catalogEnvelope 48 (js "a") (js "b")).candidates = [] ∨
        ReachesCandidates (catalogEnvelope 48 (js "a") (js "b")) catalogContext ∧
          ((catalogEnvelope 48 (js "a") (js "b")).candidates.map fun c => c.candidateKey).Nodup :=
  recordable_iff oneDigest catalogRow (catalogEnvelope 48 (js "a") (js "b")) catalogEdition
    catalogContext ⟨1782907200000, 1782907201000⟩ catalogAuthorization none (by decide +kernel)
    (by decide +kernel) (by decide +kernel) (by decide +kernel) (by decide +kernel)
    (by decide +kernel)

/-- **Extractions that cannot be recorded**: schema-valid envelopes under the authorization of their
edition, one of a changed schema with candidates, and one in which two candidates share a key. -/
theorem not_recordable_drifted_or_duplicate :
    OfficialOfferEditionSchema catalogEdition ∧
      OfficialOfferExtractionValidationContextSchema catalogContext ∧
      OfficialOfferAuthorizationFenceSchema catalogAuthorization ∧
      EditionAuthorizationFence catalogEdition catalogAuthorization ∧
      ExactEditionMatch oneDigest catalogRow catalogEdition ∧
      (OfficialOfferExtractionEnvelopeSchema (catalogEnvelope 49 (js "a") (js "b")) ∧
        ¬ CandidateBindings (catalogPayload 49 (js "a") (js "b"))) ∧
      OfficialOfferExtractionEnvelopeSchema (catalogEnvelope 48 (js "a") (js "a")) ∧
        ¬ CandidateBindings (catalogPayload 48 (js "a") (js "a")) := by
  decide +kernel

end Handleplan.Foundation
