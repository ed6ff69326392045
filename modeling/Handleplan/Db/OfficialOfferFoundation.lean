import Handleplan.Db.OfficialOfferExtraction
import Handleplan.Lib.Tables
import Handleplan.Lib.Transitions

/-!
# The official-offer foundation repository

`PostgresOfficialOfferFoundationRepository` records editions, captures and extractions through three
functions of the database. Each inserts its row unless one of the same key is there, and answers
from what is stored and what was asked for.

## Main definitions

* `Foundation.Store` — the tables.
* `Foundation.recordEdition`, `recordCapture`, `recordExtraction` — the three calls.
* `Foundation.Describes` — a call answers with the row that is stored, and that row is
  the one it asked for.
* `Foundation.Agrees` — the row of the key of a call, if one is there, is the one it asks
  for.

## Main results

* `Foundation.describes_iff_agrees` — the answer of one call.
* `Foundation.replays_describe_iff` — the answers of every sequence of calls.

## Implementation notes

What the database decides beyond the rows modelled here (the current permission, the constraints and
the triggers of a table, the content of one candidate) is one answer of each call. The clocks that
the database writes into a row are not among what a call asks for.
-/

namespace Handleplan.Foundation

open JsString Sorting Tables

/-! ### The tables -/

/-- A row of `publication_captures`. -/
structure CaptureRow where
  id : ℕ
  publicationId : ℕ
  blobKey : JsString
  checksum : JsString
  mimeType : JsString
  byteLength : ℕ
  rightsClassification : RightsClassification
  retrievedAt : ℤ
  capturePermissionId : ℕ
  capturePermissionCapabilities : List AuthorizationCapability
  deriving DecidableEq

/-- A row of `extraction_runs`, with its candidates. -/
structure ExtractionRow where
  id : ℕ
  captureId : ℕ
  extractorVersion : JsString
  status : ExtractionValidationStatus
  startedAt : ℤ
  completedAt : ℤ
  counts : StoredCounts
  errorClass : Option ExtractionErrorClass
  extractionMethod : ExtractionMethod
  extractionPermissionId : ℕ
  ocrPermissionId : Option ℕ
  permissionCapabilities : List AuthorizationCapability
  sourceStartedAt : ℤ
  sourceCompletedAt : ℤ
  emptyResult : ExtractionEmptyResult
  emptyConfirmation : Option ConfirmedEmptyEvidence
  candidates : List ValidatedOfficialOfferCandidate
  deriving DecidableEq

/-- The tables of the foundation. -/
structure Store where
  publications : List PublicationRow
  captures : List CaptureRow
  extractions : List ExtractionRow

/-- A publication by its number. -/
def Store.publication (store : Store) (id : ℕ) : Option PublicationRow :=
  store.publications.find? fun row => row.id = id

/-- A capture by its number. -/
def Store.capture (store : Store) (id : ℕ) : Option CaptureRow :=
  store.captures.find? fun row => row.id = id

/-- The digests, and the edition identity as the database computes it. -/
structure FoundationDigests extends Digests where
  stored : OfficialOfferEdition → JsString

/-- What the database answers beyond its rows: its clock, and whether it admits the call. -/
structure Answers where
  clock : ℤ
  admitted : Bool

/-- `OfficialOfferFoundationErrorCode`, with inputs that do not parse and statements that raise. -/
inductive FoundationError where
  | captureConflict | editionConflict | extractionConflict | sourceAuthorizationStale
  | invalidInput | statementFailed

/-- `RecordedOfficialOfferEdition`. -/
structure RecordedEdition where
  created : Bool
  id : ℕ
  status : PublicationStatus

/-- `RecordedOfficialOfferCapture`. -/
structure RecordedCapture where
  blobKey : JsString
  created : Bool
  id : ℕ
  retrievedAt : ℤ

/-- `RecordedOfficialOfferExtraction`. -/
structure RecordedExtraction where
  counts : ExtractionCounts
  created : Bool
  id : ℕ
  status : ExtractionValidationStatus

/-! ### Editions -/

/-- The binding of the authorization of an edition in the database: the same lists and texts. -/
def AuthorizationIsBound (edition : OfficialOfferEdition)
    (authorization : OfficialOfferAuthorizationFence) : Prop :=
  authorization.sourceId = edition.sourceId ∧
    edition.authorization.capabilities = authorization.capabilities ∧
    edition.authorization.reviewedAt = authorization.reviewedAt ∧
    edition.authorization.validUntil = authorization.validUntil

instance (edition : OfficialOfferEdition) (authorization : OfficialOfferAuthorizationFence) :
    Decidable (AuthorizationIsBound edition authorization) :=
  inferInstanceAs (Decidable (_ ∧ _ ∧ _ ∧ _))

/-- The row an edition is stored as. -/
def publicationOf (digests : FoundationDigests) (edition : OfficialOfferEdition)
    (authorization : OfficialOfferAuthorizationFence) (id : ℕ) : PublicationRow where
  id := id
  sourceId := edition.sourceId
  externalId := edition.externalEditionId
  chain := edition.chain
  title := edition.title
  validFrom := edition.validFrom
  validUntil := edition.validUntil
  geographicScopeId := edition.geographicScopeId
  status := .discovered
  discoveredAt := edition.discoveredAt
  contentKind := edition.contentKind
  declaredGeographicScope := edition.declaredGeographicScope
  editionIdentitySha256 := digests.stored edition
  discoveryPermissionId := authorization.permissionId

/-- `publications_source_external_unique`. -/
def HasEditionKey (edition : OfficialOfferEdition) (row : PublicationRow) : Prop :=
  row.sourceId = edition.sourceId ∧ row.externalId = edition.externalEditionId

instance (edition : OfficialOfferEdition) : DecidablePred (HasEditionKey edition) :=
  fun _ => inferInstanceAs (Decidable (_ ∧ _))

/-- `recordEdition`. -/
def recordEdition (digests : FoundationDigests) (store : Store) (edition : OfficialOfferEdition)
    (authorization : OfficialOfferAuthorizationFence) (answers : Answers) :
    Except FoundationError (Store × RecordedEdition) :=
  if ¬ OfficialOfferEditionSchema edition ∨
      ¬ OfficialOfferAuthorizationFenceSchema authorization then .error .invalidInput
  else if ¬ EditionAuthorizationFence edition authorization then .error .sourceAuthorizationStale
  else if ¬ AuthorizationIsBound edition authorization then .error .sourceAuthorizationStale
  else if answers.admitted = false then .error .statementFailed
  else
    let inserted := insertOrFind (HasEditionKey edition)
      (publicationOf digests edition authorization) store.publications
    .ok ({ store with publications := inserted.1 },
      { created := inserted.2.2, id := inserted.2.1.id, status := inserted.2.1.status })

/-! ### Captures -/

/-- `requireBlobKey`. -/
def BlobKeySchema (blobKey : JsString) : Prop :=
  (1 ≤ blobKey.length ∧ blobKey.length ≤ 1024) ∧ blobKey.head? ≠ some 47 ∧
    ¬ [46, 46] <:+: blobKey ∧
    ∀ u ∈ blobKey, (65 ≤ u ∧ u ≤ 90) ∨ (97 ≤ u ∧ u ≤ 122) ∨ (48 ≤ u ∧ u ≤ 57) ∨
      u ∈ [95, 46, 47, 58, 45]

instance : DecidablePred BlobKeySchema := fun _ => inferInstanceAs (Decidable (_ ∧ _ ∧ _ ∧ _))

/-- The row a capture is stored as. -/
def captureOf (metadata : OfficialOfferCaptureMetadata) (blobKey : JsString)
    (authorization : OfficialOfferAuthorizationFence) (clock : ℤ) (id : ℕ) : CaptureRow where
  id := id
  publicationId := metadata.publicationId
  blobKey := blobKey
  checksum := metadata.checksumSha256
  mimeType := metadata.mimeType
  byteLength := metadata.byteLength
  rightsClassification := metadata.rightsClassification
  retrievedAt := clock
  capturePermissionId := authorization.permissionId
  capturePermissionCapabilities := authorization.capabilities

/-- `publication_captures_checksum_unique`. -/
def HasCaptureKey (metadata : OfficialOfferCaptureMetadata) (row : CaptureRow) : Prop :=
  row.publicationId = metadata.publicationId ∧ row.checksum = metadata.checksumSha256

instance (metadata : OfficialOfferCaptureMetadata) : DecidablePred (HasCaptureKey metadata) :=
  fun _ => inferInstanceAs (Decidable (_ ∧ _))

/-- A publication of which a capture is stored. -/
def captured (publicationId : ℕ) (row : PublicationRow) : PublicationRow :=
  if row.id = publicationId ∧ row.status = .discovered then { row with status := .captured }
  else row

/-- `recordCapture`. -/
def recordCapture (store : Store) (metadata : OfficialOfferCaptureMetadata) (blobKey : JsString)
    (authorization : OfficialOfferAuthorizationFence) (answers : Answers) :
    Except FoundationError (Store × RecordedCapture) :=
  if ¬ OfficialOfferCaptureMetadataSchema metadata ∨
      ¬ OfficialOfferAuthorizationFenceSchema authorization then .error .invalidInput
  else if authorization.sourceId ≠ metadata.sourceId then .error .sourceAuthorizationStale
  else if ¬ BlobKeySchema blobKey then .error .invalidInput
  else if answers.admitted = false ∨
      ¬ ∃ row ∈ store.publication metadata.publicationId,
        row.sourceId = metadata.sourceId ∧ row.externalId = metadata.externalEditionId then
    .error .statementFailed
  else
    let inserted := insertOrFind (HasCaptureKey metadata)
      (captureOf metadata blobKey authorization answers.clock) store.captures
    -- the row returned by the database has the key that was sent
    .ok ({ store with
        publications := store.publications.map (captured metadata.publicationId)
        captures := inserted.1 },
      { blobKey := blobKey, created := inserted.2.2, id := inserted.2.1.id,
        retrievedAt := inserted.2.1.retrievedAt })

/-! ### Extractions -/

/-- The arguments of `recordExtraction`. -/
structure ExtractionRequest where
  captureId : ℕ
  envelope : OfficialOfferExtractionEnvelope
  edition : OfficialOfferEdition
  context : OfficialOfferExtractionValidationContext
  timing : OfficialOfferExtractionTiming
  authorization : OfficialOfferAuthorizationFence
  ocrAuthorization : Option OfficialOfferAuthorizationFence

/-- The schemas of the arguments of `recordExtraction`. -/
@[mk_iff] structure ExtractionRequestSchema (request : ExtractionRequest) : Prop where
  captureId : PositiveSafeInteger request.captureId
  envelope : OfficialOfferExtractionEnvelopeSchema request.envelope
  edition : OfficialOfferEditionSchema request.edition
  context : OfficialOfferExtractionValidationContextSchema request.context
  timing : OfficialOfferExtractionTimingSchema request.timing
  authorization : OfficialOfferAuthorizationFenceSchema request.authorization
  ocrAuthorization :
    ∀ fence ∈ request.ocrAuthorization, OfficialOfferAuthorizationFenceSchema fence

instance : DecidablePred ExtractionRequestSchema :=
  fun _ => decidable_of_iff' _ (extractionRequestSchema_iff _)

/-- `validateExtractionTiming`, on the clocks of the capture and of the database. -/
def ExtractionTimingIsValid (envelope : OfficialOfferExtractionEnvelope)
    (timing : OfficialOfferExtractionTiming) (captureRetrievedAt databaseClock : ℤ) : Prop :=
  captureRetrievedAt - maxOfficialOfferClockSkewMs ≤ timing.serverStartedAt ∧
    timing.serverCompletedAt ≤ databaseClock + maxOfficialOfferClockSkewMs ∧
    databaseClock - timing.serverStartedAt ≤
      maxOfficialOfferExtractionDurationMs + maxOfficialOfferClockSkewMs ∧
    captureRetrievedAt - maxOfficialOfferClockSkewMs ≤ envelope.startedAt ∧
    timing.serverStartedAt - maxOfficialOfferClockSkewMs ≤ envelope.startedAt ∧
    envelope.completedAt ≤ timing.serverCompletedAt + maxOfficialOfferClockSkewMs ∧
    envelope.completedAt - envelope.startedAt ≤ maxOfficialOfferExtractionDurationMs

instance (envelope : OfficialOfferExtractionEnvelope) (timing : OfficialOfferExtractionTiming)
    (captureRetrievedAt databaseClock : ℤ) :
    Decidable (ExtractionTimingIsValid envelope timing captureRetrievedAt databaseClock) :=
  inferInstanceAs (Decidable (_ ∧ _ ∧ _ ∧ _ ∧ _ ∧ _ ∧ _))

/-- The capture of a request and its publication. -/
def Store.provenance (store : Store) (captureId : ℕ) : Option (CaptureRow × PublicationRow) :=
  (store.capture captureId).bind fun capture =>
    (store.publication capture.publicationId).map fun publication => (capture, publication)

/-- The payload of a request. -/
def ExtractionRequest.payload (digests : FoundationDigests) (publication : PublicationRow)
    (request : ExtractionRequest) : ExtractionPayload :=
  extractionPayload digests.toDigests publication request.envelope request.edition request.context
    request.timing request.authorization request.ocrAuthorization

/-- The row a payload is stored as. -/
def extractionOf (captureId : ℕ) (payload : ExtractionPayload) (clock : ℤ) (id : ℕ) :
    ExtractionRow where
  id := id
  captureId := captureId
  extractorVersion := payload.envelope.extractorVersion
  status := payload.validationStatus
  startedAt := payload.timing.serverStartedAt
  completedAt := clock
  counts := payload.counts
  errorClass := payload.validationErrorClass
  extractionMethod := payload.envelope.method
  extractionPermissionId := payload.authorization.permissionId
  ocrPermissionId := payload.ocrAuthorization.map fun fence => fence.permissionId
  permissionCapabilities := payload.authorization.capabilities
  sourceStartedAt := payload.envelope.startedAt
  sourceCompletedAt := payload.envelope.completedAt
  emptyResult := payload.envelope.emptyResult
  emptyConfirmation := payload.envelope.emptyConfirmation
  candidates := payload.candidates

/-- `extraction_runs_capture_version_unique`. -/
def HasExtractionKey (request : ExtractionRequest) (row : ExtractionRow) : Prop :=
  row.captureId = request.captureId ∧ row.extractorVersion = request.envelope.extractorVersion

instance (request : ExtractionRequest) : DecidablePred (HasExtractionKey request) :=
  fun _ => inferInstanceAs (Decidable (_ ∧ _))

/-- The counts of a validation in those that are stored. -/
def StoredCounts.counts (counts : StoredCounts) : ExtractionCounts :=
  ⟨counts.exactMatch, counts.rejected, counts.reviewRequired, counts.total⟩

/-- `recordExtraction`. -/
def recordExtraction (digests : FoundationDigests) (store : Store) (request : ExtractionRequest)
    (answers : Answers) : Except FoundationError (Store × RecordedExtraction) :=
  if ¬ ExtractionRequestSchema request then .error .invalidInput
  else if ¬ EditionAuthorizationFence request.edition request.authorization ∨
      ¬ (request.envelope.method = .ocr ↔ request.ocrAuthorization ≠ none) then
    .error .sourceAuthorizationStale
  else
    match store.provenance request.captureId with
    | none => .error .extractionConflict
    | some (capture, publication) =>
      if capture.checksum ≠ request.envelope.captureChecksumSha256 ∨
          ¬ ExactEditionMatch digests.toDigests publication request.edition ∨
          ¬ PositiveSafeInteger capture.capturePermissionId ∨
          ¬ ExtractionTimingIsValid request.envelope request.timing capture.retrievedAt
            answers.clock then
        .error .extractionConflict
      else
        let payload := request.payload digests publication
        if ¬ AuthorizationIsBound request.edition request.authorization then
          .error .sourceAuthorizationStale
        else if ¬ CandidateBindings payload ∨
            publication.declaredGeographicScope ≠ request.edition.declaredGeographicScope ∨
            answers.admitted = false then
          .error .statementFailed
        else
          let inserted := insertOrFind (HasExtractionKey request)
            (extractionOf request.captureId payload answers.clock) store.extractions
          -- the counts returned by the database are those that were sent
          .ok ({ store with extractions := inserted.1 },
            { counts := payload.counts.counts, created := inserted.2.2, id := inserted.2.1.id,
              status := inserted.2.1.status })

/-! ### Calls -/

/-- A call of the repository. -/
inductive Call where
  | recordEdition (edition : OfficialOfferEdition) (authorization : OfficialOfferAuthorizationFence)
  | recordCapture (metadata : OfficialOfferCaptureMetadata) (blobKey : JsString)
      (authorization : OfficialOfferAuthorizationFence)
  | recordExtraction (request : ExtractionRequest)

/-- What a call answers. -/
inductive Recorded where
  | edition (out : RecordedEdition)
  | capture (out : RecordedCapture)
  | extraction (out : RecordedExtraction)

/-- One call. -/
def perform (digests : FoundationDigests) (store : Store) (answers : Answers) :
    Call → Except FoundationError (Store × Recorded)
  | .recordEdition edition authorization =>
    (recordEdition digests store edition authorization answers).map fun out =>
      (out.1, .edition out.2)
  | .recordCapture metadata blobKey authorization =>
    (recordCapture store metadata blobKey authorization answers).map fun out =>
      (out.1, .capture out.2)
  | .recordExtraction request =>
    (recordExtraction digests store request answers).map fun out => (out.1, .extraction out.2)

/-- A row is the one an edition asks for, but for its number and what became of it. -/
def StoresEdition (digests : FoundationDigests) (edition : OfficialOfferEdition)
    (authorization : OfficialOfferAuthorizationFence) (row : PublicationRow) : Prop :=
  row = { publicationOf digests edition authorization row.id with status := row.status }

/-- A row is the one a capture asks for, but for its number and the clock of the database. -/
def StoresCapture (metadata : OfficialOfferCaptureMetadata) (blobKey : JsString)
    (authorization : OfficialOfferAuthorizationFence) (row : CaptureRow) : Prop :=
  row = captureOf metadata blobKey authorization row.retrievedAt row.id

/-- A row is the one a payload asks for, but for its number and the clock of the database. -/
def StoresExtraction (captureId : ℕ) (payload : ExtractionPayload) (row : ExtractionRow) : Prop :=
  row = extractionOf captureId payload row.completedAt row.id

instance (digests : FoundationDigests) (edition : OfficialOfferEdition)
    (authorization : OfficialOfferAuthorizationFence) :
    DecidablePred (StoresEdition digests edition authorization) :=
  fun _ => inferInstanceAs (Decidable (_ = _))

instance (metadata : OfficialOfferCaptureMetadata) (blobKey : JsString)
    (authorization : OfficialOfferAuthorizationFence) :
    DecidablePred (StoresCapture metadata blobKey authorization) :=
  fun _ => inferInstanceAs (Decidable (_ = _))

instance (captureId : ℕ) (payload : ExtractionPayload) :
    DecidablePred (StoresExtraction captureId payload) :=
  fun _ => inferInstanceAs (Decidable (_ = _))

/-- **A call answers with what is stored**: the row it names is the one it asked for, and the
status, the counts, the key and the clock of its answer are those of that row. -/
def Describes (digests : FoundationDigests) (store : Store) : Call → Recorded → Prop
  | .recordEdition edition authorization, .edition out => ∃ row ∈ store.publications,
      row.id = out.id ∧ StoresEdition digests edition authorization row ∧ out.status = row.status
  | .recordCapture metadata blobKey authorization, .capture out => ∃ row ∈ store.captures,
      row.id = out.id ∧ StoresCapture metadata blobKey authorization row ∧
        out.blobKey = row.blobKey ∧ out.retrievedAt = row.retrievedAt
  | .recordExtraction request, .extraction out =>
      ∃ provenance ∈ store.provenance request.captureId, ∃ row ∈ store.extractions,
        row.id = out.id ∧
          StoresExtraction request.captureId (request.payload digests provenance.2) row ∧
          out.counts = row.counts.counts ∧ out.status = row.status
  | _, _ => False

instance (digests : FoundationDigests) (store : Store) (call : Call) (out : Recorded) :
    Decidable (Describes digests store call out) := by
  cases call <;> cases out <;> unfold Describes <;> infer_instance

/-- **The row of the key of a call**, if one is there, is the one the call asks for. -/
def Agrees (digests : FoundationDigests) (store : Store) : Call → Prop
  | .recordEdition edition authorization => ∀ row,
      (store.publications.find? fun row => HasEditionKey edition row) = some row →
        StoresEdition digests edition authorization row
  | .recordCapture metadata blobKey authorization => ∀ row,
      (store.captures.find? fun row => HasCaptureKey metadata row) = some row →
        StoresCapture metadata blobKey authorization row
  | .recordExtraction request => ∀ provenance ∈ store.provenance request.captureId, ∀ row,
      (store.extractions.find? fun row => HasExtractionKey request row) = some row →
        StoresExtraction request.captureId (request.payload digests provenance.2) row

/-! ### One call -/

variable {digests : FoundationDigests} {store store' : Store} {answers : Answers}

/-- Every table is numbered. -/
structure Store.IsNumbered (store : Store) : Prop where
  publications : Numbered (fun row => row.id) store.publications
  captures : Numbered (fun row => row.id) store.captures
  extractions : Numbered (fun row => row.id) store.extractions

/-- What a successful `recordEdition` does. -/
theorem recordEdition_eq_ok {edition : OfficialOfferEdition}
    {authorization : OfficialOfferAuthorizationFence} {out : RecordedEdition}
    (h : recordEdition digests store edition authorization answers = .ok (store', out)) :
    let inserted := insertOrFind (HasEditionKey edition)
      (publicationOf digests edition authorization) store.publications
    store' = { store with publications := inserted.1 } ∧
      out = ⟨inserted.2.2, inserted.2.1.id, inserted.2.1.status⟩ := by
  unfold recordEdition at h
  simp only [ite_error_eq_ok_iff, Except.ok.injEq, Prod.mk.injEq] at h
  obtain ⟨-, -, -, -, rfl, rfl⟩ := h
  exact ⟨rfl, rfl⟩

/-- What a successful `recordCapture` does. -/
theorem recordCapture_eq_ok {metadata : OfficialOfferCaptureMetadata} {blobKey : JsString}
    {authorization : OfficialOfferAuthorizationFence} {out : RecordedCapture}
    (h : recordCapture store metadata blobKey authorization answers = .ok (store', out)) :
    let inserted := insertOrFind (HasCaptureKey metadata)
      (captureOf metadata blobKey authorization answers.clock) store.captures
    store' = { store with
        publications := store.publications.map (captured metadata.publicationId)
        captures := inserted.1 } ∧
      out = ⟨blobKey, inserted.2.2, inserted.2.1.id, inserted.2.1.retrievedAt⟩ := by
  unfold recordCapture at h
  simp only [ite_error_eq_ok_iff, Except.ok.injEq, Prod.mk.injEq] at h
  obtain ⟨-, -, -, -, rfl, rfl⟩ := h
  exact ⟨rfl, rfl⟩

/-- What a successful `recordExtraction` does. -/
theorem recordExtraction_eq_ok {request : ExtractionRequest} {out : RecordedExtraction}
    (h : recordExtraction digests store request answers = .ok (store', out)) :
    ∃ provenance, store.provenance request.captureId = some provenance ∧
      let payload := request.payload digests provenance.2
      let inserted := insertOrFind (HasExtractionKey request)
        (extractionOf request.captureId payload answers.clock) store.extractions
      store' = { store with extractions := inserted.1 } ∧
        out = ⟨payload.counts.counts, inserted.2.2, inserted.2.1.id, inserted.2.1.status⟩ := by
  unfold recordExtraction at h
  simp only [ite_error_eq_ok_iff] at h
  obtain ⟨-, -, h⟩ := h
  cases hprovenance : store.provenance request.captureId with
  | none => simp [hprovenance] at h
  | some provenance =>
    simp only [hprovenance, ite_error_eq_ok_iff, Except.ok.injEq, Prod.mk.injEq] at h
    obtain ⟨-, -, -, rfl, rfl⟩ := h
    exact ⟨provenance, rfl, rfl, rfl⟩

/-- The answer of a mapped call. -/
theorem map_eq_ok_iff {ε α β : Type} {x : Except ε α} {f : α → β} {b : β} :
    x.map f = .ok b ↔ ∃ a, x = .ok a ∧ f a = b := by
  cases x <;> simp [Except.map]

/-- A call keeps the tables numbered. -/
theorem numbered_of_perform (h : store.IsNumbered) {call : Call} {out : Recorded}
    (hok : perform digests store answers call = .ok (store', out)) : store'.IsNumbered := by
  cases call with
  | recordEdition edition authorization =>
    obtain ⟨⟨after, result⟩, hok, heq⟩ := map_eq_ok_iff.mp hok
    obtain ⟨rfl, -⟩ := recordEdition_eq_ok hok
    obtain ⟨rfl, -⟩ := Prod.mk.inj heq
    exact ⟨numbered_insertOrFind h.publications fun _ => rfl, h.captures, h.extractions⟩
  | recordCapture metadata blobKey authorization =>
    obtain ⟨⟨after, result⟩, hok, heq⟩ := map_eq_ok_iff.mp hok
    obtain ⟨rfl, -⟩ := recordCapture_eq_ok hok
    obtain ⟨rfl, -⟩ := Prod.mk.inj heq
    refine ⟨h.publications.map fun row => ?_, numbered_insertOrFind h.captures fun _ => rfl,
      h.extractions⟩
    unfold captured
    split_ifs <;> rfl
  | recordExtraction request =>
    obtain ⟨⟨after, result⟩, hok, heq⟩ := map_eq_ok_iff.mp hok
    obtain ⟨provenance, -, rfl, -⟩ := recordExtraction_eq_ok hok
    obtain ⟨rfl, -⟩ := Prod.mk.inj heq
    exact ⟨h.publications, h.captures, numbered_insertOrFind h.extractions fun _ => rfl⟩

/-- **The answer of one call**: a successful call answers with what is stored, and that is what it
asked for, exactly when the row of its key agreed with it.

**Proof sketch.** The row of the answer is the one the insertion ends with, and its number is that
of no other row. A new row is what the call asks for; the row that was there is so exactly when it
agrees, and then what is echoed from the call is what is stored. -/
theorem describes_iff_agrees (h : store.IsNumbered) {call : Call} {out : Recorded}
    (hok : perform digests store answers call = .ok (store', out)) :
    Describes digests store' call out ↔ Agrees digests store call := by
  have hnumbered := numbered_of_perform h hok
  cases call with
  | recordEdition edition authorization =>
    obtain ⟨⟨after, result⟩, hok, heq⟩ := map_eq_ok_iff.mp hok
    obtain ⟨rfl, rfl⟩ := recordEdition_eq_ok hok
    cases heq
    refine Iff.trans ?_ (forall_found_iff (HasEditionKey edition)
      (publicationOf digests edition authorization) fun n => rfl)
    constructor
    · rintro ⟨row, hrow, hid, hstores, -⟩
      rwa [← hnumbered.publications.eq_of_number_eq hrow row_mem_insertOrFind hid]
    · exact fun hstores => ⟨_, row_mem_insertOrFind, rfl, hstores, rfl⟩
  | recordCapture metadata blobKey authorization =>
    obtain ⟨⟨after, result⟩, hok, heq⟩ := map_eq_ok_iff.mp hok
    obtain ⟨rfl, rfl⟩ := recordCapture_eq_ok hok
    cases heq
    refine Iff.trans ?_ (forall_found_iff (HasCaptureKey metadata)
      (captureOf metadata blobKey authorization answers.clock) fun n => rfl)
    constructor
    · rintro ⟨row, hrow, hid, hstores, -⟩
      rwa [← hnumbered.captures.eq_of_number_eq hrow row_mem_insertOrFind hid]
    · intro hstores
      refine ⟨_, row_mem_insertOrFind, rfl, hstores, ?_, rfl⟩
      rw [hstores]
      rfl
  | recordExtraction request =>
    obtain ⟨⟨after, result⟩, hok, heq⟩ := map_eq_ok_iff.mp hok
    obtain ⟨provenance, hprovenance, rfl, rfl⟩ := recordExtraction_eq_ok hok
    cases heq
    have hagrees : Agrees digests store (.recordExtraction request) ↔ ∀ row,
        (store.extractions.find? fun row => HasExtractionKey request row) = some row →
          StoresExtraction request.captureId (request.payload digests provenance.2) row :=
      ⟨fun hall => hall provenance hprovenance, fun hall other hother => by
        obtain rfl := Option.some.inj (hprovenance.symm.trans hother)
        exact hall⟩
    rw [hagrees]
    refine Iff.trans ?_ (forall_found_iff (HasExtractionKey request)
      (extractionOf request.captureId (request.payload digests provenance.2)
        answers.clock) fun n => rfl)
    constructor
    · rintro ⟨other, hother, row, hrow, hid, hstores, -⟩
      obtain rfl := Option.some.inj (hprovenance.symm.trans hother)
      rwa [← hnumbered.extractions.eq_of_number_eq hrow row_mem_insertOrFind hid]
    · intro hstores
      refine ⟨provenance, hprovenance, _, row_mem_insertOrFind, rfl, hstores, ?_, rfl⟩
      rw [hstores]
      rfl

/-! ### Sequences of calls -/

/-- The empty tables. -/
def Store.empty : Store := ⟨[], [], []⟩

/-- One call of a sequence, and the tables it finds. -/
structure Performed where
  before : Store
  call : Call
  answers : Answers

/-- The tables after a call; a call that fails leaves them as they are. -/
def Performed.after (digests : FoundationDigests) (p : Performed) : Store :=
  match perform digests p.before p.answers p.call with
  | .ok (store, _) => store
  | .error _ => p.before

/-- The calls of a sequence, each with the tables it finds. -/
def history (digests : FoundationDigests) : Store → List (Call × Answers) → List Performed
  | _, [] => []
  | store, (call, answers) :: calls =>
    let performed : Performed := ⟨store, call, answers⟩
    performed :: history digests (performed.after digests) calls

/-- Every call of a sequence finds numbered tables. -/
theorem numbered_of_mem_history {calls : List (Call × Answers)} (h : store.IsNumbered)
    {p : Performed} (hp : p ∈ history digests store calls) : p.before.IsNumbered := by
  induction calls generalizing store with
  | nil => cases hp
  | cons entry calls ih =>
    obtain rfl | hp := List.mem_cons.mp hp
    · exact h
    · refine ih ?_ hp
      unfold Performed.after
      split
      next after out hok => exact numbered_of_perform h hok
      next => exact h

/-- **The answers of every sequence of calls**: a call of the sequence that succeeds answers with
what is stored, and that is what it asked for, exactly when the row of its key that it finds, if
there is one, agrees with it. -/
theorem replays_describe_iff (digests : FoundationDigests) (calls : List (Call × Answers)) :
    ∀ p ∈ history digests Store.empty calls, ∀ after out,
      perform digests p.before p.answers p.call = .ok (after, out) →
        (Describes digests after p.call out ↔ Agrees digests p.before p.call) := by
  intro p hp after out hok
  have hempty : Store.empty.IsNumbered := ⟨Numbered.nil, Numbered.nil, Numbered.nil⟩
  exact describes_iff_agrees (numbered_of_mem_history hempty hp) hok

/-! ### Calls that repeat a key with other contents -/

/-- One digest for every text. -/
def oneFoundationDigest : FoundationDigests := { oneDigest with stored := fun _ => digestOf 48 }

/-- The bytes of an edition. -/
def catalogMetadata : OfficialOfferCaptureMetadata where
  publicationId := 1
  sourceId := js "bunnpris-tjek"
  externalEditionId := js "week-27"
  checksumSha256 := digestOf 48
  mimeType := js "application/json"
  byteLength := 1000
  rightsClassification := .privateReview
  retrievedAt := 1782907199000

/-- The extraction of an envelope from those bytes. -/
def catalogRequest (envelope : OfficialOfferExtractionEnvelope) : ExtractionRequest where
  captureId := 1
  envelope := envelope
  edition := catalogEdition
  context := catalogContext
  timing := ⟨1782907200000, 1782907201000⟩
  authorization := catalogAuthorization
  ocrAuthorization := none

/-- Each of the three calls, and again with the same key and other contents: a new title, another
place of the bytes, and one candidate less. -/
def repeatedCalls : List (Call × Answers) :=
  [(.recordEdition catalogEdition catalogAuthorization, ⟨1782907198000, true⟩),
    (.recordEdition { catalogEdition with title := js "Week 27, corrected" } catalogAuthorization,
      ⟨1782907198500, true⟩),
    (.recordCapture catalogMetadata (js "private/first") catalogAuthorization,
      ⟨1782907199000, true⟩),
    (.recordCapture catalogMetadata (js "private/second") catalogAuthorization,
      ⟨1782907199500, true⟩),
    (.recordExtraction (catalogRequest (catalogEnvelope 48 (js "a") (js "b"))),
      ⟨1782907201000, true⟩),
    (.recordExtraction (catalogRequest
      { catalogEnvelope 48 (js "a") (js "b") with candidates := [catalogCandidate (js "a") 1990] }),
      ⟨1782907202000, true⟩)]

/-- Whether a call succeeds with an answer that is not what is stored. -/
def Misdescribes (digests : FoundationDigests) (p : Performed) : Prop :=
  match perform digests p.before p.answers p.call with
  | .ok (after, out) => ¬ Describes digests after p.call out
  | .error _ => False

instance (digests : FoundationDigests) : DecidablePred (Misdescribes digests) := fun p => by
  unfold Misdescribes
  split <;> infer_instance

/-- An edition, recorded twice. -/
def sameCalls : List (Call × Answers) :=
  [(.recordEdition catalogEdition catalogAuthorization, ⟨1782907198000, true⟩),
    (.recordEdition catalogEdition catalogAuthorization, ⟨1782907198500, true⟩)]

/-- The second of the two calls succeeds, finds the row of the first one, and agrees with it: so it
answers with what is stored. -/
theorem replays_describe_same_call :
    ∃ p ∈ history oneFoundationDigest Store.empty sameCalls, p.before.publications.length = 1 ∧
      ∃ after out, perform oneFoundationDigest p.before p.answers p.call = .ok (after, out) ∧
        Describes oneFoundationDigest after p.call out ∧
          Agrees oneFoundationDigest p.before p.call := by
  have hex : ∃ p ∈ history oneFoundationDigest Store.empty sameCalls,
      p.before.publications.length = 1 ∧
        (perform oneFoundationDigest p.before p.answers p.call).isOk = true ∧
          ¬ Misdescribes oneFoundationDigest p := by decide +kernel
  obtain ⟨p, hp, hlength, hok, hmis⟩ := hex
  unfold Misdescribes at hmis
  cases hperform : perform oneFoundationDigest p.before p.answers p.call with
  | error e =>
    rw [hperform] at hok
    cases hok
  | ok result =>
    obtain ⟨after, out⟩ := result
    rw [hperform] at hmis
    have hdescribes := not_not.mp hmis
    exact ⟨p, hp, hlength, after, out, hperform, hdescribes,
      (replays_describe_iff oneFoundationDigest sameCalls p hp after out hperform).mp hdescribes⟩

-- the second call of each kind succeeds, and does not answer with what is stored
example : (history oneFoundationDigest Store.empty repeatedCalls).map
    (fun p => decide (Misdescribes oneFoundationDigest p)) =
      [false, true, false, true, false, true] := by
  decide +kernel

/-- **A repeated call that succeeds with other contents**: the edition under a new title is answered
with the number of the stored one, whose title is the old one. -/
theorem not_described_repeated_calls :
    ¬ ∀ p ∈ history oneFoundationDigest Store.empty repeatedCalls, ∀ after out,
      perform oneFoundationDigest p.before p.answers p.call = .ok (after, out) →
        Describes oneFoundationDigest after p.call out := by
  intro hall
  have hex : ∃ p ∈ history oneFoundationDigest Store.empty repeatedCalls,
      Misdescribes oneFoundationDigest p := by decide +kernel
  obtain ⟨p, hp, hmis⟩ := hex
  unfold Misdescribes at hmis
  split at hmis
  next after out hok => exact hmis (hall p hp after out hok)
  next => exact hmis

end Handleplan.Foundation
