import Handleplan.Domain.OfferIngestion
import Handleplan.Lib.Interaction

/-!
# The official-offer foundation pipeline

`OfficialOfferFoundationPipeline.captureAndExtract` records an edition, stores its bytes, records
the capture, lets extractors read it and records what the first available one returns. Before its
effects it asks the source-access policy, which may change its answer at any time.

## Main definitions

* `Pipeline.Query`, `Answer` — what the pipeline asks of its ports, its clock and its
  signal.
* `Pipeline.assertAuthorized` — a decision of the policy for a capability.
* `Pipeline.extractStructuredFirst` — the extractors in turn.
* `Pipeline.captureAndExtract` — the pipeline.

## Implementation notes

A port that throws answers `none`, and a value that does not parse is one that fails its schema. The
digests of bytes and of texts are arbitrary functions. The checks of the keys of the input are left
out: the input is a record.
-/

namespace Handleplan.Pipeline

open JsString Sorting Interaction

/-! ### Ports -/

/-- `OfficialOfferFoundationWorkerErrorCode`, with what a port throws. -/
inductive WorkerError where
  | blobConflict | cancelled | checksumMismatch | extractorContract | invalidInput
  | noExtractorAvailable | resolverContract | sourceDisabled | portFailed
  deriving DecidableEq

/-- `OfficialOfferPrivateBlobWrite`. -/
structure PrivateBlobWrite where
  blobKey : JsString
  byteLength : ℕ
  bytes : List UInt8
  checksumSha256 : JsString
  mimeType : JsString
  rightsClassification : RightsClassification

/-- `state` of a blob write. -/
inductive BlobWriteState where
  | alreadyPresent | stored

/-- `blobWriteResultSchema`, its type. -/
structure BlobWriteResult where
  state : BlobWriteState
  checksumSha256 : JsString
  byteLength : ℕ

/-- `blobWriteResultSchema`. -/
def BlobWriteResultSchema (result : BlobWriteResult) : Prop :=
  Sha256Schema result.checksumSha256 ∧ 0 < result.byteLength ∧ result.byteLength ≤ 50 * 1024 * 1024

instance : DecidablePred BlobWriteResultSchema := fun _ => inferInstanceAs (Decidable (_ ∧ _ ∧ _))

/-- `OfficialOfferExtractor`. -/
structure Extractor where
  extractorVersion : JsString
  method : ExtractionMethod

/-- `OfficialOfferExtractionInput`. -/
structure ExtractionInput where
  captureId : ℕ
  captureMetadata : OfficialOfferCaptureMetadata
  privateBlobKey : JsString

/-- `reason` of an unavailable outcome. -/
inductive UnavailableReason where
  | noEmbeddedText | noOcrInput | noStructuredContent
  deriving DecidableEq

/-- `extractorOutcomeSchema`, its type, and the answers that do not parse. -/
inductive ExtractorOutcome where
  | available (envelope : OfficialOfferExtractionEnvelope)
  | unavailable (reason : UnavailableReason)
  | malformed

/-- What `recordCapture` of the repository answers. -/
structure CaptureReceipt where
  id : ℕ
  retrievedAt : ℤ

/-- What `recordExtraction` of the repository answers; a status that is none of the three is
missing. -/
structure ExtractionReceipt where
  counts : ExtractionCounts
  id : ℕ
  status : Option ExtractionValidationStatus

/-- The arguments of `recordExtraction`. -/
structure ExtractionRecord where
  captureId : ℕ
  envelope : OfficialOfferExtractionEnvelope
  edition : OfficialOfferEdition
  validationContext : OfficialOfferExtractionValidationContext
  timing : OfficialOfferExtractionTiming
  authorization : OfficialOfferAuthorizationFence
  ocrAuthorization : Option OfficialOfferAuthorizationFence

/-- What the pipeline asks. -/
inductive Query where
  | now
  | aborted
  /-- The rights classification is a label: its asker looks for it in the answer. -/
  | getDecision (sourceId : JsString) (capability : AuthorizationCapability)
      (rights : Option RightsClassification) (asOf : ℤ)
  | recordEdition (edition : OfficialOfferEdition) (authorization : OfficialOfferAuthorizationFence)
  | putIfAbsent (write : PrivateBlobWrite)
  | recordCapture (metadata : OfficialOfferCaptureMetadata) (blobKey : JsString)
      (authorization : OfficialOfferAuthorizationFence)
  | extract (extractor : Extractor) (input : ExtractionInput)
  | resolveGtins (gtins : List JsString)
  | recordExtraction (record : ExtractionRecord)

/-- What is answered; a clock that has no valid date answers `none`, like a port that throws. -/
def Answer : Query → Type
  | .now => Option ℤ
  | .aborted => Bool
  | .getDecision _ _ _ _ => Option OfficialOfferAuthorizationFence
  | .recordEdition _ _ => Option ℕ
  | .putIfAbsent _ => Option BlobWriteResult
  | .recordCapture _ _ _ => Option CaptureReceipt
  | .extract _ _ => Option ExtractorOutcome
  | .resolveGtins _ => Option (List (JsString × List JsString))
  | .recordExtraction _ => Option ExtractionReceipt

/-- A program of the pipeline. -/
abbrev Program := Prog Query Answer WorkerError

/-- One query of the pipeline. -/
def ask (query : Query) : Program (Answer query) := Prog.query query

/-- `fail`. -/
def fail {α : Type} (code : WorkerError) : Program α := .fail code

/-- An answer, unless the port throws. -/
def orThrow {α : Type} (code : WorkerError) : Option α → Program α
  | some a => pure a
  | none => fail code

/-- Fail unless a condition holds. -/
def require (p : Prop) [Decidable p] (code : WorkerError) : Program Unit :=
  if p then pure () else fail code

/-- `throwIfCancelled`. -/
def throwIfCancelled : Program Unit := do
  let aborted : Bool ← ask .aborted
  require (aborted = false) .cancelled

/-- `canonicalNow`. -/
def canonicalNow : Program ℤ := do
  let now : Option ℤ ← ask .now
  orThrow .invalidInput now

/-! ### Options and input -/

/-- `OfficialOfferFoundationPipelineOptions`, as the constructor admits them. -/
structure PipelineOptions where
  structuredExtractor : Extractor
  embeddedTextExtractor : Option Extractor
  ocrExtractor : Option Extractor
  expectedLayoutFingerprintsSha256 : List JsString
  expectedSchemaFingerprintSha256 : JsString
  structured : structuredExtractor.method = .structured
  embeddedText : ∀ extractor ∈ embeddedTextExtractor, extractor.method = .embeddedText
  ocr : ∀ extractor ∈ ocrExtractor, extractor.method = .ocr
  layouts : (1 ≤ expectedLayoutFingerprintsSha256.length ∧
      expectedLayoutFingerprintsSha256.length ≤ 20) ∧
    (∀ s ∈ expectedLayoutFingerprintsSha256, Sha256Schema s) ∧
    expectedLayoutFingerprintsSha256.Nodup
  schema : Sha256Schema expectedSchemaFingerprintSha256

/-- `nonOcrExtractors`. -/
def PipelineOptions.nonOcrExtractors (options : PipelineOptions) : List Extractor :=
  options.structuredExtractor :: options.embeddedTextExtractor.toList

/-- `OfficialOfferFoundationPipelineInput`. -/
structure PipelineInput where
  bytes : List UInt8
  edition : OfficialOfferEdition
  expectedChecksumSha256 : Option JsString
  mimeType : JsString
  rightsClassification : RightsClassification

/-- `OfficialOfferFoundationPipelineReceipt`. -/
structure PipelineReceipt where
  counts : ExtractionCounts
  extractionMethod : ExtractionMethod
  extractionRunId : ℕ
  status : ExtractionValidationStatus

/-! ### Authorization -/

/-- Whether a decision of the policy is positive for a source and a capability at a clock. -/
@[mk_iff] structure IsPositive (sourceId : JsString) (capability : AuthorizationCapability)
    (asOf : ℤ) (fence : OfficialOfferAuthorizationFence) : Prop where
  schema : OfficialOfferAuthorizationFenceSchema fence
  sourceId : fence.sourceId = sourceId
  capability : capability ∈ fence.capabilities
  evaluatedAt : fence.evaluatedAt = ⟨asOf, none⟩
  reviewedAt : fence.reviewedAt.ms ≤ asOf
  validUntil : ∀ t ∈ fence.validUntil, asOf < t.ms

instance (sourceId : JsString) (capability : AuthorizationCapability) (asOf : ℤ) :
    DecidablePred (IsPositive sourceId capability asOf) :=
  fun _ => decidable_of_iff' _ (isPositive_iff _ _ _ _)

/-- `assertSourceEnabled`. -/
def assertSourceEnabled (sourceId : JsString) (capability : AuthorizationCapability)
    (rights : Option RightsClassification) : Program OfficialOfferAuthorizationFence := do
  throwIfCancelled
  let asOf ← canonicalNow
  let answer : Option OfficialOfferAuthorizationFence ←
    ask (.getDecision sourceId capability rights asOf)
  let fence ← orThrow .portFailed answer
  throwIfCancelled
  require (IsPositive sourceId capability asOf fence) .sourceDisabled
  pure fence

/-- Whether the edition itself carries an authorization of a capability at a clock. -/
def EditionAllows (edition : OfficialOfferEdition) (capability : AuthorizationCapability)
    (asOf : ℤ) : Prop :=
  capability ∈ edition.authorization.capabilities ∧ edition.authorization.reviewedAt.ms ≤ asOf ∧
    ∀ t ∈ edition.authorization.validUntil, asOf < t.ms

instance (edition : OfficialOfferEdition) (capability : AuthorizationCapability) (asOf : ℤ) :
    Decidable (EditionAllows edition capability asOf) :=
  inferInstanceAs (Decidable (_ ∧ _ ∧ _))

/-- Whether an authorization covers a rights classification, if one is asked for. -/
def Covers (rights : Option RightsClassification) (fence : OfficialOfferAuthorizationFence) :
    Prop :=
  ∀ r ∈ rights, r ∈ fence.rightsClassifications

instance (rights : Option RightsClassification) : DecidablePred (Covers rights) :=
  fun _ => inferInstanceAs (Decidable (∀ r ∈ rights, _))

/-- `assertAuthorized`. -/
def assertAuthorized (edition : OfficialOfferEdition) (capability : AuthorizationCapability)
    (rights : Option RightsClassification) : Program OfficialOfferAuthorizationFence := do
  let asOf ← canonicalNow
  require (EditionAllows edition capability asOf) .sourceDisabled
  let authorization ← assertSourceEnabled edition.sourceId capability rights
  require (Covers rights authorization) .sourceDisabled
  pure authorization

/-! ### Extractors -/

/-- The reason each method may be unavailable for. -/
def reasonOf : ExtractionMethod → UnavailableReason
  | .embeddedText => .noEmbeddedText
  | .ocr => .noOcrInput
  | .structured => .noStructuredContent

/-- What an extractor returns, unless the answer breaks its contract: an envelope, or that it is
unavailable. -/
def outcomeOf (extractor : Extractor) :
    ExtractorOutcome → Program (Option OfficialOfferExtractionEnvelope)
  | .available envelope => pure (some envelope)
  | .unavailable reason => do
    require (reason = reasonOf extractor.method) .extractorContract
    pure none
  | .malformed => fail .extractorContract

/-- `runExtractor`. -/
def runExtractor (extractor : Extractor) (edition : OfficialOfferEdition)
    (input : ExtractionInput) : Program (Option OfficialOfferExtractionEnvelope) := do
  let _ ← assertAuthorized edition .extract none
  let answer : Option ExtractorOutcome ← ask (.extract extractor input)
  let outcome ← orThrow .portFailed answer
  throwIfCancelled
  let _ ← assertAuthorized edition .extract none
  outcomeOf extractor outcome

/-- The loop of `extractStructuredFirst`: the first of the extractors that is available. -/
def firstAvailable (edition : OfficialOfferEdition) (input : ExtractionInput) :
    List Extractor → Program (Option (Extractor × OfficialOfferExtractionEnvelope))
  | [] => pure none
  | extractor :: extractors => do
    match ← runExtractor extractor edition input with
    | some envelope => pure (some (extractor, envelope))
    | none => firstAvailable edition input extractors

/-- The OCR extractor, when there is one and the edition is authorized for it. -/
def runOcr (options : PipelineOptions) (edition : OfficialOfferEdition)
    (input : ExtractionInput) : Program (Extractor × OfficialOfferExtractionEnvelope) :=
  match options.ocrExtractor with
  | none => fail .noExtractorAvailable
  | some ocr =>
    if .ocr ∉ edition.authorization.capabilities then fail .noExtractorAvailable
    else do
      let _ ← assertAuthorized edition .ocr none
      match ← runExtractor ocr edition input with
      | some envelope => pure (ocr, envelope)
      | none => fail .noExtractorAvailable

/-- `extractStructuredFirst`. -/
def extractStructuredFirst (options : PipelineOptions) (edition : OfficialOfferEdition)
    (input : ExtractionInput) : Program (Extractor × OfficialOfferExtractionEnvelope) := do
  match ← firstAvailable edition input options.nonOcrExtractors with
  | some found => pure found
  | none => runOcr options edition input

/-! ### The pipeline -/

section

variable (sha256 : List UInt8 → JsString) (sha256Text : JsString → JsString)

/-- `privateBlobKey`. -/
def privateBlobKey (sourceId : JsString) (publicationId : ℕ) (checksum : JsString) : JsString :=
  js "official-offers/private/v1/" ++ sha256Text sourceId ++ js "/" ++ ofNat publicationId ++
    js "/" ++ checksum

variable (input : PipelineInput)

/-- The metadata of the bytes of an input. -/
def captureMetadataOf (publicationId : ℕ) (retrievedAt : ℤ) :
    OfficialOfferCaptureMetadata where
  publicationId := publicationId
  sourceId := input.edition.sourceId
  externalEditionId := input.edition.externalEditionId
  checksumSha256 := sha256 input.bytes
  mimeType := input.mimeType
  byteLength := input.bytes.length
  rightsClassification := input.rightsClassification
  retrievedAt := retrievedAt

/-- The checks of the input. -/
def InputIsValid : Prop :=
  (1 ≤ input.bytes.length ∧ input.bytes.length ≤ 50 * 1024 * 1024) ∧
    (∀ s ∈ input.expectedChecksumSha256, Sha256Schema s) ∧
    OfficialOfferEditionSchema input.edition

instance : DecidablePred InputIsValid := fun _ => inferInstanceAs (Decidable (_ ∧ _ ∧ _))

/-- The write of the bytes of an input. -/
def blobWriteOf (metadata : OfficialOfferCaptureMetadata) (blobKey : JsString) :
    PrivateBlobWrite where
  blobKey := blobKey
  byteLength := input.bytes.length
  bytes := input.bytes
  checksumSha256 := metadata.checksumSha256
  mimeType := metadata.mimeType
  rightsClassification := metadata.rightsClassification

/-- The edition is recorded under a decision of its own. -/
def recordEditionFirst : Program ℕ := do
  let authorization ← assertAuthorized input.edition .discover none
  let answer : Option ℕ ← ask (.recordEdition input.edition authorization)
  let publicationId ← orThrow .portFailed answer
  require (PositiveSafeInteger publicationId) .invalidInput
  throwIfCancelled
  pure publicationId

/-- The bytes are stored, and the capture recorded, each under a decision of its own. -/
def storeAndRecordCapture (publicationId : ℕ) :
    Program (ExtractionInput × BlobWriteResult) := do
  let _ ← assertAuthorized input.edition .discover none
  let _ ← assertAuthorized input.edition .capture (some input.rightsClassification)
  require (∀ s ∈ input.expectedChecksumSha256, s = sha256 input.bytes) .checksumMismatch
  let retrievedAt ← canonicalNow
  let metadata := captureMetadataOf sha256 input publicationId retrievedAt
  require (OfficialOfferCaptureMetadataSchema metadata) .invalidInput
  let blobKey := privateBlobKey sha256Text input.edition.sourceId publicationId
    metadata.checksumSha256
  let answer : Option BlobWriteResult ←
    ask (.putIfAbsent (blobWriteOf input metadata blobKey))
  let blobWrite ← orThrow .portFailed answer
  throwIfCancelled
  require (BlobWriteResultSchema blobWrite ∧ blobWrite.checksumSha256 = metadata.checksumSha256 ∧
    blobWrite.byteLength = metadata.byteLength) .blobConflict
  let authorization ← assertAuthorized input.edition .capture (some input.rightsClassification)
  let answer : Option CaptureReceipt ←
    ask (.recordCapture metadata blobKey authorization)
  let capture ← orThrow .portFailed answer
  require (PositiveSafeInteger capture.id) .invalidInput
  require (CanonicalTimestamp capture.retrievedAt) .portFailed
  throwIfCancelled
  let _ ← assertAuthorized input.edition .capture (some input.rightsClassification)
  pure (⟨capture.id, { metadata with retrievedAt := capture.retrievedAt }, blobKey⟩, blobWrite)

/-- `exactLookupContext`: one entry for each requested GTIN, with at most twenty distinct
identifiers. -/
def ExactLookupContext (entries : List (JsString × List JsString)) (gtins : List JsString) :
    Prop :=
  gtins.length ≤ 500 ∧ sortBy compareText (entries.map Prod.fst) = gtins ∧
    ∀ entry ∈ entries, entry.2.length ≤ 20 ∧ entry.2.Nodup ∧ ∀ id ∈ entry.2, IdentifierSchema id

instance (entries : List (JsString × List JsString)) (gtins : List JsString) :
    Decidable (ExactLookupContext entries gtins) :=
  inferInstanceAs (Decidable (_ ∧ _ ∧ _))

/-- `assertEnvelopeTiming`. -/
def EnvelopeTimingIsValid (envelope : OfficialOfferExtractionEnvelope) (captureRetrievedAt : ℤ)
    (timing : OfficialOfferExtractionTiming) : Prop :=
  captureRetrievedAt - maxOfficialOfferClockSkewMs ≤ envelope.startedAt ∧
    timing.serverStartedAt - maxOfficialOfferClockSkewMs ≤ envelope.startedAt ∧
    envelope.completedAt ≤ timing.serverCompletedAt + maxOfficialOfferClockSkewMs ∧
    envelope.completedAt - envelope.startedAt ≤ maxOfficialOfferExtractionDurationMs

instance (envelope : OfficialOfferExtractionEnvelope) (captureRetrievedAt : ℤ)
    (timing : OfficialOfferExtractionTiming) :
    Decidable (EnvelopeTimingIsValid envelope captureRetrievedAt timing) :=
  inferInstanceAs (Decidable (_ ∧ _ ∧ _ ∧ _))

/-- Whether the envelope of an extractor is bound to it and to the stored bytes. -/
def EnvelopeIsBound (extractor : Extractor) (metadata : OfficialOfferCaptureMetadata)
    (blobWrite : BlobWriteResult) (envelope : OfficialOfferExtractionEnvelope) : Prop :=
  OfficialOfferExtractionEnvelopeSchema envelope ∧ envelope.method = extractor.method ∧
    envelope.extractorVersion = extractor.extractorVersion ∧
    envelope.captureChecksumSha256 = metadata.checksumSha256 ∧
    envelope.captureChecksumSha256 = blobWrite.checksumSha256

instance (extractor : Extractor) (metadata : OfficialOfferCaptureMetadata)
    (blobWrite : BlobWriteResult) (envelope : OfficialOfferExtractionEnvelope) :
    Decidable (EnvelopeIsBound extractor metadata blobWrite envelope) :=
  inferInstanceAs (Decidable (_ ∧ _ ∧ _ ∧ _ ∧ _))

/-- `verifiedCounts`, and the checks of the rest of a receipt. -/
def ReceiptIsValid (receipt : ExtractionReceipt) (method : ExtractionMethod) : Prop :=
  receipt.counts.total =
      receipt.counts.exactMatch + receipt.counts.rejected + receipt.counts.reviewRequired ∧
    receipt.counts.total ≤ maxSafeInteger ∧ (method = .ocr → receipt.counts.exactMatch = 0)

instance (receipt : ExtractionReceipt) (method : ExtractionMethod) :
    Decidable (ReceiptIsValid receipt method) :=
  inferInstanceAs (Decidable (_ ∧ _ ∧ _))

/-- The authorization of an OCR extraction, and none for the others. -/
def ocrAuthorizationOf (input : PipelineInput) (method : ExtractionMethod) :
    Program (Option OfficialOfferAuthorizationFence) :=
  if method = .ocr then do
    let authorization ← assertAuthorized input.edition .ocr (some input.rightsClassification)
    pure (some authorization)
  else pure none

variable (options : PipelineOptions)

/-- The envelope is resolved and recorded, under decisions of its own. -/
def resolveAndRecord (input : PipelineInput) (extraction : ExtractionInput)
    (envelope : OfficialOfferExtractionEnvelope) (serverStartedAt : ℤ) :
    Program PipelineReceipt := do
  let gtins := requestedGtins envelope.candidates
  let answer : Option (List (JsString × List JsString)) ← ask (.resolveGtins gtins)
  let lookups ← orThrow .portFailed answer
  require (ExactLookupContext lookups gtins) .resolverContract
  throwIfCancelled
  let authorization ← assertAuthorized input.edition .extract (some input.rightsClassification)
  let ocrAuthorization ← ocrAuthorizationOf input envelope.method
  let serverCompletedAt ← canonicalNow
  let timing : OfficialOfferExtractionTiming := ⟨serverStartedAt, serverCompletedAt⟩
  require (OfficialOfferExtractionTimingSchema timing) .portFailed
  require (EnvelopeTimingIsValid envelope extraction.captureMetadata.retrievedAt timing)
    .extractorContract
  let record : ExtractionRecord :=
    { captureId := extraction.captureId
      envelope := envelope
      edition := input.edition
      validationContext :=
        { expectedLayoutFingerprintsSha256 := options.expectedLayoutFingerprintsSha256
          expectedSchemaFingerprintSha256 := options.expectedSchemaFingerprintSha256
          exactProductIdsByGtin := lookups }
      timing := timing
      authorization := authorization
      ocrAuthorization := ocrAuthorization }
  let answer : Option ExtractionReceipt ← ask (.recordExtraction record)
  let receipt ← orThrow .portFailed answer
  require (PositiveSafeInteger receipt.id) .invalidInput
  let status ← orThrow .extractorContract receipt.status
  require (ReceiptIsValid receipt envelope.method) .extractorContract
  pure ⟨receipt.counts, envelope.method, receipt.id, status⟩

/-- `execute`. -/
def execute (input : PipelineInput) : Program PipelineReceipt := do
  throwIfCancelled
  require (InputIsValid input) .invalidInput
  let publicationId ← recordEditionFirst input
  let stored ← storeAndRecordCapture sha256 sha256Text input publicationId
  let serverStartedAt ← canonicalNow
  let selected ← extractStructuredFirst options input.edition stored.1
  require (EnvelopeIsBound selected.1 stored.1.captureMetadata stored.2 selected.2)
    .extractorContract
  resolveAndRecord options input stored.1 selected.2 serverStartedAt

/-- `captureAndExtract`: a failure after the cancellation is reported as such. -/
def captureAndExtract (input : PipelineInput) :
    Program PipelineReceipt :=
  (execute sha256 sha256Text options input).rescue fun error => do
    throwIfCancelled
    fail error

end

end Handleplan.Pipeline
