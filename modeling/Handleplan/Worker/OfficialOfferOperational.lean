import Handleplan.Worker.OfficialOfferPipeline
import Handleplan.Worker.Runner

/-!
# Ingestion of official offers

`OfficialOfferIngestionOrchestrator.run` reads pages of editions, fetches each edition and has the
foundation pipeline capture it. It counts what has been captured, and when it is stopped it hands on
the counts with its error.

## Main definitions

* `OfferIngestionRun.Query`, `Answer` — what the orchestrator asks of its ports and its
  signal.
* `OfferIngestionRun.Progress` — the variables of a run.
* `OfferIngestionRun.ingestEdition`, `ingestPages` — the loops.
* `OfferIngestionRun.run` — the orchestrator.
* `OfferIngestionRun.handlerCounters` — what the job handler makes of the end of a run.

## Implementation notes

A failure carries the variables at the time at which it is thrown. A port that throws answers with
the error, which is not one of the orchestrator's own; an authorizer answers whether it returns
nothing. A value that has not the shape of a page, or of the result of a fetch, is malformed. The
editions of a page are given as what they parse to; one that does not parse is one that fails its
schema.
-/

namespace Handleplan.OfferIngestionRun

open JsString Interaction

open Pipeline (WorkerError PipelineInput PipelineReceipt)

/-! ### Constants -/

/-- `MAX_OFFICIAL_OFFER_DISCOVERY_PAGES`. -/
def maxDiscoveryPages : ℕ := 5

/-- `MAX_OFFICIAL_OFFER_EDITIONS_PER_PAGE`. -/
def maxEditionsPerPage : ℕ := 10

/-- `MAX_OFFICIAL_OFFER_EDITIONS_PER_RUN`. -/
def maxEditionsPerRun : ℕ := 10

/-- `MAX_OFFICIAL_OFFER_DISCOVERY_CURSOR_LENGTH`. -/
def maxCursorLength : ℕ := 512

/-- `MAX_OFFICIAL_OFFER_CAPTURE_BYTES_PER_RUN`. -/
def maxCaptureBytesPerRun : ℕ := 100 * 1024 * 1024

/-- `MAX_CAPTURE_BYTES`. -/
def maxCaptureBytes : ℕ := 50 * 1024 * 1024

/-! ### Ports -/

/-- `operation` of an attempt, with the edition that is to be fetched. -/
inductive AttemptOperation where
  | discover
  | fetch (externalEditionId : JsString)

/-- `OfficialOfferSourceAttemptAuthorizationRequestV1`. -/
structure AttemptRequest where
  operation : AttemptOperation
  sourceId : JsString

/-- `OfficialOfferDiscoveryRequestV1`. -/
structure DiscoveryRequest where
  cursor : Option JsString
  limit : ℕ
  sourceId : JsString

/-- What `discoverPage` returns. -/
inductive DiscoveryAnswer where
  | page (editions : List OfficialOfferEdition) (nextCursor : Option JsString)
  | malformed

/-- What `fetchEdition` returns. -/
inductive FetchAnswer where
  | result (sourceId externalEditionId : JsString) (bytes : List UInt8) (checksumSha256 : JsString)
      (mimeType : JsString) (rightsClassification : RightsClassification)
  | malformed

/-- What the orchestrator asks. -/
inductive Query where
  | aborted
  | authorizeAttempt (request : AttemptRequest)
  | discoverPage (request : DiscoveryRequest)
  | fetchEdition (edition : OfficialOfferEdition)
  | captureAndExtract (input : PipelineInput)

/-- What is answered. -/
def Answer : Query → Type
  | .aborted => Bool
  | .authorizeAttempt _ => Except WorkerError Bool
  | .discoverPage _ => Except WorkerError DiscoveryAnswer
  | .fetchEdition _ => Except WorkerError FetchAnswer
  | .captureAndExtract _ => Except WorkerError PipelineReceipt

/-! ### Runs -/

/-- `OfficialOfferIngestionRunReceiptV1`. -/
structure RunReceipt where
  completed : ℕ
  degraded : ℕ
  discovered : ℕ
  failed : ℕ
  fetched : ℕ
  persisted : ℕ

/-- `OfficialOfferIngestionProgressErrorCode`. -/
inductive ProgressErrorCode where
  | cancelled | failed | sourceDisabled
  deriving DecidableEq

/-- The variables of a run. -/
structure Progress where
  editionKeys : List JsString
  cursors : List JsString
  cursor : Option JsString
  completed : ℕ
  degraded : ℕ
  failed : ℕ
  discovered : ℕ
  fetched : ℕ
  fetchedBytes : ℕ

/-- The variables at the start. -/
def Progress.zero : Progress := ⟨[], [], none, 0, 0, 0, 0, 0, 0⟩

/-- `receipt`. -/
def Progress.receipt (progress : Progress) : RunReceipt where
  completed := progress.completed
  degraded := progress.degraded
  discovered := progress.discovered
  failed := progress.failed
  fetched := progress.fetched
  persisted := progress.fetched

/-- `incrementStatus`. -/
def Progress.incrementStatus (progress : Progress) : ExtractionValidationStatus → Progress
  | .completed => { progress with completed := progress.completed + 1 }
  | .degraded => { progress with degraded := progress.degraded + 1 }
  | .failed => { progress with failed := progress.failed + 1 }

/-- What a run throws. -/
inductive RunError where
  /-- The error of a port or of a check, with the variables when it is thrown. -/
  | thrown (error : WorkerError) (progress : Progress)
  /-- `OfficialOfferIngestionProgressError`. -/
  | progress (code : ProgressErrorCode) (receipt : RunReceipt)

/-- A program of the orchestrator. -/
abbrev Program := Prog Query Answer RunError

/-- One query of the orchestrator. -/
def ask (query : Query) : Program (Answer query) := Prog.query query

section Checks

variable (progress : Progress)

/-- `fail("INVALID_INPUT")`, unless a condition holds. -/
def requireValid (p : Prop) [Decidable p] : Program Unit :=
  Prog.require p (.thrown .invalidInput progress)

/-- What a port returns, unless it throws. -/
def orRethrow {α : Type} : Except WorkerError α → Program α
  | .ok a => pure a
  | .error error => .fail (.thrown error progress)

/-- `throwIfCancelled`. -/
def throwIfCancelled : Program Unit := do
  let aborted : Bool ← ask .aborted
  Prog.require (aborted = false) (.thrown .cancelled progress)

/-- An attempt is authorized before it is made. -/
def authorizeAttempt (request : AttemptRequest) : Program Unit := do
  let answer : Except WorkerError Bool ← ask (.authorizeAttempt request)
  let isUndefined ← orRethrow progress answer
  requireValid progress (isUndefined = true)
  throwIfCancelled progress

end Checks

/-- A unit of a source identifier. -/
def isSourceIdUnit (u : UInt16) : Bool :=
  (97 ≤ u && u ≤ 122) || (48 ≤ u && u ≤ 57) || u == 46 || u == 95 || u == 45

/-- A first unit of a source identifier. -/
def isSourceIdLead (u : UInt16) : Bool := (97 ≤ u && u ≤ 122) || (48 ≤ u && u ≤ 57)

/-- `requireSourceId`, as the condition under which it does not throw. -/
def RequireSourceId (value : JsString) : Prop :=
  (1 ≤ value.length ∧ value.length ≤ 64) ∧ (∀ u ∈ value.head?, isSourceIdLead u = true) ∧
    ∀ u ∈ value, isSourceIdUnit u = true

instance : DecidablePred RequireSourceId := fun _ => inferInstanceAs (Decidable (_ ∧ _ ∧ _))

/-- `OfficialOfferIngestionOrchestratorOptions`, as the constructor admits them. -/
structure OrchestratorOptions where
  sourceId : JsString
  pageLimit : ℕ
  source : RequireSourceId sourceId
  limit : 1 ≤ pageLimit ∧ pageLimit ≤ maxEditionsPerPage

section Orchestrator

variable (host : Host) (options : OrchestratorOptions)

/-- `requireCursor`, as the condition under which it does not throw. -/
def RequireCursor (value : JsString) : Prop :=
  (1 ≤ value.length ∧ value.length ≤ maxCursorLength) ∧ trim value = value ∧
    host.hasControlOrFormat value = false

instance : DecidablePred (RequireCursor host) := fun _ => inferInstanceAs (Decidable (_ ∧ _ ∧ _))

/-- `parseDiscoveryPage`: `none` when it throws. -/
def parseDiscoveryPage : DiscoveryAnswer → Option (List OfficialOfferEdition × Option JsString)
  | .malformed => none
  | .page editions nextCursor =>
    if editions.length ≤ options.pageLimit ∧
        (∀ edition ∈ editions,
          OfficialOfferEditionSchema edition ∧ edition.sourceId = options.sourceId) ∧
        ∀ cursor ∈ nextCursor, RequireCursor host cursor then
      some (editions, nextCursor)
    else none

/-- `parseFetchResult`: `none` when it throws. -/
def parseFetchResult (edition : OfficialOfferEdition) : FetchAnswer → Option PipelineInput
  | .malformed => none
  | .result sourceId externalEditionId bytes checksumSha256 mimeType rightsClassification =>
    if sourceId = edition.sourceId ∧ externalEditionId = edition.externalEditionId ∧
        (1 ≤ bytes.length ∧ bytes.length ≤ maxCaptureBytes) ∧ Sha256Schema checksumSha256 then
      some
        { bytes
          edition
          expectedChecksumSha256 := some checksumSha256
          mimeType
          rightsClassification }
    else none

/-- `editionKey`. -/
def editionKey (edition : OfficialOfferEdition) : JsString :=
  edition.sourceId ++ [0] ++ edition.externalEditionId

variable (progress : Progress)

/-- The variables when an edition has been seen. -/
def Progress.see (edition : OfficialOfferEdition) : Progress :=
  { progress with
    editionKeys := editionKey edition :: progress.editionKeys
    discovered := progress.discovered + 1 }

/-- The variables when the bytes of an edition have been fetched. -/
def Progress.fetch (input : PipelineInput) : Progress :=
  { progress with fetchedBytes := progress.fetchedBytes + input.bytes.length }

/-- The variables when a capture has been counted. -/
def Progress.count (receipt : PipelineReceipt) : Progress :=
  let progress := progress.incrementStatus receipt.status
  { progress with fetched := progress.fetched + 1 }

/-- The part of the loop over the editions that fetches an edition. -/
def fetchEdition (progress : Progress) (edition : OfficialOfferEdition) : Program PipelineInput := do
  authorizeAttempt progress ⟨.fetch edition.externalEditionId, options.sourceId⟩
  let answer : Except WorkerError FetchAnswer ← ask (.fetchEdition edition)
  let fetchResult ← orRethrow progress answer
  throwIfCancelled progress
  Prog.orFail (.thrown .invalidInput progress) (parseFetchResult edition fetchResult)

/-- The part of the loop over the editions that captures an edition. -/
def capture (input : PipelineInput) : Program Progress := do
  requireValid progress (progress.fetchedBytes ≤ maxCaptureBytesPerRun)
  let answer : Except WorkerError PipelineReceipt ← ask (.captureAndExtract input)
  let receipt ← orRethrow progress answer
  throwIfCancelled progress
  pure (progress.count receipt)

/-- The body of the loop over the editions of a page. -/
def ingestEdition (edition : OfficialOfferEdition) : Program Progress := do
  requireValid progress (editionKey edition ∉ progress.editionKeys)
  let input ← fetchEdition options (progress.see edition) edition
  capture ((progress.see edition).fetch input) input

/-- The loop over the editions of a page. -/
def ingestEditions : Progress → List OfficialOfferEdition → Program Progress
  | progress, [] => pure progress
  | progress, edition :: editions => do
    let progress ← ingestEdition options progress edition
    ingestEditions progress editions

/-- The part of the loop over the pages that reads a page. -/
def discoverPage (progress : Progress) :
    Program (List OfficialOfferEdition × Option JsString) := do
  authorizeAttempt progress ⟨.discover, options.sourceId⟩
  let answer : Except WorkerError DiscoveryAnswer ← ask
    (.discoverPage ⟨progress.cursor, options.pageLimit, options.sourceId⟩)
  let value ← orRethrow progress answer
  let page ← Prog.orFail (.thrown .invalidInput progress) (parseDiscoveryPage host options value)
  throwIfCancelled progress
  pure page

/-- The variables when a page has been turned. -/
def Progress.turn (nextCursor : JsString) : Progress :=
  { progress with
    cursors := nextCursor :: progress.cursors
    cursor := some nextCursor }

/-- The loop over the pages, with the number of pages that may still be read. -/
def ingestPages : ℕ → Progress → Program RunReceipt
  | 0, progress => .fail (.thrown .invalidInput progress)
  | pages + 1, progress => do
    let page ← discoverPage host options progress
    requireValid progress (progress.discovered + page.1.length ≤ maxEditionsPerRun)
    let progress ← ingestEditions options progress page.1
    match page.2 with
    | none => pure progress.receipt
    | some nextCursor => do
      requireValid progress (nextCursor ∉ progress.cursors)
      ingestPages pages (progress.turn nextCursor)

/-- The code of the error that hands on the progress. -/
def progressErrorCode (cancelled : Bool) (error : WorkerError) : ProgressErrorCode :=
  if cancelled then .cancelled
  else if error = .sourceDisabled then .sourceDisabled
  else .failed

/-- What is thrown where the loops are stopped. -/
def stopped : RunError → Program RunReceipt
  | .progress code receipt => .fail (.progress code receipt)
  | .thrown error progress =>
    if progress.fetched = 0 then .fail (.thrown error progress)
    else do
      let aborted : Bool ← ask .aborted
      let cancelled := aborted || error = .cancelled
      let progress :=
        if cancelled then progress else { progress with failed := progress.failed + 1 }
      .fail (.progress (progressErrorCode cancelled error) progress.receipt)

/-- `run` of the orchestrator. -/
def run : Program RunReceipt := do
  throwIfCancelled .zero
  (ingestPages host options maxDiscoveryPages .zero).rescue stopped

end Orchestrator

/-! ### The handler -/

/-- `countersForIngestion`: `none` when it throws. -/
def countersForIngestion (receipt : RunReceipt) : Option Workers.WorkerRunCounters :=
  if receipt.completed + receipt.degraded ≤ receipt.fetched then
    some
      { accepted := receipt.completed
        failed := receipt.failed
        fetched := receipt.fetched
        persisted := receipt.persisted
        quarantined := receipt.degraded
        unknown := receipt.fetched - receipt.completed - receipt.degraded }
  else none

/-- The counters of a run, as the job handler hands them on: `none` where it throws an error that
has none. -/
def handlerCounters : Except RunError RunReceipt → Option Workers.WorkerRunCounters
  | .ok receipt => countersForIngestion receipt
  | .error (.progress _ receipt) => countersForIngestion receipt
  | .error (.thrown _ _) => none

end Handleplan.OfferIngestionRun
