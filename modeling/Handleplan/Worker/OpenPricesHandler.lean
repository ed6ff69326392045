import Handleplan.OpenPrices.Normalizer

/-!
# The Open Prices handler

The handler begins an ingestion run, fetches prices, writes their outcomes in batches, and finalizes
the run. Its error path finalizes the run too. Each call of the repository is a transaction that
looks at the signal of the job before it starts, after the fence is verified, and before it commits.

## Main definitions

* `OpenPricesHandler.fencedTransaction` — a transaction that looks at the signal.
* `OpenPricesHandler.finalizeRun` — how a run becomes terminal.
* `OpenPricesHandler.benchmarkRefresh` — the handler.

## Implementation notes

The handler is a program over its queries: the signal, the clock, the access policy, the targets,
the client and the statements on the table of runs. What a port throws is no answer. The statements
on other tables when outcomes are written are one query: they write no run. The trigger of the table
of runs compares the completion of a run with the clock of the database.
-/

namespace Handleplan.OpenPricesHandler

open Interaction JsString OpenPrices
open IngestionRuns (RunRow RunHandle FinalizeInput TerminalStatus RunStatus OutcomeState
  IngestionRunCounters reconstructIngestionRunCounters finalizedRow)

/-- A query of the handler. -/
inductive Query where
  /-- `signal.aborted`. -/
  | aborted
  /-- `clock`, as a number of milliseconds if it is a valid date. -/
  | now
  /-- `sourceAccessPolicy.getAccessState`: whether it is approved. -/
  | accessState
  /-- `targetProvider.getBenchmarkPriceTargets`. -/
  | benchmarkPriceTargets
  /-- `client.getPricesForGtins`. -/
  | pricesForGtins (gtins : List JsString)
  /-- The start of a transaction. -/
  | startTransaction
  | verifyFence (beforeCommit : Bool)
  | insertRun (run : RunRow)
  | selectRun (jobId : JsString)
  | lockRun (id : ℕ)
  | persistPrices (runId : ℕ) (outcomes : List Outcome)
  | selectStates (runId : ℕ)
  /-- The update of a run: `statement_timestamp()`, in microseconds. -/
  | updateRun (id : ℕ) (run : RunRow)
  | commit

/-- The answer of a query. -/
def Answer : Query → Type
  | .aborted => Bool
  | .now => Option ℤ
  | .accessState => Option Bool
  | .benchmarkPriceTargets => Option (List JsString)
  | .pricesForGtins _ => Option (List Json)
  | .startTransaction => Unit
  | .verifyFence _ => Bool
  | .insertRun _ => Option ℕ
  | .selectRun _ => Option (ℕ × RunRow)
  | .lockRun _ => Option RunRow
  | .persistPrices _ _ => Bool
  | .selectStates _ => List OutcomeState
  | .updateRun _ _ => ℤ
  | .commit => Unit

/-- What is thrown: `WorkerCancelledError`, `SourceAccessChangedError`, `OpenPricesHandlerError`, or
any other error. -/
inductive HandlerError where
  | workerCancelled | sourceAccessChanged | finalizationFailure | other
  deriving DecidableEq

/-- A program of the handler. -/
abbrev HandlerProg := Prog Query Answer HandlerError

/-- One query. -/
def ask (query : Query) : HandlerProg (Answer query) := Prog.query query

/-! ### The repository -/

/-- `throwIfIngestionCancelled`. -/
def throwIfIngestionCancelled : HandlerProg Unit := do
  let aborted : Bool ← ask .aborted
  Prog.require (aborted = false) .other

/-- `verifyFence`. -/
def verifyFence (beforeCommit : Bool) : HandlerProg Unit := do
  let isCurrent : Bool ← ask (.verifyFence beforeCommit)
  Prog.require (isCurrent = true) .other

/-- `fencedTransaction`. -/
def fencedTransaction {α : Type} (callback : HandlerProg α) : HandlerProg α := do
  throwIfIngestionCancelled
  let _ : Unit ← ask .startTransaction
  verifyFence false
  throwIfIngestionCancelled
  let result ← callback
  throwIfIngestionCancelled
  verifyFence true
  let _ : Unit ← ask .commit
  return result

/-- The job of the handler. -/
structure Job where
  jobId : JsString
  runType : JsString := js "benchmark-prices"
  sourceId : JsString := js "open-prices"

/-- The row that is inserted for a job. -/
def Job.row (job : Job) (startedAt : ℤ) : RunRow where
  jobId := job.jobId
  runType := job.runType
  sourceId := job.sourceId
  startedAt := startedAt
  completedAt := none
  errorClass := none
  counts := reconstructIngestionRunCounters [] 0
  status := .running

/-- The handle of a run of a job. -/
def Job.handle (job : Job) (id : ℕ) : RunHandle := ⟨id, job.jobId, job.runType, job.sourceId⟩

/-- The transaction of `beginRun`: the row of the job is inserted, or is there already. -/
def beginRunWithin (job : Job) (startedAt : ℤ) : HandlerProg RunHandle := do
  let inserted : Option ℕ ← ask (.insertRun (job.row startedAt))
  match inserted with
  | some id => return job.handle id
  | none =>
    let found : Option (ℕ × RunRow) ← ask (.selectRun job.jobId)
    let existing ← Prog.orFail .other found
    Prog.require (existing.2.sourceId = job.sourceId ∧ existing.2.runType = job.runType) .other
    return job.handle existing.1

/-- `beginRun`. -/
def beginRun (job : Job) (startedAt : ℤ) : HandlerProg RunHandle :=
  fencedTransaction (beginRunWithin job startedAt)

/-- `lockRun`. -/
def lockRun (handle : RunHandle) : HandlerProg RunRow := do
  let found : Option RunRow ← ask (.lockRun handle.id)
  let run ← Prog.orFail .other found
  Prog.require (run.jobId = handle.jobId ∧ run.sourceId = handle.sourceId ∧
    run.runType = handle.runType) .other
  return run

/-- `persistPriceOutcomes`. -/
def persistPriceOutcomes (handle : RunHandle) (outcomes : List Outcome) : HandlerProg Unit :=
  fencedTransaction do
    let run ← lockRun handle
    Prog.require (run.status = .running) .other
    let isDone : Bool ← ask (.persistPrices handle.id outcomes)
    Prog.require (isDone = true) .other

/-- The transaction of `finalizeRun`. -/
def finalizeRunWithin (handle : RunHandle) (input : FinalizeInput) :
    HandlerProg IngestionRunCounters := do
  let run ← lockRun handle
  match run.status with
  | .terminal status =>
    Prog.require (status = input.status) .other
    return run.counts
  | .running =>
    Prog.require (run.startedAt ≤ input.completedAt) .other
    let states : List OutcomeState ← ask (.selectStates handle.id)
    let terminalTime : ℤ ← ask (.updateRun handle.id (finalizedRow run input states))
    -- `enforce_ingestion_run_lifecycle` refuses a completion in the future
    Prog.require (input.completedAt * 1000 ≤ terminalTime) .other
    return reconstructIngestionRunCounters states input.failed

/-- `finalizeRun`. -/
def finalizeRun (handle : RunHandle) (input : FinalizeInput) :
    HandlerProg IngestionRunCounters := do
  Prog.require (input.status = .completed → input.failed = 0) .other
  fencedTransaction (finalizeRunWithin handle input)

/-! ### The handler -/

/-- `throwIfCancelled`. -/
def throwIfCancelled : HandlerProg Unit := do
  let aborted : Bool ← ask .aborted
  Prog.require (aborted = false) .workerCancelled

/-- `checkedNow`. -/
def checkedNow : HandlerProg ℤ := do
  let value : Option ℤ ← ask .now
  Prog.orFail .other value

/-- `requireAccessApproved` and the check of its answer. -/
def requireAccessApproved : HandlerProg Unit := do
  let answered : Option Bool ← ask .accessState
  let approved ← Prog.orFail .other answered
  Prog.require (approved = true) .sourceAccessChanged

/-- `MAX_INGESTION_BATCH_SIZE`. -/
def maxIngestionBatchSize : ℕ := 25

/-- `batchOutcomes`: the slices of a list, each of at most a size. -/
def batchOutcomes {α : Type} (batchSize : ℕ) (outcomes : List α) : List (List α) :=
  (List.range ((outcomes.length + batchSize - 1) / batchSize)).map fun i =>
    (outcomes.drop (i * batchSize)).take batchSize

/-- The loop over the batches. -/
def persistBatches (handle : RunHandle) : List (List Outcome) → HandlerProg Unit
  | [] => pure ()
  | batch :: batches => do
    throwIfCancelled
    persistPriceOutcomes handle batch
    persistBatches handle batches

section Runtime

variable (toLowerCase : JsString → JsString) (dateOf : Option Json → Option ℤ)

/-- What the handler does in its `try` block. -/
def attempt (handle : RunHandle) (gtins : List JsString) : HandlerProg IngestionRunCounters := do
  throwIfCancelled
  requireAccessApproved
  let fetched : Option (List Json) ← ask (.pricesForGtins gtins)
  let prices ← Prog.orFail .other fetched
  throwIfCancelled
  let fetchedAt ← checkedNow
  let outcomes ← Prog.orFail .other (normalizeAll toLowerCase dateOf prices fetchedAt)
  persistBatches handle (batchOutcomes maxIngestionBatchSize outcomes)
  let completedAt ← checkedNow
  throwIfCancelled
  let counts ← finalizeRun handle ⟨completedAt, none, 0, .completed⟩
  return { counts with failed := 0 }

end Runtime

/-- What the run is finalized with after an error. -/
def rescueInput (cancelled : Bool) (error : HandlerError) (completedAt : ℤ) : FinalizeInput :=
  if cancelled = true ∨ error = .workerCancelled then
    ⟨completedAt, some (js "CANCELLED"), 0, .cancelled⟩
  else if error = .sourceAccessChanged then
    ⟨completedAt, some (js "SOURCE_ACCESS_CHANGED"), 1, .degraded⟩
  else ⟨completedAt, none, 1, .degraded⟩

/-- What the handler does in its `catch` block. -/
def finalizeAfter (handle : RunHandle) (error : HandlerError) :
    HandlerProg IngestionRunCounters := do
  let aborted : Bool ← ask .aborted
  (do
    let completedAt ← checkedNow
    let input := rescueInput aborted error completedAt
    let counts ← finalizeRun handle input
    return { counts with failed := input.failed }).rescue fun _ => .fail .finalizationFailure

/-- `benchmarkRefresh`: the counters, of a run if there was anything to do. -/
def benchmarkRefresh (toLowerCase : JsString → JsString) (dateOf : Option Json → Option ℤ)
    (job : Job) : HandlerProg IngestionRunCounters := do
  requireAccessApproved
  let answered : Option (List JsString) ← ask .benchmarkPriceTargets
  let gtins ← Prog.orFail .other answered
  match gtins with
  | [] => return reconstructIngestionRunCounters [] 0
  | gtin :: gtins =>
    let startedAt ← checkedNow
    let handle ← beginRun job startedAt
    (attempt toLowerCase dateOf handle (gtin :: gtins)).rescue (finalizeAfter handle)

end Handleplan.OpenPricesHandler
