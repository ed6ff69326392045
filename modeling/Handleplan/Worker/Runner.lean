import Handleplan.Lib.JsMap
import Handleplan.Worker.Runtime

/-!
# The runner of worker jobs

`WorkerRunner.run` races the handler of a job against a timer and the signal of its caller. When the
timer or the signal comes first, the handler is told to stop and is awaited for a grace period. What
it reports in the end is checked twice, by the contract of the runner and by the repository that
records it.

## Main definitions

* `Workers.mergeCounters` — the counters of a run, from what a handler gives.
* `Workers.RunState`, `Workers.stepRun` — a run, and how it goes on with an
  event.
* `Workers.runJob` — a run, from its call through a sequence of events.

## Implementation notes

The events of a run come in the order in which the event loop handles them. A handler is modelled by
the event of its settlement, which comes at any time or not at all. The continuation of a promise
runs after its settlement, and other events can come in between. The clock is a sequence of
readings, one for each event. A count is a number or another value; sums of counts that are safe
integers are exact wherever they are compared with a safe integer.
-/

namespace Handleplan.Workers

open JsString

/-! ### Counters -/

/-- The value of a count, as a handler gives it. -/
inductive CounterValue where
  | number (value : ℚ)
  | other

/-- `Partial<WorkerRunCounters>`, as a handler gives it: any properties. -/
abbrev CountersInput := JsMap JsString CounterValue

/-- `counterSchema`. -/
def counterSchema : CounterValue → Option ℕ
  | .number value =>
    if value.den = 1 ∧ 0 ≤ value ∧ value ≤ maxSafeInteger then some value.num.toNat else none
  | .other => none

/-- A count of the merged counters: zero where the handler gives none. -/
def mergedCounter (input : CountersInput) (key : JsString) : Option ℕ :=
  counterSchema ((JsMap.get? input key).getD (.number 0))

/-- The names of the counters. -/
def counterKeys : List JsString :=
  [js "fetched", js "accepted", js "quarantined", js "unknown", js "persisted", js "failed"]

/-- `mergeCounters`: `none` when it throws. -/
def mergeCounters (input : CountersInput) : Option WorkerRunCounters := do
  guard (∀ key ∈ input.keys, key ∈ counterKeys)
  return {
    fetched := ← mergedCounter input (js "fetched")
    accepted := ← mergedCounter input (js "accepted")
    quarantined := ← mergedCounter input (js "quarantined")
    unknown := ← mergedCounter input (js "unknown")
    persisted := ← mergedCounter input (js "persisted")
    failed := ← mergedCounter input (js "failed") }

/-- `countersAreAccounted`. -/
def CountersAreAccounted (counters : WorkerRunCounters) : Prop :=
  counters.fetched = counters.accepted + counters.quarantined + counters.unknown ∧
    counters.persisted = counters.fetched

instance : DecidablePred CountersAreAccounted := fun _ => inferInstanceAs (Decidable (_ ∧ _))

/-- `ZERO_WORKER_RUN_COUNTERS`. -/
def zeroWorkerRunCounters : WorkerRunCounters := ⟨0, 0, 0, 0, 0, 0⟩

/-- `completionStatus`. -/
def completionStatus (counters : WorkerRunCounters) : WorkerJobStateStatus :=
  if counters.failed = 0 then .succeeded
  else if 0 < counters.fetched then .partly
  else .failed

/-- `finish`, as far as the counters: those that the handler gives if they are accounted for. -/
def accountedCounters (input : Option CountersInput) : Option WorkerRunCounters :=
  (mergeCounters (input.getD [])).filter fun counters => CountersAreAccounted counters

/-- `finish`, as far as the status and the counters of the result. -/
def finishReport (status : WorkerJobStateStatus) (input : Option CountersInput) :
    WorkerJobStateStatus × WorkerRunCounters :=
  match accountedCounters input with
  | none => (.failed, { zeroWorkerRunCounters with failed := 1 })
  | some counters =>
    let status := if status = .succeeded ∨ status = .partly then completionStatus counters else status
    (status, if status = .failed ∧ counters.failed = 0 then { counters with failed := 1 } else counters)

/-! ### Runs -/

/-- `status` of a `WorkerHandlerResult`. -/
inductive HandlerStatus where
  | succeeded | partly

/-- `HandlerStatus`, among the states of results. -/
def HandlerStatus.toStatus : HandlerStatus → WorkerJobStateStatus
  | .succeeded => .succeeded
  | .partly => .partly

/-- `HandlerSettlement`. -/
inductive HandlerSettlement where
  | fulfilled (status : Option HandlerStatus) (counters : Option CountersInput)
  /-- Rejected with a `WorkerCancelledError`. -/
  | cancelled (counters : Option CountersInput)
  /-- Rejected with another error. -/
  | rejected

/-- `forcedStatus`. -/
inductive ForcedStatus where
  | cancelled | timedOut

/-- `ForcedStatus`, among the states of results. -/
def ForcedStatus.toStatus : ForcedStatus → WorkerJobStateStatus
  | .cancelled => .cancelled
  | .timedOut => .timedOut

/-- How a run ends. -/
inductive RunConclusion where
  | returned (result : WorkerRunResult)
  /-- `WorkerUnresponsiveError`. -/
  | unresponsive
  /-- Another error. -/
  | threw

/-- `WorkerRunnerOptions`. A reading of the clock is `none` for an invalid date. -/
structure WorkerRunnerOptions where
  createRunId : WorkerJobRequest → JsString
  hasHandler : WorkerJobKind → Bool
  now : ℕ → Option ℤ

/-- `WorkerRunExecution`, at the time of the call. -/
structure WorkerRunExecution where
  fenceToken : Option JsString
  aborted : Bool

/-- `isValidFenceToken`. -/
def IsValidFenceToken (value : Option JsString) : Prop :=
  ∃ token ∈ value, RequireIdentifier token 1024

instance : DecidablePred IsValidFenceToken :=
  fun value => inferInstanceAs (Decidable (∃ token ∈ value, RequireIdentifier token 1024))

/-- Where a run is. -/
inductive RunPhase where
  /-- The first race is open. -/
  | racing
  /-- The handler has won the first race. -/
  | settled (settlement : HandlerSettlement)
  /-- `joinAfterAbort`, while the handler has not settled. -/
  | joining (forced : ForcedStatus)
  /-- `joinAfterAbort`, after the handler has settled. -/
  | joined (forced : ForcedStatus) (settlement : HandlerSettlement)
  | concluded (conclusion : RunConclusion)

/-- A run: where it is, what has happened, and the number of the next reading of the clock. -/
structure RunState where
  phase : RunPhase
  timedOut : Bool
  callerCancelled : Bool
  tick : ℕ

/-- What happens in a run. -/
inductive RunEvent where
  | settles (settlement : HandlerSettlement)
  /-- The timer of the request. -/
  | timeout
  /-- The signal of the caller. -/
  | abort
  /-- The timer of the grace period. -/
  | graceExpires
  /-- The continuation of the race that is over. -/
  | resumes

section Runner

variable (options : WorkerRunnerOptions) (request : WorkerJobRequest) (startedAt : ℤ)

/-- `finish`, at a reading of the clock. -/
def finishRun (tick : ℕ) (status : WorkerJobStateStatus) (input : Option CountersInput) :
    RunConclusion :=
  match options.now tick with
  | none => .threw
  | some completedAt =>
    let report := finishReport status input
    let result := finish request
      { completedAt
        counters := report.2
        runId := options.createRunId request
        startedAt
        status := report.1 }
    if WorkerRunResultSchema result then .returned result else .threw

/-- The status and the counters that a run finishes with when its race is over. -/
def settlementReport (timedOut callerCancelled : Bool) (forced : Option ForcedStatus)
    (settlement : HandlerSettlement) : WorkerJobStateStatus × Option CountersInput :=
  match settlement, forced with
  | .fulfilled _ counters, some forced => (forced.toStatus, counters)
  | .cancelled counters, some forced => (forced.toStatus, counters)
  | .rejected, some forced => (forced.toStatus, none)
  | .fulfilled status counters, none => ((status.getD .succeeded).toStatus, counters)
  | .cancelled counters, none => (.cancelled, counters)
  | .rejected, none =>
    (if timedOut then .timedOut else if callerCancelled then .cancelled else .failed, none)

/-- A run when it comes to its conclusion. -/
def RunState.conclude (s : RunState) (forced : Option ForcedStatus) (settlement : HandlerSettlement) :
    RunPhase :=
  let report := settlementReport s.timedOut s.callerCancelled forced settlement
  .concluded (finishRun options request startedAt s.tick report.1 report.2)

/-- Where a run is after an event. -/
def nextPhase (s : RunState) (event : RunEvent) : RunPhase :=
  match s.phase, event with
  | .racing, .settles settlement => .settled settlement
  | .racing, .timeout => .joining .timedOut
  | .racing, .abort => .joining .cancelled
  | .settled settlement, .resumes => s.conclude options request startedAt none settlement
  | .joining forced, .settles settlement => .joined forced settlement
  | .joining _, .graceExpires => .concluded .unresponsive
  | .joined forced settlement, .resumes => s.conclude options request startedAt (some forced) settlement
  | phase, _ => phase

/-- A run after an event. -/
def stepRun (s : RunState) (event : RunEvent) : RunState where
  phase := nextPhase options request startedAt s event
  timedOut := s.timedOut || event matches .timeout
  callerCancelled := s.callerCancelled || event matches .abort
  tick := s.tick + 1

/-- Where a run is after its call. -/
def startPhase (execution : WorkerRunExecution) (tick : ℕ) : RunPhase :=
  if ¬ IsValidFenceToken execution.fenceToken then
    .concluded (finishRun options request startedAt tick .failed none)
  else if execution.aborted then
    .concluded (finishRun options request startedAt tick .cancelled none)
  else if options.hasHandler request.kind = false then
    .concluded (finishRun options request startedAt tick .failed none)
  else .racing

end Runner

/-- `WorkerRunner.run`, called at a reading of the clock, through a sequence of events. -/
def runJob (options : WorkerRunnerOptions) (request : WorkerJobRequest)
    (execution : WorkerRunExecution) (tick : ℕ) (events : List RunEvent) : RunPhase :=
  if ¬ WorkerJobRequestSchema request then .concluded .threw
  else match options.now tick with
    | none => .concluded .threw
    | some startedAt =>
      (events.foldl (stepRun options request startedAt)
        { phase := startPhase options request startedAt execution (tick + 1)
          timedOut := false
          callerCancelled := execution.aborted
          tick := tick + 2 }).phase

/-- `runIdFor` of the production runner: the digest of the job, behind the version. -/
def runIdFor (sha256Hex : JsString → JsString) (request : WorkerJobRequest) : JsString :=
  js "worker-v1:" ++ sha256Hex request.jobId

end Handleplan.Workers
