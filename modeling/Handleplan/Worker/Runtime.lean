import Handleplan.Lib.Sorting
import Handleplan.Lib.Transitions
import Handleplan.Worker.JobState

/-!
# The worker runtime

Any number of worker processes share the leases and the recorded results. A process runs one cycle
after the other: it acquires a lease for each source, and for each schedule it reads the last
recorded slot, runs the job that is due and records its result. Between two awaited operations the
other processes go on, leases expire, processes are asked to stop, and processes crash.

## Main definitions

* `Workers.Worker` — one process: its runtime, the active cycle, and its supervisor.
* `Workers.Answer`, `advance` — what an awaited operation of a cycle answers, and the
  code that runs from there to the next one.
* `Workers.act` — the steps of one process.
* `Workers.workers` — the transition system of all processes.

## Implementation notes

The code between two `await`s runs to its end, so a step is an answer together with that code. The
query of the last slot and the code after it are two steps: the rows are read when the query is
evaluated. The constructor's order of the schedules is the order of the list.
-/

namespace Handleplan.Workers

open JsString Sorting

/-! ### One process -/

/-- `WorkerRuntimeStatus`. -/
inductive WorkerRuntimeStatus where
  | idle | running | draining | stopped | fatal
  deriving DecidableEq

/-- `WorkerLeaseHandle`: its fence, and whether its signal is aborted. -/
structure WorkerLeaseHandle where
  fence : Fence
  aborted : Bool

/-- One pass of the loop over the schedules. -/
structure Pass where
  leases : List WorkerLeaseHandle
  schedule : WorkerScheduleDefinition
  rest : List WorkerScheduleDefinition

/-- `leases.get(schedule.sourceId)`. -/
def Pass.scheduleLease (pass : Pass) : Option WorkerLeaseHandle :=
  pass.leases.find? fun lease => lease.fence.sourceId = pass.schedule.sourceId

/-- How a cycle ends once its leases are released: with its results, with an error, or with an error
that counts only while the process has not been asked to stop. -/
inductive Outcome where
  | results | error | acquireError

/-- Where `executeCycle` stands: at which awaited operation. -/
inductive Cycle where
  | acquiring (sourceId : JsString) (todo : List JsString) (leases : List WorkerLeaseHandle)
  | abandoning (leases : List WorkerLeaseHandle)
  | reading (pass : Pass)
  | read (pass : Pass) (lastScheduledAt : Option ℤ)
  | running (pass : Pass) (request : WorkerJobRequest)
  | recording (pass : Pass) (request : WorkerJobRequest) (result : WorkerRunResult)
  | recorded (pass : Pass)
  | releasing (leases : List WorkerLeaseHandle) (outcome : Outcome)

/-- The promise of `requestShutdown`. -/
inductive Shutdown where
  | pending | settled
  deriving DecidableEq

/-- Where `superviseWorker` stands: between two cycles, in a cycle, waiting for the shutdown, or
returned. A crashed process is none of these. -/
inductive Supervision where
  | waiting | cycling
  | closing (failed : Bool)
  | exited (code : ℕ)
  | crashed
  deriving DecidableEq

/-- A worker process: `WorkerRuntime` and its supervisor. -/
structure Worker where
  schedules : List WorkerScheduleDefinition
  activeCycle : Option Cycle
  aborted : Bool
  exitCode : ℕ
  shutdown : Option Shutdown
  status : WorkerRuntimeStatus
  supervision : Supervision
  stopRequested : Bool

namespace Worker

/-- A process that has just started. -/
def fresh (schedules : List WorkerScheduleDefinition) : Worker where
  schedules := schedules
  activeCycle := none
  aborted := false
  exitCode := 0
  shutdown := none
  status := .idle
  supervision := .waiting
  stopRequested := false

variable (w : Worker)

/-- `markFatal`. -/
def markFatal : Worker := { w with exitCode := 1, status := .fatal, aborted := true }

/-- `requestShutdown`, up to the first `await` of `finishShutdown`. -/
def requestShutdown : Worker :=
  if w.shutdown ≠ none then w
  else if w.status = .fatal ∨ w.status = .stopped then { w with shutdown := some .settled }
  else if w.activeCycle = none then
    { w with aborted := true, shutdown := some .settled, status := .stopped }
  else { w with aborted := true, shutdown := some .pending, status := .draining }

/-- `finishShutdown`, when the active cycle settles before the grace period is over. -/
def finishShutdown : Worker :=
  if w.shutdown = some .pending then
    { w with shutdown := some .settled, status := if w.status = .fatal then .fatal else .stopped }
  else w

/-- `superviseWorker`, when its cycle settles. -/
def superviseSettled (failed : Bool) : Worker :=
  if w.supervision ≠ .cycling then w
  else if failed then { w.requestShutdown with supervision := .closing true }
  else { w with supervision := .waiting }

/-- The active cycle settles: the handlers of `runCycle`, then all that waits for it. -/
def settleCycle (failed : Bool) : Worker :=
  let caught := if failed then w.markFatal else w
  let settled : Worker :=
    { caught with
      activeCycle := none
      status := if caught.status = .running then .idle else caught.status }
  settled.finishShutdown.superviseSettled failed

/-- The cycle awaits its next operation. -/
def await (cycle : Cycle) : Worker := { w with activeCycle := some cycle }

/-- Whether a cycle that ends in some way rejects its promise. -/
def failedBy : Outcome → Bool
  | .results => false
  | .error => true
  | .acquireError => !w.aborted

variable (leases : List WorkerLeaseHandle)

/-- The `finally` block: the leases are released, then the cycle settles. -/
def closeCycle (outcome : Outcome) : Worker :=
  if leases = [] then w.settleCycle (w.failedBy outcome) else w.await (.releasing leases outcome)

/-- `workSignal.aborted`. -/
def WorkAborted : Prop :=
  w.aborted = true ∨ ∃ lease ∈ leases, lease.aborted = true

instance (w : Worker) (leases : List WorkerLeaseHandle) : Decidable (w.WorkAborted leases) :=
  inferInstanceAs (Decidable (_ ∨ _))

/-- The head of the loop over the schedules. -/
def nextPass : List WorkerScheduleDefinition → Worker
  | [] => w.closeCycle leases .results
  | schedule :: rest =>
    if w.WorkAborted leases then w.closeCycle leases .results
    else w.await (.reading ⟨leases, schedule, rest⟩)

/-- The head of the loop over the sources. -/
def acquireNext : List JsString → Worker
  | [] => w.nextPass leases w.schedules
  | sourceId :: todo => w.await (.acquiring sourceId todo leases)

/-- The sources of the schedules, each once, in order. -/
def sourceIds : List JsString :=
  sortBy compareText (w.schedules.map fun schedule => schedule.sourceId).dedup

/-- `runCycle`, as the supervisor calls it. -/
def runCycle : Worker :=
  if w.status = .draining ∨ w.status = .stopped ∨ w.status = .fatal then w
  else if w.activeCycle ≠ none then { w with supervision := .cycling }
  else { w with status := .running, supervision := .cycling }.acquireNext [] w.sourceIds

/-- The loop, after the last recorded slot has been read. -/
def afterRead (pass : Pass) (lastScheduledAt now : Option ℤ) : Worker :=
  if w.WorkAborted pass.leases then w.closeCycle pass.leases .results
  else match newestMissedWorkerJob pass.schedule lastScheduledAt now with
    | .error _ => w.closeCycle pass.leases .error
    | .ok none => w.nextPass pass.leases pass.rest
    | .ok (some request) =>
      match pass.scheduleLease with
      | none => w.nextPass pass.leases pass.rest
      | some _ => w.await (.running pass request)

end Worker

/-! ### The cycle -/

/-- What the runner reports of a job. -/
structure WorkerRunReport where
  completedAt : ℤ
  counters : WorkerRunCounters
  runId : JsString
  startedAt : ℤ
  status : WorkerJobStateStatus

/-- `finish` of the runner: the result of a request. -/
def finish (request : WorkerJobRequest) (report : WorkerRunReport) : WorkerRunResult where
  completedAt := report.completedAt
  counters := report.counters
  jobId := request.jobId
  kind := request.kind
  runId := report.runId
  sourceId := request.sourceId
  startedAt := report.startedAt
  status := report.status

/-- `workerRunResultSchema`. -/
def WorkerRunResultSchema (result : WorkerRunResult) : Prop :=
  IdentifierSchema result.runId ∧ IdentifierSchema result.jobId ∧
    IdentifierSchema result.sourceId ∧ CanonicalTimestamp result.startedAt ∧
    CanonicalTimestamp result.completedAt ∧ ¬ result.completedAt < result.startedAt ∧
    CanonicalCounters result.counters ∧
    ¬ (result.status = .succeeded ∧ result.counters.failed ≠ 0) ∧
    ¬ (result.status = .partly ∧ (result.counters.failed = 0 ∨ result.counters.fetched = 0)) ∧
    ¬ (result.status = .failed ∧ (result.counters.failed = 0 ∨ result.counters.fetched ≠ 0))

instance : DecidablePred WorkerRunResultSchema :=
  fun _ => inferInstanceAs (Decidable (_ ∧ _ ∧ _ ∧ _ ∧ _ ∧ _ ∧ _ ∧ _ ∧ _ ∧ _))

/-- What an awaited operation of a cycle answers. -/
inductive Answer where
  /-- The lease is granted. -/
  | acquired
  /-- Another process holds the lease. -/
  | refused
  /-- Acquiring fails; the lease may have been granted all the same. -/
  | acquireFailed (granted : Bool)
  /-- The query of the last slot is evaluated. -/
  | queried
  | queryFailed
  /-- The query has answered, and the clock shows an instant. -/
  | clock (now : Option ℤ)
  /-- The job is over. -/
  | reported (report : WorkerRunReport)
  /-- The runner throws, of a handler that does not stop or of something else. -/
  | threw (unresponsive : Bool)
  /-- The transaction that records the result commits. -/
  | committed
  | recordFailed
  | recordSettled
  /-- A release answers; the lease may be deleted or not. -/
  | released (fence : Fence) (deleted succeeded : Bool)

/-- The store after a release. -/
def Store.release (store : Store) (fence : Fence) (deleted : Bool) : Store :=
  if deleted then store.drop fence else store

/-- The store after an acquisition that the process sees fail. -/
def Store.acquireUnseen (store : Store) (sourceId : JsString) (granted : Bool) : Store :=
  match store.acquire sourceId with
  | some (_, granting) => if granted then granting else store
  | none => store

/-- `executeCycle`, from the answer of one awaited operation to the next operation. -/
def advance (w : Worker) (store : Store) : Cycle → Answer → Option (Worker × Store)
  | .acquiring sourceId todo leases, .acquired =>
    (store.acquire sourceId).map fun (fence, granting) =>
      (w.acquireNext (leases ++ [⟨fence, false⟩]) todo, granting)
  | .acquiring sourceId _ leases, .refused =>
    if store.acquire sourceId = none then
      some (if leases = [] then w.settleCycle false else w.await (.abandoning leases), store)
    else none
  | .acquiring sourceId _ leases, .acquireFailed granted =>
    some (w.closeCycle leases .acquireError, store.acquireUnseen sourceId granted)
  | .abandoning (lease :: rest), .released fence deleted succeeded =>
    if lease.fence = fence then
      some (if ¬ succeeded then w.closeCycle rest .acquireError
        else if rest = [] then w.settleCycle false
        else w.await (.abandoning rest), store.release fence deleted)
    else none
  | .reading pass, .queried =>
    if RequireIdentifier pass.schedule.sourceId 64 then
      some (w.await (.read pass
        (store.lastScheduledAt pass.schedule.sourceId pass.schedule.kind)), store)
    else none
  | .reading pass, .queryFailed =>
    some (w.closeCycle pass.leases (if w.WorkAborted pass.leases then .results else .error), store)
  | .read pass _, .queryFailed =>
    some (w.closeCycle pass.leases (if w.WorkAborted pass.leases then .results else .error), store)
  | .read pass lastScheduledAt, .clock now => some (w.afterRead pass lastScheduledAt now, store)
  | .running pass request, .reported report =>
    if WorkerRunResultSchema (finish request report) then
      some (if ∃ lease ∈ pass.scheduleLease, lease.aborted = true then
          w.closeCycle pass.leases .results
        else w.await (.recording pass request (finish request report)), store)
    else none
  | .running pass _, .threw unresponsive =>
    some (if unresponsive then w.settleCycle true else w.closeCycle pass.leases .error, store)
  | .recording pass request result, .committed =>
    if SameIdentity request result then
      pass.scheduleLease.bind fun lease =>
        (store.record (resultRecord request result) lease.fence).map fun recorded =>
          (w.await (.recorded pass), recorded)
    else none
  | .recording pass _ _, .recordFailed => some (w.closeCycle pass.leases .error, store)
  | .recorded pass, .recordFailed => some (w.closeCycle pass.leases .error, store)
  | .recorded pass, .recordSettled =>
    some (if w.WorkAborted pass.leases then w.closeCycle pass.leases .results
      else w.nextPass pass.leases pass.rest, store)
  | .releasing leases outcome, .released fence deleted _ =>
    if ∃ lease ∈ leases, lease.fence = fence then
      some (w.closeCycle (leases.filter fun lease => lease.fence ≠ fence) outcome,
        store.release fence deleted)
    else none
  | _, _ => none

/-! ### All processes -/

/-- A lease whose signal is aborted, when it is the one of a fence. -/
def WorkerLeaseHandle.abort (fence : Fence) (lease : WorkerLeaseHandle) : WorkerLeaseHandle :=
  { lease with aborted := lease.aborted || decide (lease.fence = fence) }

/-- A pass with the signal of one lease aborted. -/
def Pass.abortLease (fence : Fence) (pass : Pass) : Pass :=
  { pass with leases := pass.leases.map (·.abort fence) }

/-- A cycle with the signal of one lease aborted. -/
def Cycle.abortLease (fence : Fence) : Cycle → Cycle
  | .acquiring sourceId todo leases => .acquiring sourceId todo (leases.map (·.abort fence))
  | .abandoning leases => .abandoning (leases.map (·.abort fence))
  | .reading pass => .reading (pass.abortLease fence)
  | .read pass last => .read (pass.abortLease fence) last
  | .running pass request => .running (pass.abortLease fence) request
  | .recording pass request result => .recording (pass.abortLease fence) request result
  | .recorded pass => .recorded (pass.abortLease fence)
  | .releasing leases outcome => .releasing (leases.map (·.abort fence)) outcome

/-- What may happen to one process. -/
inductive Action where
  /-- The time between two cycles is over. -/
  | wake
  /-- The process is asked to stop. -/
  | stop
  /-- The grace period of a shutdown is over. -/
  | graceExpires
  /-- The supervisor returns. -/
  | exit
  | crash
  /-- The signal of a lease is aborted: a heartbeat failed. -/
  | abortLease (fence : Fence)
  | answer (answer : Answer)

/-- The steps of one process that has not crashed. -/
def act (w : Worker) (store : Store) : Action → Option (Worker × Store)
  | .wake =>
    if w.supervision ≠ .waiting then none
    else if w.stopRequested then
      some ({ w.requestShutdown with supervision := .closing false }, store)
    else some (w.runCycle, store)
  | .stop =>
    if w.stopRequested then none
    else some ({ w with stopRequested := true }.requestShutdown, store)
  | .graceExpires =>
    if w.shutdown = some .pending then
      some ({ w.markFatal with shutdown := some .settled }, store)
    else none
  | .exit =>
    match w.supervision with
    | .closing failed =>
      if w.shutdown = some .settled then
        some ({ w with supervision := .exited (if failed then 1 else w.exitCode) }, store)
      else none
    | _ => none
  | .crash => some ({ w with activeCycle := none, supervision := .crashed }, store)
  | .abortLease fence =>
    w.activeCycle.map fun cycle => (w.await (cycle.abortLease fence), store)
  | .answer answer => w.activeCycle.bind fun cycle => advance w store cycle answer

/-- All processes, and what they share. -/
structure State where
  workers : List Worker
  store : Store

/-- What may happen next: a process starts, a lease expires, or something happens to a process. -/
inductive Event where
  | start (schedules : List WorkerScheduleDefinition)
  | expire (fence : Fence)
  | process (number : ℕ) (action : Action)

/-- One step of all processes. -/
def next (s : State) : Event → Option State
  | .start schedules => some { s with workers := s.workers ++ [.fresh schedules] }
  | .expire fence => some { s with store := s.store.drop fence }
  | .process number action =>
    (s.workers[number]?).bind fun w =>
      if w.supervision = .crashed then none
      else (act w s.store action).map fun (w', store) => ⟨s.workers.set number w', store⟩

/-- The processes: they start with nothing recorded and no lease. -/
def workers : Transitions.System State Event where
  init s := s = ⟨[], ⟨[], [], 0⟩⟩
  step := next

/-- The request of the job a process is running. -/
def Worker.job (w : Worker) : Option WorkerJobRequest :=
  match w.activeCycle with
  | some (.running _ request) => some request
  | _ => none

/-- A step in which a process starts a job. -/
def Starts (s t : State) (number : ℕ) (w : Worker) (request : WorkerJobRequest) : Prop :=
  s.workers[number]? = some w ∧ w.job = none ∧
    ∃ w', t.workers[number]? = some w' ∧ w'.job = some request

end Handleplan.Workers
