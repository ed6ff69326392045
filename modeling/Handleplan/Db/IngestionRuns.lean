import Handleplan.Lib.JsString
import Handleplan.Lib.RowLocks

/-!
# Ingestion runs

A worker begins a run, writes the outcomes of source records to it, and finalizes it. Each of these
is a transaction between two verifications of a fence. What writes outcomes locks the row of the run
first and demands that the run is running; what finalizes the run counts the outcomes under the same
lock.

## Main definitions

* `IngestionRuns.reconstructIngestionRunCounters` — the counts of a list of states.
* `IngestionRuns.auditOutcomesWithin` — how outcomes are written.
* `IngestionRuns.finalizeRun` — how a run becomes terminal.
* `IngestionRuns.access` — the locks and the writes of the statements.
* `IngestionRuns.database` — the functions over the tables.

## Implementation notes

The outcomes that the functions get are the normalized ones. What an outcome says beyond its
identity, its state and its reason is one text, and its hash is any function. The statements on
other tables are any number of statements with any answers; aborting stands for cancellation,
timeouts and input that is not valid. A statement sees what is committed when it is answered, and
what its transaction has written.
-/

namespace Handleplan.IngestionRuns

open Interaction Sessions RowLocks JsString

/-! ### Rows -/

/-- `SourceRecordOutcomeState`. -/
inductive OutcomeState where
  | accepted | quarantined | unknown
  deriving DecidableEq

/-- `IngestionTerminalStatus`. -/
inductive TerminalStatus where
  | cancelled | completed | degraded | failed
  deriving DecidableEq

/-- `IngestionRunStatus`. -/
inductive RunStatus where
  | running
  | terminal (status : TerminalStatus)
  deriving DecidableEq

/-- `IngestionRunCounters`. -/
structure IngestionRunCounters where
  accepted : ℕ
  failed : ℕ
  fetched : ℕ
  persisted : ℕ
  quarantined : ℕ
  unknown : ℕ
  deriving DecidableEq

/-- A row of `ingestion_runs`, without its id. -/
structure RunRow where
  jobId : JsString
  runType : JsString
  sourceId : JsString
  startedAt : ℤ
  completedAt : Option ℤ
  errorClass : Option JsString
  counts : IngestionRunCounters
  status : RunStatus
  deriving DecidableEq

/-- `SourceRecordOutcomeInput`. -/
structure SourceRecordOutcome where
  recordKind : JsString
  sourceRecordId : JsString
  outcomeState : OutcomeState
  reason : Option JsString
  content : JsString

/-- A row of `source_record_outcomes`, without the id of its run. -/
structure OutcomeRow where
  recordKind : JsString
  sourceRecordId : JsString
  outcomeState : OutcomeState
  outcomeHash : JsString

/-- `IngestionRunHandle`. -/
structure RunHandle where
  id : ℕ
  jobId : JsString
  runType : JsString
  sourceId : JsString

/-- `reconstructIngestionRunCounters`. -/
def reconstructIngestionRunCounters (states : List OutcomeState) (failed : ℕ) :
    IngestionRunCounters where
  accepted := states.count .accepted
  failed := failed
  fetched := states.length
  persisted := states.length
  quarantined := states.count .quarantined
  unknown := states.count .unknown

/-! ### Statements -/

/-- A statement of the functions. -/
inductive Query where
  | verifyFence (beforeCommit : Bool)
  | insertRun (run : RunRow)
  | selectRun (jobId : JsString)
  | lockRun (id : ℕ)
  | insertOutcome (runId : ℕ) (row : OutcomeRow)
  | selectOutcomeHash (runId : ℕ) (recordKind sourceRecordId : JsString)
  | selectStates (runId : ℕ)
  | updateRun (id : ℕ) (run : RunRow)
  /-- Any statement on other tables. -/
  | statement

/-- The answer of a statement. -/
def Answer : Query → Type
  | .verifyFence _ => Bool
  | .insertRun _ => Option ℕ
  | .selectRun _ => Option (ℕ × RunRow)
  | .lockRun _ => Option RunRow
  | .insertOutcome _ _ => Bool
  | .selectOutcomeHash _ _ _ => Option JsString
  | .selectStates _ => List OutcomeState
  | .updateRun _ _ => Unit
  | .statement => Bool

/-- Why a function fails. -/
inductive IngestionError where
  | invalidInput | staleFence | couldNotBegin | conflictingJob | missingRun | handleMismatch
  | notRunning | outcomeConflict | alreadyTerminal | statementFailed

/-- What a function returns. -/
inductive IngestionResult where
  | begun (created : Bool) (handle : RunHandle) (status : RunStatus)
  | written (inserted received : ℕ)
  | finalized (counts : IngestionRunCounters) (status : TerminalStatus)

/-- A program over the tables. -/
abbrev IngestionProg := Prog Query Answer IngestionError

/-- One statement. -/
def ask (query : Query) : IngestionProg (Answer query) := Prog.query query

/-! ### Functions -/

/-- `fencedTransaction`: a callback between two verifications of the fence. -/
def fencedTransaction (callback : IngestionProg IngestionResult) : IngestionProg IngestionResult := do
  let isCurrent : Bool ← ask (.verifyFence false)
  Prog.require (isCurrent = true) .staleFence
  let result ← callback
  let isStillCurrent : Bool ← ask (.verifyFence true)
  Prog.require (isStillCurrent = true) .staleFence
  return result

/-- `lockRun`. -/
def lockRun (handle : RunHandle) : IngestionProg RunRow := do
  let found : Option RunRow ← ask (.lockRun handle.id)
  let run ← Prog.orFail .missingRun found
  Prog.require (run.jobId = handle.jobId ∧ run.sourceId = handle.sourceId ∧
    run.runType = handle.runType) .handleMismatch
  return run

/-- `withRunningRun`. -/
def withRunningRun (handle : RunHandle) (callback : IngestionProg IngestionResult) :
    IngestionProg IngestionResult :=
  fencedTransaction do
    let run ← lockRun handle
    Prog.require (run.status = .running) .notRunning
    callback

/-- A number of statements on other tables. -/
def statements : ℕ → IngestionProg Unit
  | 0 => pure ()
  | n + 1 => do
    let isDone : Bool ← ask .statement
    Prog.require (isDone = true) .statementFailed
    statements n

/-- `beginRun`. -/
def beginRun (jobId runType sourceId : JsString) (startedAt : ℤ) : IngestionProg IngestionResult :=
  fencedTransaction do
    let inserted : Option ℕ ← ask (.insertRun
      { jobId := jobId
        runType := runType
        sourceId := sourceId
        startedAt := startedAt
        completedAt := none
        errorClass := none
        counts := reconstructIngestionRunCounters [] 0
        status := .running })
    match inserted with
    | some id => return .begun true ⟨id, jobId, runType, sourceId⟩ .running
    | none =>
      let found : Option (ℕ × RunRow) ← ask (.selectRun jobId)
      let existing ← Prog.orFail .couldNotBegin found
      Prog.require (existing.2.sourceId = sourceId ∧ existing.2.runType = runType) .conflictingJob
      return .begun false ⟨existing.1, jobId, runType, sourceId⟩ existing.2.status

/-- `MAX_INGESTION_OUTCOMES_PER_WRITE`. -/
def maxIngestionOutcomesPerWrite : ℕ := 1000

section Hash

variable (hash : SourceRecordOutcome → JsString)

/-- The row that is inserted for an outcome. -/
def outcomeRow (outcome : SourceRecordOutcome) : OutcomeRow where
  recordKind := outcome.recordKind
  sourceRecordId := outcome.sourceRecordId
  outcomeState := outcome.outcomeState
  outcomeHash := hash outcome

/-- `auditOutcomesWithin`: how many outcomes are inserted. An outcome whose identity is there must
have the same hash. -/
def auditOutcomesWithin (handle : RunHandle) : List SourceRecordOutcome → IngestionProg ℕ
  | [] => pure 0
  | outcome :: outcomes => do
    let created : Bool ← ask (.insertOutcome handle.id (outcomeRow hash outcome))
    if created = true then
      let inserted ← auditOutcomesWithin handle outcomes
      return inserted + 1
    else
      let existing : Option JsString ←
        ask (.selectOutcomeHash handle.id outcome.recordKind outcome.sourceRecordId)
      Prog.require (existing = some (hash outcome)) .outcomeConflict
      auditOutcomesWithin handle outcomes

/-- `auditOutcomes`. -/
def auditOutcomes (handle : RunHandle) (outcomes : List SourceRecordOutcome) :
    IngestionProg IngestionResult := do
  Prog.require (outcomes.length ≤ maxIngestionOutcomesPerWrite) .invalidInput
  withRunningRun handle do
    let inserted ← auditOutcomesWithin hash handle outcomes
    return .written inserted outcomes.length

/-- `quarantineAcceptedOutcomes`, of one outcome. -/
def quarantineAccepted (reason : JsString) (outcome : SourceRecordOutcome) : SourceRecordOutcome :=
  if outcome.outcomeState = .accepted then
    { outcome with outcomeState := .quarantined, reason := some reason }
  else outcome

/-- `persistCatalogOutcomes`, from the outcomes on: an accepted outcome is quarantined unless the
source may be used and its product is resolved without a review. -/
def persistCatalogOutcomesWithin (handle : RunHandle) (approved : Bool) (perOutcome : ℕ) :
    List SourceRecordOutcome → IngestionProg ℕ
  | [] => pure 0
  | outcome :: outcomes => do
    let first ←
      if outcome.outcomeState ≠ .accepted then auditOutcomesWithin hash handle [outcome]
      else if approved = false then
        auditOutcomesWithin hash handle
          [quarantineAccepted (js "CATALOG_CORRECTION_REVIEW_REQUIRED") outcome]
      else do
        statements perOutcome
        let reviewRequired : Bool ← ask .statement
        if reviewRequired = true then
          auditOutcomesWithin hash handle
            [quarantineAccepted (js "CATALOG_CORRECTION_REVIEW_REQUIRED") outcome]
        else do
          let inserted ← auditOutcomesWithin hash handle [outcome]
          statements perOutcome
          pure inserted
    let rest ← persistCatalogOutcomesWithin handle approved perOutcome outcomes
    return first + rest

/-- `persistCatalogOutcomes`. -/
def persistCatalogOutcomes (handle : RunHandle) (outcomes : List SourceRecordOutcome)
    (perOutcome : ℕ) : IngestionProg IngestionResult := do
  Prog.require (handle.runType = js "catalog") .invalidInput
  Prog.require (outcomes.length ≤ maxIngestionOutcomesPerWrite) .invalidInput
  withRunningRun handle do
    let approved : Bool ← ask .statement
    let inserted ← persistCatalogOutcomesWithin hash handle approved perOutcome outcomes
    return .written inserted outcomes.length

/-- `persistPriceOutcomes` and `persistPhysicalStoreOutcomes`: what is accepted is quarantined
unless the source may be used; observations follow the outcomes. -/
def persistOutcomes (runTypes : List JsString) (handle : RunHandle)
    (outcomes : List SourceRecordOutcome) (observations : ℕ) : IngestionProg IngestionResult := do
  Prog.require (handle.runType ∈ runTypes) .invalidInput
  Prog.require (outcomes.length ≤ maxIngestionOutcomesPerWrite) .invalidInput
  withRunningRun handle do
    let approved : Bool ← ask .statement
    if approved = false then
      let inserted ← auditOutcomesWithin hash handle
        (outcomes.map (quarantineAccepted (js "SOURCE_ACCESS_REVIEW_REQUIRED")))
      return .written inserted outcomes.length
    else
      let inserted ← auditOutcomesWithin hash handle outcomes
      statements observations
      return .written inserted outcomes.length

/-- `persistPriceOutcomes`. -/
def persistPriceOutcomes : RunHandle → List SourceRecordOutcome → ℕ → IngestionProg IngestionResult :=
  persistOutcomes hash [js "historical-prices", js "benchmark-prices", js "catalog"]

/-- `persistPhysicalStoreOutcomes`. -/
def persistPhysicalStoreOutcomes :
    RunHandle → List SourceRecordOutcome → ℕ → IngestionProg IngestionResult :=
  persistOutcomes hash [js "physical-stores"]

/-- The input of `finalizeRun`. -/
structure FinalizeInput where
  completedAt : ℤ
  errorClass : Option JsString
  failed : ℕ
  status : TerminalStatus

/-- The row of a run that is finalized. -/
def finalizedRow (run : RunRow) (input : FinalizeInput) (states : List OutcomeState) : RunRow :=
  { run with
    completedAt := some input.completedAt
    counts := reconstructIngestionRunCounters states input.failed
    errorClass := input.errorClass
    status := .terminal input.status }

/-- `finalizeRun`. -/
def finalizeRun (handle : RunHandle) (input : FinalizeInput) : IngestionProg IngestionResult := do
  Prog.require (input.status = .completed → input.failed = 0) .invalidInput
  fencedTransaction do
    let run ← lockRun handle
    match run.status with
    | .terminal status =>
      Prog.require (status = input.status) .alreadyTerminal
      return .finalized run.counts status
    | .running =>
      Prog.require (run.startedAt ≤ input.completedAt) .invalidInput
      let states : List OutcomeState ← ask (.selectStates handle.id)
      let _ : Unit ← ask (.updateRun handle.id (finalizedRow run input states))
      return .finalized (reconstructIngestionRunCounters states input.failed) input.status

/-- A call of one of the functions. -/
inductive Call where
  | begin (jobId runType sourceId : JsString) (startedAt : ℤ)
  | audit (handle : RunHandle) (outcomes : List SourceRecordOutcome)
  | persistCatalog (handle : RunHandle) (outcomes : List SourceRecordOutcome) (perOutcome : ℕ)
  | persistPrices (handle : RunHandle) (outcomes : List SourceRecordOutcome) (observations : ℕ)
  | persistStores (handle : RunHandle) (outcomes : List SourceRecordOutcome) (observations : ℕ)
  | finalize (handle : RunHandle) (input : FinalizeInput)

/-- The program of a call. -/
def program : Call → IngestionProg IngestionResult
  | .begin jobId runType sourceId startedAt => beginRun jobId runType sourceId startedAt
  | .audit handle outcomes => auditOutcomes hash handle outcomes
  | .persistCatalog handle outcomes perOutcome =>
    persistCatalogOutcomes hash handle outcomes perOutcome
  | .persistPrices handle outcomes observations =>
    persistPriceOutcomes hash handle outcomes observations
  | .persistStores handle outcomes observations =>
    persistPhysicalStoreOutcomes hash handle outcomes observations
  | .finalize handle input => finalizeRun handle input

end Hash

/-! ### Locks and versions -/

/-- What is locked: a run, a job, or the identity of an outcome. -/
inductive LockKey where
  | run (id : ℕ)
  | job (jobId : JsString)
  | outcome (runId : ℕ) (recordKind sourceRecordId : JsString)
  deriving DecidableEq

/-- A version of a row. -/
inductive Version where
  | run (row : RunRow)
  | outcome (row : OutcomeRow)

/-- The key of an outcome. -/
def OutcomeRow.key (row : OutcomeRow) (runId : ℕ) : LockKey :=
  .outcome runId row.recordKind row.sourceRecordId

/-- The locks that a statement takes. An outcome that is inserted refers to its run. -/
def locksOf : (query : Query) → Answer query → List (LockKey × Mode)
  | .insertRun run, inserted =>
    (Option.toList inserted).flatMap fun id => [(.job run.jobId, .update), (.run id, .update)]
  | .lockRun id, found => bif Option.isSome found then [(.run id, .update)] else []
  | .insertOutcome runId row, created =>
    bif created then [(.run runId, .keyShare), (row.key runId, .update)] else []
  | .updateRun id _, _ => [(.run id, .noKeyUpdate)]
  | _, _ => []

/-- The versions that a statement writes. -/
def writesOf : (query : Query) → Answer query → List (LockKey × Version)
  | .insertRun run, inserted => (Option.toList inserted).map fun id => (.run id, .run run)
  | .insertOutcome runId row, created =>
    bif created then [(row.key runId, .outcome row)] else []
  | .updateRun id run, _ => [(.run id, .run run)]
  | _, _ => []

/-- What a statement writes, it locks. -/
theorem locked (query : Query) (answer : Answer query) :
    ∀ w ∈ writesOf query answer, ∃ mode : Mode, mode.Writes ∧ (w.1, mode) ∈ locksOf query answer := by
  intro w hw
  cases query with
  | insertRun run =>
    obtain ⟨id, hid, rfl⟩ := List.mem_map.mp hw
    exact ⟨.update, .inr rfl, List.mem_flatMap.mpr ⟨id, hid, by simp⟩⟩
  | insertOutcome runId row =>
    change Bool at answer
    cases answer with
    | false => cases hw
    | true =>
      obtain rfl := List.mem_singleton.mp hw
      exact ⟨.update, .inr rfl, by simp [locksOf]⟩
  | updateRun id run =>
    obtain rfl := List.mem_singleton.mp hw
    exact ⟨.noKeyUpdate, .inl rfl, List.mem_cons_self⟩
  | _ => cases hw

/-- The locks and the writes of the statements. -/
def access : Access Query Answer LockKey Version where
  locks event := locksOf event.query event.answer
  writes event := writesOf event.query event.answer
  locked event := locked event.query event.answer

/-! ### Answers -/

/-- A history of a session. -/
abbrev IngestionHistory := History Query Answer

/-- A state of the sessions. -/
abbrev IngestionState := State ℕ Call Query Answer IngestionError IngestionResult

/-- The versions of rows. -/
abbrev Writes := List (LockKey × Version)

/-- The row of a version of a run. -/
def Version.run? : Version → Option RunRow
  | .run row => some row
  | .outcome _ => none

/-- The row of a version of an outcome. -/
def Version.outcome? : Version → Option OutcomeRow
  | .outcome row => some row
  | .run _ => none

/-- A run as it is now. -/
def currentRun (writes : Writes) (id : ℕ) : Option RunRow :=
  (Access.current writes (.run id)).bind Version.run?

/-- The outcome of a version that is one of a run. -/
def outcomeOf? (runId : ℕ) : LockKey × Version → Option OutcomeRow
  | (.outcome id _ _, .outcome row) => if id = runId then some row else none
  | _ => none

/-- The outcomes of a run. -/
def outcomesOf (writes : Writes) (runId : ℕ) : List OutcomeRow :=
  writes.filterMap (outcomeOf? runId)

/-- The outcome of an identity. -/
def currentOutcome (writes : Writes) (runId : ℕ) (recordKind sourceRecordId : JsString) :
    Option OutcomeRow :=
  (Access.current writes (.outcome runId recordKind sourceRecordId)).bind Version.outcome?

/-- Whether a version is one of the run of a job. -/
def IsRunOfJob (jobId : JsString) (w : LockKey × Version) : Prop :=
  ∃ run ∈ w.2.run?, run.jobId = jobId

instance (jobId : JsString) : DecidablePred (IsRunOfJob jobId) := fun _ =>
  inferInstanceAs (Decidable (∃ _ ∈ _, _))

variable (st : IngestionState)

/-- Whether no run has had an id. -/
def IsFreshId (id : ℕ) : Prop :=
  (∀ w ∈ access.committedWrites st.committed, w.1 ≠ .run id) ∧
    ∀ p ∈ st.running, ∀ w ∈ access.writesOf p.2.history, w.1 ≠ .run id

instance (st : IngestionState) (id : ℕ) : Decidable (IsFreshId st id) :=
  inferInstanceAs (Decidable ((∀ _ ∈ _, _) ∧ ∀ _ ∈ _, ∀ _ ∈ _, _))

/-- Whether a run may be inserted under an id, or is not because there is one of its job. -/
def IsInsertedRun (writes : Writes) (run : RunRow) : Option ℕ → Prop
  | some id => (∀ w ∈ writes, ¬ IsRunOfJob run.jobId w) ∧ IsFreshId st id
  | none => ∃ w ∈ writes, IsRunOfJob run.jobId w

instance (st : IngestionState) (writes : Writes) (run : RunRow) :
    DecidablePred (IsInsertedRun st writes run)
  | some _ => inferInstanceAs (Decidable ((∀ _ ∈ _, ¬ _) ∧ _))
  | none => inferInstanceAs (Decidable (∃ _ ∈ _, _))

/-- Whether a run is one of a job, or there is none. -/
def IsSelectedRun (writes : Writes) (jobId : JsString) : Option (ℕ × RunRow) → Prop
  | some (id, run) => currentRun writes id = some run ∧ run.jobId = jobId
  | none => ∀ w ∈ writes, ¬ IsRunOfJob jobId w

instance (writes : Writes) (jobId : JsString) : DecidablePred (IsSelectedRun writes jobId)
  | some (_, _) => inferInstanceAs (Decidable (_ ∧ _))
  | none => inferInstanceAs (Decidable (∀ _ ∈ _, ¬ _))

/-- Whether the tables give a statement its answer. States come in any order. -/
def IsAnswer (writes : Writes) : (query : Query) → Answer query → Prop
  | .insertRun run, inserted => IsInsertedRun st writes run inserted
  | .selectRun jobId, found => IsSelectedRun writes jobId found
  | .lockRun id, found => @Eq (Option RunRow) found (currentRun writes id)
  | .insertOutcome runId row, created =>
    @Eq Bool created (currentOutcome writes runId row.recordKind row.sourceRecordId).isNone
  | .selectOutcomeHash runId recordKind sourceRecordId, found =>
    @Eq (Option JsString) found
      ((currentOutcome writes runId recordKind sourceRecordId).map fun row => row.outcomeHash)
  | .selectStates runId, states =>
    List.Perm states ((outcomesOf writes runId).map fun row => row.outcomeState)
  | .updateRun _ _, _ => True
  | .verifyFence _, _ => True
  | .statement, _ => True

instance (st : IngestionState) (writes : Writes) (query : Query) (answer : Answer query) :
    Decidable (IsAnswer st writes query answer) :=
  match query, answer with
  | .insertRun run, inserted =>
    (inferInstance : DecidablePred (IsInsertedRun st writes run)) inserted
  | .selectRun jobId, found => (inferInstance : DecidablePred (IsSelectedRun writes jobId)) found
  | .lockRun _, found => (inferInstance : DecidableEq (Option RunRow)) found _
  | .insertOutcome _ _, created => (inferInstance : DecidableEq Bool) created _
  | .selectOutcomeHash _ _ _, found => (inferInstance : DecidableEq (Option JsString)) found _
  | .selectStates _, states => List.decidablePerm (α := OutcomeState) states _
  | .updateRun _ _, _ => .isTrue trivial
  | .verifyFence _, _ => .isTrue trivial
  | .statement, _ => .isTrue trivial

/-- What a session has asked so far. -/
def historyOf (session : ℕ) : IngestionHistory :=
  ((st.transaction session).map fun t => t.history).getD []

/-- The versions of rows that a session sees. -/
def viewOf (session : ℕ) : Writes :=
  access.view st.committed (historyOf st session)

/-- Whether a statement of a session gets an answer: the locks it takes are free, and the answer is
what the session sees. -/
def Admits (session : ℕ) (query : Query) (answer : Answer query) : Prop :=
  (∀ lock ∈ locksOf query answer, access.IsFree st session lock.1 lock.2) ∧
    IsAnswer st (viewOf st session) query answer

instance (st : IngestionState) (session : ℕ) (query : Query) (answer : Answer query) :
    Decidable (Admits st session query answer) :=
  inferInstanceAs (Decidable ((∀ lock ∈ _, _) ∧ _))

/-- The database, with the functions over it. -/
def database (hash : SourceRecordOutcome → JsString) :
    Database ℕ Call Query Answer IngestionError IngestionResult where
  program := program hash
  Admits := Admits
  decidableAdmits := fun _ _ _ _ => inferInstance

end Handleplan.IngestionRuns
