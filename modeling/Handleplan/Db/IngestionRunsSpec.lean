import Handleplan.Db.IngestionRuns

/-!
# A terminal run accounts for its outcomes

Whatever audits, writes and finalizations interleave, the counts of a run that is terminal are those
of its outcomes, and nothing is written about it any more.

## Main definitions

* `IngestionRuns.recordsOf` — what is written about a run.
* `IngestionRuns.IsSoundAt` — what a transaction relies on, about one run.
* `IngestionRuns.CountsOutcomes` — counts are those of a list of outcomes.

## Main results

* `IngestionRuns.isSoundAt_of_reachable` — every transaction is sound about every run.
* `IngestionRuns.terminalRuns_account` — terminal runs account for their outcomes and
  stay as they are, in every run of the database.

## Design

Who writes about a run has locked its row and found it running, or has inserted it. So the committed
row is still running until that transaction commits, and no two transactions write about one run at
a time.
-/

namespace Handleplan.IngestionRuns

open Interaction Sessions RowLocks Access JsString

/-! ### What is written about a run -/

/-- The run that a key is about. -/
def LockKey.runId? : LockKey → Option ℕ
  | .run id => some id
  | .job _ => none
  | .outcome runId _ _ => some runId

/-- What is written about a run. -/
def recordsOf (writes : Writes) (id : ℕ) : Writes := writes.filter fun w => w.1.runId? = some id

section Records

variable {writes writes' : Writes} {id : ℕ}

theorem recordsOf_append :
    recordsOf (writes ++ writes') id = recordsOf writes id ++ recordsOf writes' id :=
  List.filter_append _ _

theorem mem_recordsOf {w : LockKey × Version} :
    w ∈ recordsOf writes id ↔ w ∈ writes ∧ w.1.runId? = some id := by
  rw [recordsOf, List.mem_filter, decide_eq_true_iff]

/-- The versions of a run are among what is written about it. -/
theorem versions_recordsOf :
    versions (recordsOf writes id) (.run id) = versions writes (.run id) := by
  rw [versions, versions, recordsOf, List.filter_filter]
  congr 2
  funext w
  by_cases hw : w.1 = .run id
  · simp [hw, LockKey.runId?]
  · simp [hw]

theorem currentRun_recordsOf : currentRun (recordsOf writes id) id = currentRun writes id := by
  rw [currentRun, currentRun, current, current, versions_recordsOf]

/-- So are its outcomes. -/
theorem outcomesOf_recordsOf : outcomesOf (recordsOf writes id) id = outcomesOf writes id := by
  rw [outcomesOf, outcomesOf, recordsOf, List.filterMap_filter]
  congr 1
  funext w
  obtain ⟨key, version⟩ := w
  cases key with
  | outcome runId recordKind sourceRecordId =>
    by_cases heq : runId = id
    · simp [LockKey.runId?, heq]
    · cases version <;> simp [LockKey.runId?, heq, outcomeOf?]
  | run runId => simp [outcomeOf?]
  | job jobId => simp [outcomeOf?]

theorem currentRun_congr (h : recordsOf writes id = recordsOf writes' id) :
    currentRun writes id = currentRun writes' id := by
  rw [← currentRun_recordsOf, h, currentRun_recordsOf]

theorem outcomesOf_congr (h : recordsOf writes id = recordsOf writes' id) :
    outcomesOf writes id = outcomesOf writes' id := by
  rw [← outcomesOf_recordsOf, h, outcomesOf_recordsOf]

/-- A run that is there has a version. -/
theorem exists_version_of_currentRun {run : RunRow} (h : currentRun writes id = some run) :
    ∃ w ∈ writes, w.1 = .run id := by
  obtain ⟨version, hversion, -⟩ := Option.bind_eq_some_iff.mp h
  exact ⟨_, mem_versions_iff.mp (mem_versions_of_current hversion), rfl⟩

theorem currentRun_eq_none (h : ∀ w ∈ writes, w.1 ≠ .run id) : currentRun writes id = none := by
  rw [currentRun, current, versions_eq_nil_iff.mpr h]
  rfl

/-- What is not a version of the run leaves it as it is. -/
theorem currentRun_append_of_ne (h : ∀ w ∈ writes', w.1 ≠ .run id) :
    currentRun (writes ++ writes') id = currentRun writes id := by
  rw [currentRun, current, versions_append, versions_eq_nil_iff.mpr h, List.append_nil]
  rfl

theorem currentRun_concat (run : RunRow) :
    currentRun (writes ++ [(.run id, .run run)]) id = some run := by
  rw [currentRun, current, versions_concat_self, List.getLast?_concat]
  rfl

theorem outcomesOf_concat_run (runId : ℕ) (run : RunRow) :
    outcomesOf (writes ++ [(.run runId, .run run)]) id = outcomesOf writes id := by
  simp [outcomesOf, outcomeOf?]

end Records

/-! ### Counts -/

/-- **Counts are those of a list of outcomes**: one for each state, and all of them. -/
structure CountsOutcomes (counts : IngestionRunCounters) (rows : List OutcomeRow) : Prop where
  accepted : counts.accepted = rows.countP fun row => row.outcomeState = .accepted
  quarantined : counts.quarantined = rows.countP fun row => row.outcomeState = .quarantined
  unknown : counts.unknown = rows.countP fun row => row.outcomeState = .unknown
  persisted : counts.persisted = counts.fetched
  fetched : counts.fetched = counts.accepted + counts.quarantined + counts.unknown

/-- Every state is one of three. -/
theorem length_eq_sum_count (states : List OutcomeState) : states.length =
    states.count .accepted + states.count .quarantined + states.count .unknown := by
  induction states with
  | nil => rfl
  | cons state states ih =>
    cases state <;> simp [ih] <;> omega

/-- **Reconstructed counts** are those of the outcomes whose states were read. -/
theorem countsOutcomes_reconstruct {states : List OutcomeState} {rows : List OutcomeRow}
    (h : states.Perm (rows.map fun row => row.outcomeState)) (failed : ℕ) :
    CountsOutcomes (reconstructIngestionRunCounters states failed) rows := by
  have hcount : ∀ state, states.count state = rows.countP fun row => row.outcomeState = state := by
    intro state
    rw [h.count_eq, List.count, List.countP_map]
    exact List.countP_congr fun row _ => by simp
  exact ⟨hcount _, hcount _, hcount _, rfl, length_eq_sum_count states⟩

/-- What is written about a run has a run, and a terminal run counts its outcomes. -/
structure IsAccounted (writes : Writes) (id : ℕ) : Prop where
  known : recordsOf writes id ≠ [] → ∃ w ∈ writes, w.1 = .run id
  counted : ∀ run status, currentRun writes id = some run → run.status = .terminal status →
    CountsOutcomes run.counts (outcomesOf writes id)

theorem IsAccounted.congr {writes writes' : Writes} {id : ℕ} (h : IsAccounted writes id)
    (heq : recordsOf writes id = recordsOf writes' id) : IsAccounted writes' id := by
  refine ⟨fun hne => ?_, fun run status hrun hstatus => ?_⟩
  · obtain ⟨w, hw, hkey⟩ := h.known (heq ▸ hne)
    have hmem : w ∈ recordsOf writes id := mem_recordsOf.mpr ⟨hw, by rw [hkey]; rfl⟩
    rw [heq] at hmem
    exact ⟨w, (mem_recordsOf.mp hmem).1, hkey⟩
  · rw [← outcomesOf_congr heq]
    exact h.counted run status (currentRun_congr heq ▸ hrun) hstatus

theorem isAccounted_nil (id : ℕ) : IsAccounted [] id where
  known hne := absurd rfl hne
  counted _ _ hrun := nomatch hrun

/-! ### What the functions ask -/

variable (h : IngestionHistory)

/-- A transaction has locked a run, found it running, and not written its row. -/
def IsOpen (id : ℕ) : Prop :=
  (∃ run : RunRow, ⟨.lockRun id, some run⟩ ∈ h ∧ run.status = .running) ∧
    ∀ w ∈ access.writesOf h, w.1 ≠ .run id

/-- A row of a run has the counts of the states that have just been read. -/
def HasJustCounted (id : ℕ) (run : RunRow) : Prop :=
  ∃ before, ∃ states : List OutcomeState, ∃ failed,
    h = before ++ [⟨.selectStates id, states⟩] ∧
      run.counts = reconstructIngestionRunCounters states failed

/-- What a function may ask: it inserts and locks runs before it writes, and writes about runs that
are open. -/
def MayAsk : Query → Prop
  | .insertRun run => access.writesOf h = [] ∧ run.status = .running
  | .lockRun _ => access.writesOf h = []
  | .insertOutcome id _ => IsOpen h id
  | .updateRun id run => IsOpen h id ∧ HasJustCounted h id run
  | _ => True

section Programs

variable {h : IngestionHistory} {id : ℕ}

theorem writesOf_concat (event : Event Query Answer) : access.writesOf (h ++ [event]) =
    access.writesOf h ++ writesOf event.query event.answer := by
  rw [Access.writesOf_append, Access.writesOf_singleton]
  rfl

/-- A statement that writes no row of the run leaves it open. -/
theorem IsOpen.concat (hopen : IsOpen h id) (event : Event Query Answer)
    (hne : ∀ w ∈ writesOf event.query event.answer, w.1 ≠ .run id) :
    IsOpen (h ++ [event]) id := by
  obtain ⟨⟨run, hlocked, hrunning⟩, hunwritten⟩ := hopen
  refine ⟨⟨run, List.mem_append_left _ hlocked, hrunning⟩, ?_⟩
  rw [writesOf_concat]
  exact List.forall_mem_append.mpr ⟨hunwritten, hne⟩

theorem IsOpen.statement (hopen : IsOpen h id) (answer : Bool) :
    IsOpen (h ++ [⟨.statement, answer⟩]) id := hopen.concat _ fun _ hw => nomatch hw

theorem safe_fencedTransaction {callback : IngestionProg IngestionResult}
    (hcallback : ∀ h, access.writesOf h = [] → Prog.Safe MayAsk (fun _ _ => True) h callback) :
    Prog.Safe MayAsk (fun _ _ => True) [] (fencedTransaction callback) := by
  refine Prog.Safe.bind (Prog.Safe.query trivial fun (isCurrent : Bool) => ?_)
  refine Prog.Safe.bind (Prog.Safe.require fun _ => ?_)
  refine Prog.Safe.bind ((hcallback _ rfl).mono fun h result _ => ?_)
  refine Prog.Safe.bind (Prog.Safe.query trivial fun (isStillCurrent : Bool) => ?_)
  exact Prog.Safe.bind (Prog.Safe.require fun _ => trivial)

theorem safe_lockRun {handle : RunHandle} {post : IngestionHistory → RunRow → Prop}
    (hunwritten : access.writesOf h = [])
    (hpost : ∀ run : RunRow, post (h ++ [⟨.lockRun handle.id, some run⟩]) run) :
    Prog.Safe MayAsk post h (lockRun handle) := by
  refine Prog.Safe.bind (Prog.Safe.query hunwritten fun (found : Option RunRow) => ?_)
  refine Prog.Safe.bind (Prog.Safe.orFail fun run hrun => ?_)
  subst hrun
  exact Prog.Safe.bind (Prog.Safe.require fun _ => hpost run)

/-- A run that is locked and found running is open. -/
theorem isOpen_of_lock (hunwritten : access.writesOf h = []) {run : RunRow}
    (hrunning : run.status = .running) : IsOpen (h ++ [⟨.lockRun id, some run⟩]) id := by
  refine ⟨⟨run, List.mem_append_right _ List.mem_cons_self, hrunning⟩, ?_⟩
  rw [writesOf_concat, hunwritten]
  exact fun _ hw => nomatch hw

theorem safe_withRunningRun {handle : RunHandle} {callback : IngestionProg IngestionResult}
    (hcallback : ∀ h, IsOpen h handle.id → Prog.Safe MayAsk (fun _ _ => True) h callback) :
    Prog.Safe MayAsk (fun _ _ => True) [] (withRunningRun handle callback) := by
  refine safe_fencedTransaction fun h hunwritten => ?_
  refine Prog.Safe.bind (safe_lockRun hunwritten fun run => ?_)
  refine Prog.Safe.bind (Prog.Safe.require fun hrunning => ?_)
  exact hcallback _ (isOpen_of_lock hunwritten hrunning)

theorem safe_statements (n : ℕ) {post : IngestionHistory → Unit → Prop} (hopen : IsOpen h id)
    (hpost : ∀ h, IsOpen h id → post h ()) : Prog.Safe MayAsk post h (statements n) := by
  induction n generalizing h with
  | zero => exact hpost h hopen
  | succ n ih =>
    refine Prog.Safe.bind (Prog.Safe.query trivial fun (isDone : Bool) => ?_)
    exact Prog.Safe.bind (Prog.Safe.require fun _ => ih (hopen.statement isDone))

variable {hash : SourceRecordOutcome → JsString} {handle : RunHandle}

/-- Outcomes are audited while the run is open. -/
theorem safe_auditOutcomesWithin (outcomes : List SourceRecordOutcome)
    {post : IngestionHistory → ℕ → Prop} (hopen : IsOpen h handle.id)
    (hpost : ∀ h inserted, IsOpen h handle.id → post h inserted) :
    Prog.Safe MayAsk post h (auditOutcomesWithin hash handle outcomes) := by
  induction outcomes generalizing h post with
  | nil => exact hpost h 0 hopen
  | cons outcome outcomes ih =>
    refine Prog.Safe.bind (Prog.Safe.query hopen fun (created : Bool) => ?_)
    have hinserted : IsOpen (h ++ [⟨.insertOutcome handle.id (outcomeRow hash outcome), created⟩])
        handle.id := by
      refine hopen.concat _ fun w hw => ?_
      cases created with
      | false => cases hw
      | true =>
        obtain rfl := List.mem_singleton.mp hw
        simp [OutcomeRow.key]
    show Prog.Safe _ _ _ (if _ then _ else _)
    split_ifs
    · exact Prog.Safe.bind (ih hinserted fun h inserted hopen => hpost h (inserted + 1) hopen)
    · refine Prog.Safe.bind (Prog.Safe.query trivial fun (existing : Option JsString) => ?_)
      refine Prog.Safe.bind (Prog.Safe.require fun _ => ?_)
      exact ih (hinserted.concat _ fun _ hw => nomatch hw) hpost

/-- Outcomes are persisted while the run is open. -/
theorem safe_persistCatalogOutcomesWithin (approved : Bool) (perOutcome : ℕ)
    (outcomes : List SourceRecordOutcome) {post : IngestionHistory → ℕ → Prop}
    (hopen : IsOpen h handle.id) (hpost : ∀ h inserted, IsOpen h handle.id → post h inserted) :
    Prog.Safe MayAsk post h
      (persistCatalogOutcomesWithin hash handle approved perOutcome outcomes) := by
  induction outcomes generalizing h post with
  | nil => exact hpost h 0 hopen
  | cons outcome outcomes ih =>
    have hrest : ∀ h first, IsOpen h handle.id → Prog.Safe MayAsk post h (do
        let rest ← persistCatalogOutcomesWithin hash handle approved perOutcome outcomes
        return first + rest : IngestionProg ℕ) := fun h first hopen =>
      Prog.Safe.bind (ih hopen fun h rest hopen => hpost h (first + rest) hopen)
    rw [persistCatalogOutcomesWithin]
    split_ifs
    · exact Prog.Safe.bind (safe_auditOutcomesWithin _ hopen hrest)
    · exact Prog.Safe.bind (safe_auditOutcomesWithin _ hopen hrest)
    · refine Prog.Safe.bind (safe_statements perOutcome hopen fun h hopen => ?_)
      refine Prog.Safe.bind (Prog.Safe.query trivial fun (reviewRequired : Bool) => ?_)
      show Prog.Safe _ _ _ (if _ then _ else _)
      split_ifs
      · exact Prog.Safe.bind (safe_auditOutcomesWithin _ (hopen.statement reviewRequired) hrest)
      · refine Prog.Safe.bind (safe_auditOutcomesWithin _ (hopen.statement reviewRequired)
          fun h inserted hopen => ?_)
        exact Prog.Safe.bind (safe_statements perOutcome hopen fun h hopen =>
          hrest h inserted hopen)

theorem safe_persistOutcomes (runTypes : List JsString) (outcomes : List SourceRecordOutcome)
    (observations : ℕ) : Prog.Safe MayAsk (fun _ _ => True) []
      (persistOutcomes hash runTypes handle outcomes observations) := by
  refine Prog.Safe.bind (Prog.Safe.require fun _ => ?_)
  refine Prog.Safe.bind (Prog.Safe.require fun _ => ?_)
  refine safe_withRunningRun fun h hopen => ?_
  refine Prog.Safe.bind (Prog.Safe.query trivial fun (approved : Bool) => ?_)
  show Prog.Safe _ _ _ (if _ then _ else _)
  split_ifs
  · exact Prog.Safe.bind (safe_auditOutcomesWithin _ (hopen.statement approved)
      fun _ _ _ => trivial)
  · refine Prog.Safe.bind (safe_auditOutcomesWithin _ (hopen.statement approved)
      fun h inserted hopen => ?_)
    exact Prog.Safe.bind (safe_statements observations hopen fun _ _ => trivial)

theorem safe_finalizeRun (input : FinalizeInput) :
    Prog.Safe MayAsk (fun _ _ => True) [] (finalizeRun handle input) := by
  refine Prog.Safe.bind (Prog.Safe.require fun _ => ?_)
  refine safe_fencedTransaction fun h hunwritten => ?_
  refine Prog.Safe.bind (safe_lockRun hunwritten fun run => ?_)
  cases hstatus : run.status with
  | terminal status => exact Prog.Safe.bind (Prog.Safe.require fun _ => trivial)
  | running =>
    refine Prog.Safe.bind (Prog.Safe.require fun _ => ?_)
    refine Prog.Safe.bind (Prog.Safe.query trivial fun (states : List OutcomeState) => ?_)
    have hlocked : IsOpen (h ++ [⟨.lockRun handle.id, some run⟩]) handle.id :=
      isOpen_of_lock hunwritten hstatus
    have hopen := hlocked.concat ⟨.selectStates handle.id, states⟩ fun _ hw => nomatch hw
    exact Prog.Safe.bind (Prog.Safe.query ⟨hopen, _, states, input.failed, rfl, rfl⟩
      fun (_ : Unit) => trivial)

theorem safe_beginRun (jobId runType sourceId : JsString) (startedAt : ℤ) :
    Prog.Safe MayAsk (fun _ _ => True) [] (beginRun jobId runType sourceId startedAt) := by
  refine safe_fencedTransaction fun h hunwritten => ?_
  refine Prog.Safe.bind (Prog.Safe.query ⟨hunwritten, rfl⟩ fun (inserted : Option ℕ) => ?_)
  cases inserted with
  | some id => trivial
  | none =>
    refine Prog.Safe.bind (Prog.Safe.query trivial fun (found : Option (ℕ × RunRow)) => ?_)
    refine Prog.Safe.bind (Prog.Safe.orFail fun existing _ => ?_)
    exact Prog.Safe.bind (Prog.Safe.require fun _ => trivial)

/-- **What every function asks** it may ask. -/
theorem safe_program (call : Call) :
    Prog.Safe MayAsk (fun _ _ => True) [] ((database hash).program call) := by
  cases call with
  | begin jobId runType sourceId startedAt => exact safe_beginRun jobId runType sourceId startedAt
  | audit handle outcomes =>
    refine Prog.Safe.bind (Prog.Safe.require fun _ => ?_)
    exact safe_withRunningRun fun h hopen =>
      Prog.Safe.bind (safe_auditOutcomesWithin outcomes hopen fun _ _ _ => trivial)
  | persistCatalog handle outcomes perOutcome =>
    refine Prog.Safe.bind (Prog.Safe.require fun _ => ?_)
    refine Prog.Safe.bind (Prog.Safe.require fun _ => ?_)
    refine safe_withRunningRun fun h hopen => ?_
    refine Prog.Safe.bind (Prog.Safe.query trivial fun (approved : Bool) => ?_)
    exact Prog.Safe.bind (safe_persistCatalogOutcomesWithin approved perOutcome outcomes
      (hopen.statement approved) fun _ _ _ => trivial)
  | persistPrices handle outcomes observations => exact safe_persistOutcomes _ outcomes observations
  | persistStores handle outcomes observations => exact safe_persistOutcomes _ outcomes observations
  | finalize handle input => exact safe_finalizeRun input

end Programs

/-! ### Runs of the database -/

section Runs

variable {hash : SourceRecordOutcome → JsString}
  {allowed : IngestionState → Step ℕ Call Query Answer → Prop} {st : IngestionState} {id : ℕ}

/-- The committed versions of rows. -/
abbrev CommittedWrites (committed : List (Committed Call Query Answer IngestionResult)) : Writes :=
  access.committedWrites committed

theorem view_concat (committed : List (Committed Call Query Answer IngestionResult))
    (h : IngestionHistory) (event : Event Query Answer) : access.view committed (h ++ [event]) =
      access.view committed h ++ writesOf event.query event.answer := by
  rw [view, view, writesOf_concat, List.append_assoc]

variable {session : ℕ} {t : Transaction Call Query Answer IngestionError IngestionResult}
  {query : Query}

theorem viewOf_of_transaction (ht : st.transaction session = some t) :
    viewOf st session = access.view st.committed t.history := by
  rw [viewOf, historyOf, ht]
  rfl

theorem exclusive (h : (database hash).system.Reachable allowed st) : access.Exclusive st := by
  refine exclusive_of_reachable ?_ h
  intro st session query answer hadmits
  exact hadmits.1

/-- The statement that a transaction asks next is one that it may ask. -/
theorem mayAsk_of_reachable (h : (database hash).system.Reachable allowed st)
    (ht : st.transaction session = some t) {next : Answer query → IngestionProg IngestionResult}
    (hrest : t.rest = .ask query next) :
    MayAsk t.history query := by
  have hsafe : Database.Everywhere st
      (fun t => Prog.Safe MayAsk (fun _ _ => True) t.history t.rest) fun _ => True :=
    Database.safe_of_reachable (fun c => safe_program c) h
  have hown := hsafe.1 _ (State.mem_of_transaction ht)
  simp only [hrest] at hown
  exact hown.1

/-- **What a transaction relies on, about one run.** -/
structure IsSoundAt (committed : List (Committed Call Query Answer IngestionResult))
    (h : IngestionHistory) (id : ℕ) : Prop where
  locked : recordsOf (access.writesOf h) id ≠ [] → access.Holds h (.run id) .update
  found : ∀ run : RunRow, ⟨.lockRun id, some run⟩ ∈ h →
    currentRun (CommittedWrites committed) id = some run
  running : recordsOf (access.writesOf h) id ≠ [] →
    ∀ run ∈ currentRun (CommittedWrites committed) id, run.status = .running
  counted : ∀ before, ∀ states : List OutcomeState, h = before ++ [⟨.selectStates id, states⟩] →
    access.Holds h (.run id) .update →
      states.Perm ((outcomesOf (access.view committed h) id).map fun row => row.outcomeState)
  accounted : IsAccounted (access.view committed h) id

/-- What has no record of a run written nothing about it. -/
theorem recordsOf_view (committed : List (Committed Call Query Answer IngestionResult))
    (h : IngestionHistory) : recordsOf (access.view committed h) id =
      recordsOf (CommittedWrites committed) id ++ recordsOf (access.writesOf h) id :=
  recordsOf_append

theorem holds_of_lockRun {h : IngestionHistory} {run : RunRow}
    (hlocked : ⟨.lockRun id, some run⟩ ∈ h) : access.Holds h (.run id) .update :=
  ⟨_, hlocked, List.mem_cons_self⟩

/-- An open run is running for the transaction that has opened it. -/
theorem IsSoundAt.currentRun_of_isOpen
    {committed : List (Committed Call Query Answer IngestionResult)} {h : IngestionHistory}
    (hsound : IsSoundAt committed h id) (hopen : IsOpen h id) :
    ∃ run, currentRun (access.view committed h) id = some run ∧
      currentRun (CommittedWrites committed) id = some run ∧ run.status = .running := by
  obtain ⟨⟨run, hlocked, hrunning⟩, hunwritten⟩ := hopen
  have hcommitted := hsound.found run hlocked
  exact ⟨run, (currentRun_append_of_ne hunwritten).trans hcommitted, hcommitted, hrunning⟩

/-- **A statement that writes about a run** is the insertion of the run, or about a run that is
open. -/
theorem recordsOf_of_mayAsk {h : IngestionHistory} {answer : Answer query} (hmay : MayAsk h query)
    (hne : recordsOf (writesOf query answer) id ≠ []) :
    (∃ run : RunRow, query = .insertRun run ∧ HEq answer (some id) ∧ access.writesOf h = [] ∧
      run.status = .running) ∨
    (∃ row, query = .insertOutcome id row ∧ IsOpen h id) ∨
    ∃ run, query = .updateRun id run ∧ IsOpen h id ∧ HasJustCounted h id run := by
  obtain ⟨w, hw⟩ := List.exists_mem_of_ne_nil _ hne
  obtain ⟨hw, hkey⟩ := mem_recordsOf.mp hw
  cases query with
  | insertRun run =>
    obtain ⟨id', hid', rfl⟩ := List.mem_map.mp hw
    obtain rfl := Option.some.inj hkey
    have hanswer : answer = (some id' : Option ℕ) := Option.mem_toList.mp hid'
    exact .inl ⟨run, rfl, heq_of_eq hanswer, hmay⟩
  | insertOutcome runId row =>
    change Bool at answer
    cases answer with
    | false => cases hw
    | true =>
      obtain rfl := List.mem_singleton.mp hw
      cases hkey
      exact .inr (.inl ⟨row, rfl, hmay⟩)
  | updateRun runId run =>
    obtain rfl := List.mem_singleton.mp hw
    cases hkey
    exact .inr (.inr ⟨run, rfl, hmay⟩)
  | _ => cases hw

/-- **A statement keeps what is written about a run accounted for**: the run is running while
outcomes are inserted, and is updated to the counts of the states that were read. -/
theorem IsSoundAt.isAccounted_concat
    {committed : List (Committed Call Query Answer IngestionResult)} {h : IngestionHistory}
    (hsound : IsSoundAt committed h id) {answer : Answer query} (hmay : MayAsk h query) :
    IsAccounted (access.view committed (h ++ [⟨query, answer⟩])) id := by
  rw [view_concat]
  by_cases hnil : recordsOf (writesOf query answer) id = []
  · refine hsound.accounted.congr ?_
    rw [recordsOf_append, hnil, List.append_nil]
  obtain ⟨run, rfl, hanswer, -, hrunning⟩ | ⟨row, rfl, hopen⟩ | ⟨run, rfl, hopen, hcounted⟩ :=
    recordsOf_of_mayAsk hmay hnil
  · obtain rfl := eq_of_heq hanswer
    refine ⟨fun _ => ⟨_, List.mem_append_right _ List.mem_cons_self, rfl⟩, ?_⟩
    intro current status hcurrent hstatus
    rw [show writesOf (.insertRun run) (some id : Option ℕ) = [(.run id, .run run)] from rfl,
      currentRun_concat] at hcurrent
    cases hcurrent
    rw [hrunning] at hstatus
    cases hstatus
  · obtain ⟨run, hview, -, hrunning⟩ := hsound.currentRun_of_isOpen hopen
    have hsame : ∀ w ∈ writesOf (.insertOutcome id row) answer, w.1 ≠ .run id := by
      intro w hw
      change Bool at answer
      cases answer with
      | false => cases hw
      | true =>
        obtain rfl := List.mem_singleton.mp hw
        simp [OutcomeRow.key]
    refine ⟨fun _ => ?_, fun current status hcurrent hstatus => ?_⟩
    · obtain ⟨w, hw, hkey⟩ := exists_version_of_currentRun hview
      exact ⟨w, List.mem_append_left _ hw, hkey⟩
    · rw [currentRun_append_of_ne hsame, hview] at hcurrent
      cases hcurrent
      rw [hrunning] at hstatus
      cases hstatus
  · obtain ⟨before, states, failed, rfl, hcounts⟩ := hcounted
    obtain ⟨⟨current, hlocked, -⟩, -⟩ := hopen
    have hperm := hsound.counted before states rfl (holds_of_lockRun hlocked)
    refine ⟨fun _ => ⟨_, List.mem_append_right _ List.mem_cons_self, rfl⟩, ?_⟩
    intro current' status hcurrent hstatus
    rw [show writesOf (.updateRun id run) answer = [(.run id, .run run)] from rfl] at hcurrent ⊢
    rw [currentRun_concat] at hcurrent
    cases hcurrent
    rw [outcomesOf_concat_run, hcounts]
    exact countsOutcomes_reconstruct hperm failed

/-- A transaction goes on soundly.

**Proof sketch.** It locks a run before it writes about it, and finds it running; the row that it
finds is the committed one. A run that it inserts has had no version. -/
theorem IsSoundAt.asks (ht : st.transaction session = some t) {answer : Answer query}
    (hmay : MayAsk t.history query) (hadmits : Admits st session query answer)
    (hsound : IsSoundAt st.committed t.history id) :
    IsSoundAt st.committed (t.history ++ [⟨query, answer⟩]) id := by
  have hanswer := hadmits.2
  rw [viewOf_of_transaction ht] at hanswer
  have hrecords : recordsOf (access.writesOf (t.history ++ [⟨query, answer⟩])) id =
      recordsOf (access.writesOf t.history) id ++ recordsOf (writesOf query answer) id := by
    rw [writesOf_concat, recordsOf_append]
  refine ⟨fun hne => ?_, fun run hfound => ?_, fun hne => ?_, ?_, hsound.isAccounted_concat hmay⟩
  · by_cases hnil : recordsOf (writesOf query answer) id = []
    · rw [hrecords, hnil, List.append_nil] at hne
      exact (hsound.locked hne).append _
    · obtain ⟨run, rfl, hanswer, -, -⟩ | ⟨row, rfl, hopen⟩ | ⟨run, rfl, hopen, -⟩ :=
        recordsOf_of_mayAsk hmay hnil
      · obtain rfl := eq_of_heq hanswer
        exact ⟨_, List.mem_append_right _ List.mem_cons_self, by simp [access, locksOf]⟩
      · obtain ⟨⟨run, hlocked, -⟩, -⟩ := hopen
        exact (holds_of_lockRun hlocked).append _
      · obtain ⟨⟨run, hlocked, -⟩, -⟩ := hopen
        exact (holds_of_lockRun hlocked).append _
  · obtain hold | hnew := List.mem_append.mp hfound
    · exact hsound.found run hold
    · obtain ⟨rfl, heq⟩ := Event.mk.inj (List.mem_singleton.mp hnew)
      have hunwritten : access.writesOf t.history = [] := hmay
      have hcurrent : answer = currentRun (access.view st.committed t.history) id := hanswer
      rw [view, hunwritten, List.append_nil, ← eq_of_heq heq] at hcurrent
      exact hcurrent.symm
  · by_cases hnil : recordsOf (writesOf query answer) id = []
    · rw [hrecords, hnil, List.append_nil] at hne
      exact hsound.running hne
    · obtain ⟨run, rfl, hid, -, -⟩ | ⟨row, rfl, hopen⟩ | ⟨run, rfl, hopen, -⟩ :=
        recordsOf_of_mayAsk hmay hnil
      · obtain rfl := eq_of_heq hid
        obtain ⟨-, hfresh, -⟩ := hanswer
        intro current hcurrent
        rw [currentRun_eq_none hfresh] at hcurrent
        cases hcurrent
      · obtain ⟨current, -, hcommitted, hrunning⟩ := hsound.currentRun_of_isOpen hopen
        intro run hrun
        obtain rfl := Option.some.inj (hcommitted.symm.trans hrun)
        exact hrunning
      · obtain ⟨current, -, hcommitted, hrunning⟩ := hsound.currentRun_of_isOpen hopen
        intro run hrun
        obtain rfl := Option.some.inj (hcommitted.symm.trans hrun)
        exact hrunning
  · intro before states heq hholds
    obtain ⟨rfl, hevent⟩ := List.append_inj' heq rfl
    obtain ⟨rfl, hstates⟩ := Event.mk.inj (List.singleton_inj.mp hevent)
    obtain rfl := eq_of_heq hstates
    rw [view_concat]
    exact (List.append_nil (access.view st.committed t.history)).symm ▸ hanswer

/-- **Another commit** leaves a transaction sound.

**Proof sketch.** If the transaction holds the run, the other one has written nothing about it. If
it does not, it has itself written nothing about it, and sees what the other one has seen. -/
theorem IsSoundAt.commit (hexclusive : access.Exclusive st)
    {p t : ℕ × Transaction Call Query Answer IngestionError IngestionResult}
    (ht : t ∈ st.running) (hp : p ∈ st.running) (hne : p.1 ≠ t.1)
    (hsound : IsSoundAt st.committed p.2.history id)
    (hother : IsSoundAt st.committed t.2.history id) (r : IngestionResult) :
    IsSoundAt (st.committed ++ [⟨t.2.call, t.2.history, r⟩]) p.2.history id := by
  have hrecords : recordsOf (CommittedWrites (st.committed ++ [⟨t.2.call, t.2.history, r⟩])) id =
      recordsOf (CommittedWrites st.committed) id ++ recordsOf (access.writesOf t.2.history) id := by
    rw [CommittedWrites, committedWrites_append, recordsOf_append]
  by_cases hholds : access.Holds p.2.history (.run id) .update
  · have hnil : recordsOf (access.writesOf t.2.history) id = [] := by
      by_contra hwritten
      exact hexclusive p hp t ht hne _ _ _ hholds (hother.locked hwritten) trivial
    rw [hnil, List.append_nil] at hrecords
    have hview : recordsOf (access.view st.committed p.2.history) id =
        recordsOf (access.view (st.committed ++ [⟨t.2.call, t.2.history, r⟩]) p.2.history) id := by
      rw [recordsOf_view, recordsOf_view, hrecords]
    refine ⟨hsound.locked, fun run hfound => ?_, fun hwritten => ?_, fun before states heq _ => ?_,
      hsound.accounted.congr hview⟩
    · rw [currentRun_congr hrecords]
      exact hsound.found run hfound
    · rw [currentRun_congr hrecords]
      exact hsound.running hwritten
    · rw [← outcomesOf_congr hview]
      exact hsound.counted before states heq hholds
  · have hnil : recordsOf (access.writesOf p.2.history) id = [] :=
      by_contra fun hwritten => hholds (hsound.locked hwritten)
    refine ⟨hsound.locked, fun run hfound => ?_, fun hwritten => absurd hnil hwritten,
      fun _ _ _ h => absurd h hholds, hother.accounted.congr ?_⟩
    · exact absurd (holds_of_lockRun hfound) hholds
    · rw [recordsOf_view, recordsOf_view, hrecords, hnil, List.append_nil]

/-- **Every transaction is sound about every run**, and what is committed is accounted for. -/
theorem isSoundAt_of_reachable (h : (database hash).system.Reachable allowed st) :
    (∀ id, IsAccounted (CommittedWrites st.committed) id) ∧
      ∀ p ∈ st.running, ∀ id, IsSoundAt st.committed p.2.history id := by
  refine Database.each_of_reachable (J := fun _ committed t => ∀ id, IsSoundAt committed t.history id)
    (G := fun _ committed => ∀ id, IsAccounted (CommittedWrites committed) id)
    (fun _ => isAccounted_nil) (fun _ _ _ _ hG => hG) ?_ (fun _ _ _ _ _ hJ => hJ) ?_ ?_ ?_ h
  · intro _ committed call hG id
    refine ⟨fun hne => absurd rfl hne, fun run hfound => (nomatch hfound),
      fun hne => absurd rfl hne, fun before states heq => ?_, ?_⟩
    · simp at heq
    · exact (hG id).congr (by rw [recordsOf_view]; exact (List.append_nil _).symm)
  · intro st session t query next answers hreach ht hrest hadmits _ hJ id
    exact (hJ id).asks ht (mayAsk_of_reachable hreach ht hrest) hadmits
  · intro st p t r hreach ht hp hne hJp hJt id
    exact (hJp id).commit (exclusive hreach) ht hp hne (hJt id) r
  · intro clock committed t r _ hJ id
    rw [CommittedWrites, committedWrites_append]
    exact (hJ id).accounted

/-- **A terminal run accounts for its outcomes and stays as it is**: its counts are those of the
outcomes that are there, and no step adds one or changes its row.

**Proof sketch.** Who writes about a run leaves it running until it commits. So a transaction that
commits when the run is terminal has written nothing about it. -/
theorem terminalRuns_account
    (h : (database hash).system.Reachable (fun _ _ => True) st) :
    ∀ id run status, currentRun (CommittedWrites st.committed) id = some run →
      run.status = .terminal status →
        CountsOutcomes run.counts (outcomesOf (CommittedWrites st.committed) id) ∧
        ∀ e st', (database hash).system.step st e = some st' →
          currentRun (CommittedWrites st'.committed) id = some run ∧
            outcomesOf (CommittedWrites st'.committed) id =
              outcomesOf (CommittedWrites st.committed) id := by
  intro id run status hrun hstatus
  obtain ⟨haccounted, hsound⟩ := isSoundAt_of_reachable h
  refine ⟨(haccounted id).counted run status hrun hstatus, fun e st' hstep => ?_⟩
  cases Database.effect_of_step hstep with
  | @commits s t r answers ht hrest =>
    have hrunning := (hsound _ (State.mem_of_transaction ht) id).running
    have hrecords : recordsOf (CommittedWrites (st.committed ++ [⟨t.call, t.history, r⟩])) id =
        recordsOf (CommittedWrites st.committed) id := by
      rw [CommittedWrites, committedWrites_append, recordsOf_append]
      by_cases hwritten : recordsOf (access.writesOf t.history) id = []
      · rw [hwritten, List.append_nil]
      · rw [hrunning hwritten run hrun] at hstatus
        cases hstatus
    exact ⟨(currentRun_congr hrecords).trans hrun, outcomesOf_congr hrecords⟩
  | _ => exact ⟨hrun, rfl⟩

end Runs

/-! ### A run of the database -/

/-- Nothing is there yet. -/
def emptyState : IngestionState where
  clock := 0
  running := []
  committed := []

/-- The hash of an outcome is what it says. -/
def contentHash (outcome : SourceRecordOutcome) : JsString := outcome.content

/-- What the database answers: the run that is there, whether an outcome is new, and the states. -/
def reply (run : Option RunRow) (created : Bool) (states : List OutcomeState) :
    (query : Query) → Answer query
  | .verifyFence _ => true
  | .insertRun _ => some (1 : ℕ)
  | .selectRun _ => none
  | .lockRun _ => run
  | .insertOutcome _ _ => created
  | .selectOutcomeHash _ _ _ => some (js "milk")
  | .selectStates _ => states
  | .updateRun _ _ => ()
  | .statement => true

/-- A catalog run of a source. -/
def milkHandle : RunHandle := ⟨1, js "job", js "catalog", js "kassalapp"⟩

/-- The row of that run while it is running. -/
def milkRun : RunRow where
  jobId := js "job"
  runType := js "catalog"
  sourceId := js "kassalapp"
  startedAt := 10
  completedAt := none
  errorClass := none
  counts := reconstructIngestionRunCounters [] 0
  status := .running

/-- An outcome of milk. -/
def milkOutcome (sourceRecordId : JsString) (outcomeState : OutcomeState) : SourceRecordOutcome where
  recordKind := js "product"
  sourceRecordId := sourceRecordId
  outcomeState := outcomeState
  reason := none
  content := js "milk"

/-- The finalization of that run. -/
def milkInput : FinalizeInput := ⟨20, none, 0, .completed⟩

/-- One worker audits two outcomes while another one finalizes the run, and has to wait for it. Then
the first worker writes an outcome again. -/
def finalizesMilk : List (Step ℕ Call Query Answer) :=
  .begins 1 (.begin (js "job") (js "catalog") (js "kassalapp") 10) ::
    List.replicate 4 (.proceeds 1 (reply none true [])) ++
    .begins 1 (.audit milkHandle [milkOutcome (js "1") .accepted, milkOutcome (js "2") .unknown]) ::
    List.replicate 3 (.proceeds 1 (reply (some milkRun) true [])) ++
    .begins 2 (.finalize milkHandle milkInput) :: .proceeds 2 (reply none true []) ::
    List.replicate 3 (.proceeds 1 (reply (some milkRun) true [])) ++
    List.replicate 5 (.proceeds 2 (reply (some milkRun) true [.unknown, .accepted])) ++
    .begins 1 (.audit milkHandle [milkOutcome (js "3") .accepted]) ::
    List.replicate 3 (.proceeds 1
      (reply (some (finalizedRow milkRun milkInput [.unknown, .accepted])) true []))

/-- That run is completed with two outcomes, one of them accepted. -/
theorem terminalRuns_account_finalizesMilk :
    ∃ st, (database contentHash).system.run emptyState finalizesMilk = some st ∧
      ∃ run, run.status = .terminal .completed ∧ run.counts.accepted = 1 ∧ run.counts.fetched = 2 ∧
        currentRun (CommittedWrites st.committed) 1 = some run ∧
        CountsOutcomes run.counts (outcomesOf (CommittedWrites st.committed) 1) ∧
        ∀ e st', (database contentHash).system.step st e = some st' →
          currentRun (CommittedWrites st'.committed) 1 = some run ∧
            outcomesOf (CommittedWrites st'.committed) 1 =
              outcomesOf (CommittedWrites st.committed) 1 := by
  have hrun : ((database contentHash).system.run emptyState finalizesMilk).map (fun st =>
      currentRun (CommittedWrites st.committed) 1) =
        some (some (finalizedRow milkRun milkInput [.unknown, .accepted])) := by decide +kernel
  obtain ⟨st, hst, hcurrent⟩ := Option.map_eq_some_iff.mp hrun
  have hinit : (database contentHash).system.Reachable (fun _ _ => True) emptyState :=
    .init ⟨rfl, rfl⟩
  exact ⟨st, hst, _, rfl, rfl, rfl, hcurrent,
    terminalRuns_account (hinit.run hst) 1 _ .completed hcurrent rfl⟩

end Handleplan.IngestionRuns
