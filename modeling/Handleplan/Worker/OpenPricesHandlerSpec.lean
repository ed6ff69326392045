import Handleplan.Worker.OpenPricesHandler

/-!
# What the Open Prices handler leaves behind

The error path of the handler finalizes the run with the signal of the job, and each transaction
looks at that signal: a run whose job is cancelled before the run is finalized stays as it is. So
does a run whose completion is after the clock of the database.

## Main definitions

* `OpenPricesHandler.Facts` — what the queries and their answers tell about the run.
* `OpenPricesHandler.Relied` — a database that is reachable, a lease that is held and a
  signal that stays aborted.
* `OpenPricesHandler.Facts.Ended` — a run that is begun is terminal.
* `OpenPricesHandler.Facts.Finalizable` — when it becomes terminal.

## Main results

* `OpenPricesHandler.ended_benchmarkRefresh_iff` — when the handler has returned or
  thrown, the run that it began is terminal just when it was so from the start, or the signal was
  never seen aborted and the clock read last was neither before the start of the run nor after the
  clock of the database.
-/

namespace Handleplan.OpenPricesHandler

open Interaction JsString OpenPrices
open IngestionRuns (RunRow RunHandle FinalizeInput TerminalStatus RunStatus OutcomeState
  IngestionRunCounters reconstructIngestionRunCounters finalizedRow)

/-! ### What is known of the run -/

/-- What the events tell about the run. -/
structure Facts where
  /-- The row of the run when it is begun. -/
  begun : Option RunRow
  /-- The row of the run that is committed. -/
  row : Option RunRow
  /-- The row that a transaction leaves when it commits. -/
  pending : Option RunRow
  /-- The time that the clock read last, if it was valid. -/
  clock : Option ℤ
  /-- The clock of the database when a run was updated last. -/
  databaseClock : Option ℤ
  /-- The signal was seen aborted. -/
  aborted : Bool

namespace Facts

/-- Before the first query. -/
def initial : Facts := ⟨none, none, none, none, none, false⟩

/-- A transaction commits. -/
def commit (facts : Facts) : Facts :=
  { facts with
    begun := facts.begun.or facts.pending
    row := facts.pending.or facts.row
    pending := none }

/-- What is known after an event. -/
def observe (facts : Facts) : Event Query Answer → Facts
  | ⟨.aborted, aborted⟩ => { facts with aborted := facts.aborted || aborted }
  | ⟨.now, value⟩ => { facts with clock := value }
  | ⟨.startTransaction, _⟩ => { facts with pending := none }
  | ⟨.insertRun run, inserted⟩ =>
    { facts with pending := if Option.isSome inserted then some run else facts.pending }
  | ⟨.selectRun _, found⟩ => { facts with pending := Option.map Prod.snd found }
  | ⟨.updateRun _ run, terminalTime⟩ =>
    { facts with pending := some run, databaseClock := some terminalTime }
  | ⟨.commit, _⟩ => facts.commit
  | _ => facts

/-- The run, if there is one, is terminal. -/
def Ended (facts : Facts) : Prop := ∀ run ∈ facts.row, run.status ≠ .running

/-- The run, if there is one, was terminal when it was begun, or the signal was not seen aborted and
the clock read last was not before the start of the run, nor after the clock of the database when
the run was updated. -/
def Finalizable (facts : Facts) : Prop :=
  ∀ run ∈ facts.begun, run.status ≠ .running ∨
    facts.aborted = false ∧ ∃ time ∈ facts.clock, run.startedAt ≤ time ∧
      ∀ now ∈ facts.databaseClock, time * 1000 ≤ now

end Facts

/-- What is known after a history. -/
def factsOf (history : History Query Answer) : Facts := history.foldl Facts.observe .initial

/-- The answers that are relied on: **an aborted signal stays aborted**, the fence is current, a run
that is found belongs to the job that was asked for, and the row that is locked is the one that is
committed. -/
def Relied (facts : Facts) : Event Query Answer → Prop
  | ⟨.aborted, aborted⟩ => facts.aborted = true → aborted = true
  | ⟨.verifyFence _, isCurrent⟩ => isCurrent = true
  | ⟨.selectRun jobId, found⟩ => ∀ run, Option.map Prod.snd found = some run → run.jobId = jobId
  | ⟨.lockRun _, found⟩ => found = facts.row
  | _ => True

/-- How a program of the handler ends. -/
abbrev Ends {α : Type} (post : Facts → α → Prop) (raised : Facts → HandlerError → Prop) :
    Facts → HandlerProg α → Prop :=
  Prog.Ensures Facts.observe Relied post raised

variable {facts facts' : Facts}

/-! ### One query -/

/-- A look at the signal goes on where it is not aborted. -/
theorem ends_throwIf (error : HandlerError) {program : HandlerProg Unit}
    (hprogram : program = (do
      let aborted : Bool ← ask .aborted
      Prog.require (aborted = false) error)) :
    Ends (fun after _ => after = facts ∧ facts.aborted = false)
      (fun after _ => after = { facts with aborted := true }) facts program := by
  rw [hprogram]
  refine Prog.Ensures.bind (Prog.Ensures.query fun (aborted : Bool) hrely => ?_)
  refine Prog.Ensures.require (fun hgo => ?_) fun hstop => ?_
  · subst hgo
    have hnot : facts.aborted = false := by
      cases h : facts.aborted with
      | false => rfl
      | true => cases hrely h
    exact ⟨by simp [Facts.observe], hnot⟩
  · rw [Bool.not_eq_false] at hstop
    subst hstop
    simp [Facts.observe]

theorem ends_throwIfCancelled :
    Ends (fun after _ => after = facts ∧ facts.aborted = false)
      (fun after _ => after = { facts with aborted := true }) facts throwIfCancelled :=
  ends_throwIf .workerCancelled rfl

theorem ends_throwIfIngestionCancelled :
    Ends (fun after _ => after = facts ∧ facts.aborted = false)
      (fun after _ => after = { facts with aborted := true }) facts throwIfIngestionCancelled :=
  ends_throwIf .other rfl

theorem ends_verifyFence (beforeCommit : Bool) :
    Ends (fun after _ => after = facts) (fun _ _ => False) facts (verifyFence beforeCommit) :=
  Prog.Ensures.bind (Prog.Ensures.query fun (_ : Bool) hrely =>
    Prog.Ensures.require (fun _ => rfl) fun hstop => hstop hrely)

theorem ends_checkedNow :
    Ends (fun after (time : ℤ) => after = { facts with clock := some time })
      (fun after _ => after = { facts with clock := none }) facts checkedNow := by
  refine Prog.Ensures.bind (Prog.Ensures.query fun (value : Option ℤ) _ => ?_)
  refine Prog.Ensures.orFail (fun time htime => ?_) fun hnone => ?_
  · subst htime
    rfl
  · subst hnone
    rfl

theorem ends_requireAccessApproved :
    Ends (fun after _ => after = facts) (fun after _ => after = facts) facts
      requireAccessApproved := by
  refine Prog.Ensures.bind (Prog.Ensures.query fun (answered : Option Bool) _ => ?_)
  refine Prog.Ensures.bind (Prog.Ensures.orFail (fun approved _ => ?_) fun _ => rfl)
  exact Prog.Ensures.require (fun _ => rfl) fun _ => rfl

/-! ### Transactions -/

/-- Nothing is committed, and the clock is not read. -/
structure Quiet (before after : Facts) : Prop where
  begun : after.begun = before.begun
  row : after.row = before.row
  clock : after.clock = before.clock

/-- **A transaction.** Where it returns, its callback has returned and the signal was not seen
aborted; where it fails, nothing is committed, and the signal is aborted or the callback has
failed. -/
theorem ends_fencedTransaction {α : Type} {callback : HandlerProg α} (post : Facts → α → Prop)
    (raised : Facts → Prop)
    (hcallback : Ends (fun after a => Quiet facts after ∧ post after a)
      (fun after _ => Quiet facts after ∧ raised after) { facts with pending := none } callback) :
    Ends (fun after a => ∃ last, Quiet facts last ∧ post last a ∧ last.aborted = false ∧
        after = last.commit)
      (fun after _ => Quiet facts after ∧ (after.aborted = true ∨ raised after)) facts
      (fencedTransaction callback) := by
  unfold fencedTransaction
  refine Prog.Ensures.bind (ends_throwIfIngestionCancelled.mono ?_ ?_)
  · rintro _ - ⟨rfl, -⟩
    refine Prog.Ensures.bind (Prog.Ensures.query fun (_ : Unit) _ => ?_)
    refine Prog.Ensures.bind ((ends_verifyFence false).mono ?_ fun _ _ => False.elim)
    rintro _ - rfl
    refine Prog.Ensures.bind (ends_throwIfIngestionCancelled.mono ?_ ?_)
    · rintro _ - ⟨rfl, -⟩
      refine Prog.Ensures.bind (hcallback.mono ?_ fun after _ h => ⟨h.1, Or.inr h.2⟩)
      rintro last a ⟨hquiet, hpost⟩
      refine Prog.Ensures.bind (ends_throwIfIngestionCancelled.mono ?_ ?_)
      · rintro _ - ⟨rfl, hnot⟩
        refine Prog.Ensures.bind ((ends_verifyFence true).mono ?_ fun _ _ => False.elim)
        rintro _ - rfl
        refine Prog.Ensures.bind (Prog.Ensures.query fun (_ : Unit) _ => ?_)
        exact ⟨_, hquiet, hpost, hnot, rfl⟩
      · rintro _ - rfl
        exact ⟨⟨hquiet.begun, hquiet.row, hquiet.clock⟩, Or.inl rfl⟩
    · rintro _ - rfl
      exact ⟨⟨rfl, rfl, rfl⟩, Or.inl rfl⟩
  · rintro _ - rfl
    exact ⟨⟨rfl, rfl, rfl⟩, Or.inl rfl⟩

/-- A run is begun and is as it was then. -/
structure Begun (handle : RunHandle) (start : RunRow) (facts : Facts) : Prop where
  begun : facts.begun = some start
  row : facts.row = some start
  jobId : start.jobId = handle.jobId
  sourceId : start.sourceId = handle.sourceId
  runType : start.runType = handle.runType

variable {handle : RunHandle} {start : RunRow}

section

variable (hbegun : Begun handle start facts)

include hbegun

theorem Begun.of_eq (heq : facts'.begun = facts.begun)
    (hrow : facts'.row = facts.row) : Begun handle start facts' :=
  ⟨heq.trans hbegun.begun, hrow.trans hbegun.row, hbegun.jobId, hbegun.sourceId, hbegun.runType⟩

theorem Begun.of_quiet (hquiet : Quiet facts facts') :
    Begun handle start facts' :=
  hbegun.of_eq hquiet.begun hquiet.row

/-- The run that was begun is the one that is locked. -/
theorem Begun.ends_lockRun :
    Ends (fun after run => after = facts ∧ run = start) (fun _ _ => False) facts
      (lockRun handle) := by
  refine Prog.Ensures.bind (Prog.Ensures.query fun (found : Option RunRow) hrely => ?_)
  obtain rfl : found = some start := hrely.trans hbegun.row
  refine Prog.Ensures.bind (Prog.Ensures.orFail (fun run hrun => ?_) fun hnone => by cases hnone)
  cases hrun
  exact Prog.Ensures.bind (Prog.Ensures.require (fun _ => ⟨rfl, rfl⟩)
    fun hstop => hstop ⟨hbegun.jobId, hbegun.sourceId, hbegun.runType⟩)

/-- **Outcomes that are persisted leave the run as it is.** -/
theorem Begun.ends_persistPriceOutcomes (outcomes : List Outcome) :
    Ends (fun after _ => Begun handle start after) (fun after _ => Begun handle start after) facts
      (persistPriceOutcomes handle outcomes) := by
  refine (ends_fencedTransaction (fun last _ => last.pending = none) (fun _ => True) ?_).mono ?_
    fun after _ h => hbegun.of_quiet h.1
  · have hstarted : Begun handle start { facts with pending := none } :=
      hbegun.of_eq rfl rfl
    refine Prog.Ensures.bind (hstarted.ends_lockRun.mono ?_ fun _ _ => False.elim)
    rintro _ run ⟨rfl, rfl⟩
    refine Prog.Ensures.bind (Prog.Ensures.require (fun _ => ?_) fun _ => ⟨⟨rfl, rfl, rfl⟩, trivial⟩)
    refine Prog.Ensures.bind (Prog.Ensures.query fun (isDone : Bool) _ => ?_)
    exact Prog.Ensures.require (fun _ => ⟨⟨rfl, rfl, rfl⟩, rfl⟩) fun _ => ⟨⟨rfl, rfl, rfl⟩, trivial⟩
  · rintro _ _ ⟨last, hquiet, hpending, -, rfl⟩
    have hlast := hbegun.of_quiet hquiet
    refine ⟨?_, ?_, hbegun.jobId, hbegun.sourceId, hbegun.runType⟩
    · simp [Facts.commit, hlast.begun]
    · simp [Facts.commit, hpending, hlast.row]

/-- How the transaction that finalizes a run ends: the run was terminal, or its row is to be
replaced; it fails where the run was terminal, or is finalized before its start or after the clock of
the database. -/
theorem Begun.ends_finalizeRunWithin (input : FinalizeInput) :
    Ends (fun after _ => Quiet facts after ∧
        (start.status ≠ .running ∧ after.pending = none ∨
          start.startedAt ≤ input.completedAt ∧
            (∀ now ∈ after.databaseClock, input.completedAt * 1000 ≤ now) ∧
            ∃ states, after.pending = some (finalizedRow start input states)))
      (fun after _ => Quiet facts after ∧ (start.status = .running →
        input.completedAt < start.startedAt ∨
          ∃ now ∈ after.databaseClock, now < input.completedAt * 1000))
      { facts with pending := none } (finalizeRunWithin handle input) := by
  have hstarted : Begun handle start { facts with pending := none } :=
    hbegun.of_eq rfl rfl
  refine Prog.Ensures.bind (hstarted.ends_lockRun.mono ?_ fun _ _ => False.elim)
  rintro _ run ⟨rfl, rfl⟩
  cases hstatus : run.status with
  | terminal status =>
    refine Prog.Ensures.bind (Prog.Ensures.require (fun _ => ?_) fun _ => ?_)
    · exact ⟨⟨rfl, rfl, rfl⟩, Or.inl ⟨RunStatus.noConfusion, rfl⟩⟩
    · exact ⟨⟨rfl, rfl, rfl⟩, RunStatus.noConfusion⟩
  | running =>
    refine Prog.Ensures.bind (Prog.Ensures.require (fun hle => ?_) fun hlt => ?_)
    · refine Prog.Ensures.bind (Prog.Ensures.query fun (states : List OutcomeState) _ => ?_)
      refine Prog.Ensures.bind (Prog.Ensures.query fun (terminalTime : ℤ) _ => ?_)
      refine Prog.Ensures.bind (Prog.Ensures.require (fun hpast => ?_) fun hfuture => ?_)
      · refine ⟨⟨rfl, rfl, rfl⟩, Or.inr ⟨hle, fun now hnow => ?_, states, rfl⟩⟩
        exact Option.some.inj hnow ▸ hpast
      · exact ⟨⟨rfl, rfl, rfl⟩, fun _ => Or.inr ⟨terminalTime, rfl, not_le.mp hfuture⟩⟩
    · exact ⟨⟨rfl, rfl, rfl⟩, fun _ => Or.inl (not_le.mp hlt)⟩

/-- **A run that is finalized** is terminal at the end. Where finalizing fails, it stays as it was:
then it was terminal, or the signal is aborted, or the time is before its start or after the clock
of the database. -/
theorem Begun.ends_finalizeRun {input : FinalizeInput}
    (hinput : input.status = .completed → input.failed = 0)
    (hclock : facts.clock = some input.completedAt) :
    Ends (fun after _ => after.Ended ∧ after.Finalizable)
      (fun after _ => Begun handle start after ∧ (after.Ended ↔ after.Finalizable)) facts
      (finalizeRun handle input) := by
  refine Prog.Ensures.bind (Prog.Ensures.require (fun _ => ?_) fun hstop => absurd hinput hstop)
  refine (ends_fencedTransaction _ _ (hbegun.ends_finalizeRunWithin input)).mono ?_ ?_
  · rintro _ _ ⟨last, hquiet, hpost, hnot, rfl⟩
    have hlast := hbegun.of_quiet hquiet
    have hbegan : last.commit.begun = some start := by simp [Facts.commit, hlast.begun]
    obtain ⟨hterminal, hpending⟩ | ⟨hle, hpast, states, hpending⟩ := hpost
    · refine ⟨fun run hrun => ?_, fun run hrun => Or.inl ?_⟩
      · obtain rfl : start = run := by simpa [Facts.commit, hpending, hlast.row] using hrun
        exact hterminal
      · obtain rfl : start = run := Option.some.inj (hbegan.symm.trans hrun)
        exact hterminal
    · refine ⟨fun run hrun => ?_, fun run hrun => Or.inr ⟨hnot, input.completedAt, ?_, ?_, hpast⟩⟩
      · obtain rfl : finalizedRow start input states = run := by
          simpa [Facts.commit, hpending] using hrun
        exact RunStatus.noConfusion
      · exact hquiet.clock.trans hclock
      · obtain rfl : start = run := Option.some.inj (hbegan.symm.trans hrun)
        exact hle
  · rintro after _ ⟨hquiet, hcause⟩
    have hafter := hbegun.of_quiet hquiet
    refine ⟨hafter, ?_⟩
    have hended : after.Ended ↔ start.status ≠ .running := by simp [Facts.Ended, hafter.row]
    rw [hended]
    simp only [Facts.Finalizable, hafter.begun, Option.mem_def, Option.some.injEq, forall_eq',
      hquiet.clock, hclock]
    refine ⟨Or.inl, fun h hrunning => ?_⟩
    obtain ⟨hnot, time, rfl, hle, hpast⟩ := h.resolve_left fun hterminal => hterminal hrunning
    obtain haborted | hrefused := hcause
    · exact Bool.false_ne_true (hnot.symm.trans haborted)
    · obtain hlt | ⟨now, hnow, hlt⟩ := hrefused hrunning
      · exact absurd hle (not_le.mpr hlt)
      · exact absurd (hpast now hnow) (not_le.mpr hlt)

end

/-! ### The handler -/

/-- How a run that is begun is left. -/
def Left (facts : Facts) : Prop := facts.Ended ↔ facts.Finalizable

theorem Begun.ends_persistBatches (batches : List (List Outcome))
    (hbegun : Begun handle start facts) :
    Ends (fun after _ => Begun handle start after) (fun after _ => Begun handle start after) facts
      (persistBatches handle batches) := by
  induction batches generalizing facts with
  | nil => exact hbegun
  | cons batch batches ih =>
    refine Prog.Ensures.bind (ends_throwIfCancelled.mono ?_ ?_)
    · rintro _ - ⟨rfl, -⟩
      exact Prog.Ensures.bind ((hbegun.ends_persistPriceOutcomes batch).mono (fun _ _ => ih)
        fun _ _ h => h)
    · rintro _ - rfl
      exact hbegun.of_eq rfl rfl

section Runtime

variable (toLowerCase : JsString → JsString) (dateOf : Option Json → Option ℤ)

/-- The `try` block ends with the run terminal, or leaves the run as it was. -/
theorem Begun.ends_attempt (hbegun : Begun handle start facts) (gtins : List JsString) :
    Ends (fun after _ => Left after) (fun after _ => Begun handle start after) facts
      (attempt toLowerCase dateOf handle gtins) := by
  have hstopped : ∀ after : Facts, after = { facts with aborted := true } →
      Begun handle start after := by
    rintro _ rfl
    exact hbegun.of_eq rfl rfl
  refine Prog.Ensures.bind (ends_throwIfCancelled.mono ?_ fun after _ => hstopped after)
  rintro _ - ⟨rfl, -⟩
  refine Prog.Ensures.bind (ends_requireAccessApproved.mono ?_ ?_)
  · rintro _ - rfl
    refine Prog.Ensures.bind (Prog.Ensures.query fun (fetched : Option (List Json)) _ => ?_)
    refine Prog.Ensures.bind (Prog.Ensures.orFail (fun prices _ => ?_) fun _ => hbegun)
    refine Prog.Ensures.bind (ends_throwIfCancelled.mono ?_ fun after _ => hstopped after)
    rintro before - ⟨rfl, -⟩
    refine Prog.Ensures.bind (ends_checkedNow.mono ?_ ?_)
    · rintro _ fetchedAt rfl
      have hread : Begun handle start { before with clock := some fetchedAt } :=
        hbegun.of_eq rfl rfl
      refine Prog.Ensures.bind (Prog.Ensures.orFail (fun outcomes _ => ?_) fun _ => hread)
      refine Prog.Ensures.bind ((hread.ends_persistBatches _).mono ?_ fun _ _ h => h)
      intro after _ hafter
      refine Prog.Ensures.bind (ends_checkedNow.mono ?_ ?_)
      · rintro _ completedAt rfl
        have hcompleted : Begun handle start { after with clock := some completedAt } :=
          hafter.of_eq rfl rfl
        refine Prog.Ensures.bind (ends_throwIfCancelled.mono ?_ ?_)
        · rintro _ - ⟨rfl, -⟩
          refine Prog.Ensures.bind ((hcompleted.ends_finalizeRun ?_ rfl).mono ?_ ?_)
          · exact fun _ => rfl
          · exact fun last _ h => iff_of_true h.1 h.2
          · exact fun last _ h => h.1
        · rintro _ - rfl
          exact hcompleted.of_eq rfl rfl
      · rintro _ - rfl
        exact hafter.of_eq rfl rfl
    · rintro _ - rfl
      exact hbegun.of_eq rfl rfl
  · rintro _ - rfl
    exact hbegun

end Runtime

theorem failed_rescueInput (cancelled : Bool) (error : HandlerError) (completedAt : ℤ) :
    (rescueInput cancelled error completedAt).status = .completed →
      (rescueInput cancelled error completedAt).failed = 0 := by
  unfold rescueInput
  split_ifs <;> simp

theorem completedAt_rescueInput (cancelled : Bool) (error : HandlerError) (completedAt : ℤ) :
    (rescueInput cancelled error completedAt).completedAt = completedAt := by
  unfold rescueInput
  split_ifs <;> rfl

/-- A run that is as it was when it was begun, and for which the clock has no valid time. -/
theorem Begun.left_of_clock_eq_none (hbegun : Begun handle start facts)
    (hclock : facts.clock = none) : Left facts := by
  simp [Left, Facts.Ended, Facts.Finalizable, hbegun.row, hbegun.begun, hclock]

/-- The `catch` block finalizes the run, or throws. -/
theorem Begun.ends_finalizeAfter (hbegun : Begun handle start facts) (error : HandlerError) :
    Ends (fun after _ => Left after) (fun after _ => Left after) facts
      (finalizeAfter handle error) := by
  refine Prog.Ensures.bind (Prog.Ensures.query fun (aborted : Bool) _ => ?_)
  refine Prog.Ensures.rescue ?_ fun (after : Facts) _ (h : Left after) => h
  refine Prog.Ensures.bind (ends_checkedNow.mono ?_ ?_)
  · rintro _ completedAt rfl
    have hread : Begun handle start
        { facts.observe ⟨.aborted, aborted⟩ with clock := some completedAt } := hbegun.of_eq rfl rfl
    refine Prog.Ensures.bind ((hread.ends_finalizeRun
      (failed_rescueInput aborted error completedAt) ?_).mono ?_ ?_)
    · rw [completedAt_rescueInput]
    · exact fun last _ h => iff_of_true h.1 h.2
    · exact fun last _ h => h.2
  · rintro _ - rfl
    have hread : Begun handle start { facts.observe ⟨.aborted, aborted⟩ with clock := none } :=
      hbegun.of_eq rfl rfl
    exact hread.left_of_clock_eq_none rfl

/-- No run is begun. -/
def Fresh (facts : Facts) : Prop := facts.begun = none ∧ facts.row = none

theorem Fresh.left (hfresh : Fresh facts) : Left facts := by
  simp [Left, Facts.Ended, Facts.Finalizable, hfresh.1, hfresh.2]

/-- **A run that is begun** is the one of the job, as it is found. -/
theorem Fresh.ends_beginRun (hfresh : Fresh facts) (job : Job) (startedAt : ℤ) :
    Ends (fun after handle => ∃ start, Begun handle start after) (fun after _ => Fresh after) facts
      (beginRun job startedAt) := by
  refine (ends_fencedTransaction (fun last handle => ∃ start : RunRow,
    last.pending = some start ∧ start.jobId = handle.jobId ∧ start.sourceId = handle.sourceId ∧
      start.runType = handle.runType) (fun _ => True) ?_).mono ?_ ?_
  · refine Prog.Ensures.bind (Prog.Ensures.query fun (inserted : Option ℕ) _ => ?_)
    cases inserted with
    | some id => exact ⟨⟨rfl, rfl, rfl⟩, job.row startedAt, rfl, rfl, rfl, rfl⟩
    | none =>
      refine Prog.Ensures.bind (Prog.Ensures.query fun (found : Option (ℕ × RunRow)) hrely => ?_)
      refine Prog.Ensures.bind (Prog.Ensures.orFail (fun existing hfound => ?_) fun _ => ?_)
      · subst hfound
        refine Prog.Ensures.bind (Prog.Ensures.require (fun hsame => ?_) fun _ => ?_)
        · exact ⟨⟨rfl, rfl, rfl⟩, existing.2, rfl, hrely _ rfl, hsame.1, hsame.2⟩
        · exact ⟨⟨rfl, rfl, rfl⟩, trivial⟩
      · exact ⟨⟨rfl, rfl, rfl⟩, trivial⟩
  · rintro _ handle ⟨last, hquiet, ⟨start, hpending, hjob, hsource, htype⟩, -, rfl⟩
    refine ⟨start, ?_, ?_, hjob, hsource, htype⟩
    · simp [Facts.commit, hquiet.begun, hfresh.1, hpending]
    · simp [Facts.commit, hpending]
  · exact fun after _ h => ⟨h.1.begun.trans hfresh.1, h.1.row.trans hfresh.2⟩

section Runtime

variable (toLowerCase : JsString → JsString) (dateOf : Option Json → Option ℤ)

/-- **How the handler leaves the run that it begins.** -/
theorem ends_benchmarkRefresh (job : Job) (hfresh : Fresh facts) :
    Ends (fun after _ => Left after) (fun after _ => Left after) facts
      (benchmarkRefresh toLowerCase dateOf job) := by
  refine Prog.Ensures.bind (ends_requireAccessApproved.mono ?_ ?_)
  · rintro before - rfl
    refine Prog.Ensures.bind (Prog.Ensures.query fun (answered : Option (List JsString)) _ => ?_)
    refine Prog.Ensures.bind (Prog.Ensures.orFail (fun gtins _ => ?_) fun _ => hfresh.left)
    cases gtins with
    | nil => exact hfresh.left
    | cons gtin gtins =>
      refine Prog.Ensures.bind (ends_checkedNow.mono ?_ ?_)
      · rintro _ startedAt rfl
        have hread : Fresh { before with clock := some startedAt } := hfresh
        refine Prog.Ensures.bind ((hread.ends_beginRun job startedAt).mono ?_
          fun _ _ h => h.left)
        rintro after handle ⟨start, hbegun⟩
        exact Prog.Ensures.rescue (hbegun.ends_attempt toLowerCase dateOf _)
          fun _ error h => h.ends_finalizeAfter error
      · rintro _ - rfl
        exact Fresh.left hfresh
  · rintro _ - rfl
    exact hfresh.left

/-- **When the handler has returned or thrown, the run that it began is terminal** just when it was
terminal from the start, or the signal was never seen aborted and the clock read last was neither
before the start of the run nor after the clock of the database.

**Proof sketch.** A transaction that sees the signal aborted does not commit, and an aborted signal
stays aborted: once it is seen, neither of the two calls that finalize the run commits. Where it is
never seen, a failed attempt leaves the run as it was begun, and finalizing it fails only because it
is terminal, or because the clock is before its start or after that of the database. -/
theorem ended_benchmarkRefresh_iff (job : Job)
    (environment : History Query Answer → (query : Query) → Answer query)
    (hrely : ∀ history query, Relied (factsOf history) ⟨query, environment history query⟩) :
    let facts := factsOf ((benchmarkRefresh toLowerCase dateOf job).run environment []).1
    facts.Ended ↔ facts.Finalizable := by
  have hends : Ends (fun after _ => Left after) (fun after _ => Left after) (factsOf [])
      (benchmarkRefresh toLowerCase dateOf job) :=
    ends_benchmarkRefresh toLowerCase dateOf job ⟨rfl, rfl⟩
  have hrun := Prog.Ensures.of_run hends hrely
  unfold Prog.Ended at hrun
  split at hrun
  · exact hrun
  · exact hrun

end Runtime

namespace Example

/-- The job of the example. -/
def job : Job := { jobId := js "open-prices:1" }

/-- An environment with one target and no prices, whose signal is aborted or not as soon as the run
is begun. -/
def environment (cancelled : Bool) (history : History Query Answer) :
    (query : Query) → Answer query
  | .aborted => (factsOf history).aborted || (cancelled && (factsOf history).begun.isSome)
  | .now => some 1000
  | .accessState => some true
  | .benchmarkPriceTargets => some [js "7038010000218"]
  | .pricesForGtins _ => some []
  | .startTransaction => ()
  | .verifyFence _ => true
  | .insertRun _ => some 1
  | .selectRun _ => none
  | .lockRun _ => (factsOf history).row
  | .persistPrices _ _ => true
  | .selectStates _ => []
  | .updateRun _ _ => (1000000 : ℤ)
  | .commit => ()

theorem relied_environment (cancelled : Bool) (history : History Query Answer) (query : Query) :
    Relied (factsOf history) ⟨query, environment cancelled history query⟩ := by
  cases query with
  | aborted => exact fun h => (Bool.or_eq_true _ _).mpr (Or.inl h)
  | verifyFence beforeCommit => exact rfl
  | lockRun id => exact rfl
  | selectRun jobId => exact fun run h => by cases h
  | _ => trivial

/-- What is known at the end. -/
def lastFacts (cancelled : Bool) : Facts :=
  factsOf ((benchmarkRefresh id (fun _ => none) job).run (environment cancelled) []).1

end Example

open Example in
/-- A run without a cancellation is completed. -/
theorem ended_benchmarkRefresh_iff_uncancelled :
    (lastFacts false).begun = some (job.row 1000) ∧ (lastFacts false).Ended :=
  ⟨rfl, (ended_benchmarkRefresh_iff id (fun _ => none) job (environment false)
    (relied_environment false)).mpr fun run hrun => Or.inr ⟨rfl, 1000, rfl, by
      obtain rfl : job.row 1000 = run := Option.some.inj hrun
      exact le_rfl, fun now hnow => by
      obtain rfl : 1000000 = now := Option.some.inj hnow
      decide⟩⟩

open Example in
/-- **A run whose job is cancelled after it is begun stays running**: the transaction that would
finalize it in the error path looks at the same signal. -/
theorem not_ended_benchmarkRefresh_cancelled :
    ¬ ∀ (toLowerCase : JsString → JsString) (dateOf : Option Json → Option ℤ) (job : Job)
        (environment : History Query Answer → (query : Query) → Answer query),
        (∀ history query, Relied (factsOf history) ⟨query, environment history query⟩) →
          (factsOf ((benchmarkRefresh toLowerCase dateOf job).run environment []).1).Ended := by
  intro hall
  have hrow : (lastFacts true).row = some (job.row 1000) := rfl
  exact hall id (fun _ => none) job (environment true) (relied_environment true) _ hrow rfl

end Handleplan.OpenPricesHandler
