import Handleplan.Worker.RuntimeSpec

/-!
# Shutdown of a worker process

A process that has been asked to stop drains and ends stopped or fatal; a fatal process stays fatal.

## Main definitions

* `Workers.Worker.Sound` — what holds of every process on its own.
* `Workers.Proceeds` — a cycle goes on to another operation, or it settles.

## Main results

* `Workers.sound_act` — every step of a process keeps it sound.
* `Workers.movesOn_act` — how the status of a process changes after it has been asked to
  stop.
-/

namespace Handleplan.Workers

open JsString

variable {w w' : Worker} {store store' : Store} {leases : List WorkerLeaseHandle}

/-! ### Shutdown -/

/-- What holds of every process on its own. -/
structure Worker.Sound (w : Worker) : Prop where
  exit : w.exitCode = if w.status = .fatal then 1 else 0
  aborts : w.shutdown ≠ none → w.aborted = true
  drains : w.shutdown ≠ none → w.status = .draining ∨ w.status = .stopped ∨ w.status = .fatal
  asked : w.status = .draining ∨ w.status = .stopped → w.shutdown ≠ none
  fatal : w.status = .fatal → w.aborted = true
  pending : w.shutdown = some .pending → w.status = .draining
  stopped : w.status = .stopped → w.activeCycle = none
  idle : w.supervision ≠ .cycling → w.activeCycle = none
  exited : ∀ code, w.supervision = .exited code →
    w.shutdown = some .settled ∧ (code = 0 → w.status ≠ .fatal)

theorem sound_fresh (schedules : List WorkerScheduleDefinition) :
    (Worker.fresh schedules).Sound := by
  constructor <;> simp [Worker.fresh]

/-- The state of a process after it has been asked to stop. -/
theorem requestShutdown_cases (hw : w.Sound) :
    (w.shutdown ≠ none ∧ w.requestShutdown = w) ∨
    (w.shutdown = none ∧ w.status = .fatal ∧
      w.requestShutdown = { w with shutdown := some .settled }) ∨
    (w.shutdown = none ∧ w.status ≠ .fatal ∧ w.activeCycle = none ∧
      w.requestShutdown =
        { w with aborted := true, shutdown := some .settled, status := .stopped }) ∨
    (w.shutdown = none ∧ w.status ≠ .fatal ∧ w.activeCycle ≠ none ∧
      w.requestShutdown =
        { w with aborted := true, shutdown := some .pending, status := .draining }) := by
  have hstopped : w.shutdown = none → w.status ≠ .stopped :=
    fun hnone h => hw.asked (.inr h) hnone
  unfold Worker.requestShutdown
  by_cases hnone : w.shutdown = none
  · rw [if_neg (not_not.mpr hnone)]
    by_cases hfatal : w.status = .fatal
    · rw [if_pos (.inl hfatal)]
      exact .inr (.inl ⟨hnone, hfatal, rfl⟩)
    · rw [if_neg (not_or.mpr ⟨hfatal, hstopped hnone⟩)]
      by_cases hcycle : w.activeCycle = none
      · rw [if_pos hcycle]
        exact .inr (.inr (.inl ⟨hnone, hfatal, hcycle, rfl⟩))
      · rw [if_neg hcycle]
        exact .inr (.inr (.inr ⟨hnone, hfatal, hcycle, rfl⟩))
  · rw [if_pos hnone]
    exact .inl ⟨hnone, rfl⟩

theorem sound_requestShutdown (hw : w.Sound) : w.requestShutdown.Sound := by
  obtain ⟨hexit, haborts, hdrains, hasked, hfatal, hpending, hstopped, hidle, hexited⟩ := hw
  obtain ⟨-, heq⟩ | ⟨hnone, hstatus, heq⟩ | ⟨hnone, hstatus, hcycle, heq⟩ |
      ⟨hnone, hstatus, hcycle, heq⟩ := requestShutdown_cases
    ⟨hexit, haborts, hdrains, hasked, hfatal, hpending, hstopped, hidle, hexited⟩
  · rw [heq]
    exact ⟨hexit, haborts, hdrains, hasked, hfatal, hpending, hstopped, hidle, hexited⟩
  · rw [heq]
    constructor <;> simp_all
  · rw [heq]
    constructor <;> simp_all
  · rw [heq]
    constructor <;> simp_all

/-- A process in a cycle that awaits an operation is sound. -/
theorem sound_await (hw : w.Sound) (hstatus : w.status ≠ .stopped)
    (hcycling : w.supervision = .cycling) (cycle : Cycle) : (w.await cycle).Sound where
  exit := hw.exit
  aborts := hw.aborts
  drains := hw.drains
  asked := hw.asked
  fatal := hw.fatal
  pending := hw.pending
  stopped h := absurd h hstatus
  idle h := absurd hcycling h
  exited code h := by
    rw [show (w.await cycle).supervision = w.supervision from rfl, hcycling] at h
    cases h

/-- The status of a process whose cycle has settled. -/
def settledStatus (w : Worker) (failed : Bool) : WorkerRuntimeStatus :=
  if failed = true ∨ w.status = .fatal then .fatal
  else if w.shutdown = some .pending then .stopped
  else if w.status = .running then .idle
  else w.status

/-- The state of a process in a cycle, after the cycle has settled. -/
theorem settleCycle_eq (hw : w.Sound) (hcycling : w.supervision = .cycling)
    (hstatus : w.status ≠ .stopped) (failed : Bool) :
    w.settleCycle failed =
      { w with
        activeCycle := none
        aborted := w.aborted || failed
        exitCode := if failed then 1 else w.exitCode
        shutdown := if w.shutdown = some .pending ∨ failed = true then some .settled else w.shutdown
        status := settledStatus w failed
        supervision := if failed then .closing true else .waiting } := by
  obtain ⟨hexit, haborts, hdrains, hasked, hfatal, hpending, hstopped, hidle, hexited⟩ := hw
  obtain ⟨schedules, activeCycle, aborted, exitCode, shutdown, status, supervision, stopRequested⟩ := w
  obtain rfl : supervision = .cycling := hcycling
  cases failed <;> cases status <;> cases shutdown with
  | none =>
    simp_all [Worker.settleCycle, Worker.markFatal, Worker.finishShutdown, Worker.superviseSettled,
      Worker.requestShutdown, settledStatus]
  | some promise =>
    cases promise <;>
      simp_all [Worker.settleCycle, Worker.markFatal, Worker.finishShutdown,
        Worker.superviseSettled, Worker.requestShutdown, settledStatus]

/-- A settled cycle leaves a process sound. -/
theorem sound_settleCycle (hw : w.Sound) (hcycling : w.supervision = .cycling)
    (hstatus : w.status ≠ .stopped) (failed : Bool) : (w.settleCycle failed).Sound := by
  rw [settleCycle_eq hw hcycling hstatus failed]
  obtain ⟨hexit, haborts, hdrains, hasked, hfatal, hpending, hstopped, hidle, hexited⟩ := hw
  cases failed
  · by_cases hp : w.shutdown = some .pending
    · have hd := hpending hp
      constructor <;> simp_all [settledStatus]
    · by_cases hr : w.status = .running
      · have hs : w.shutdown = none := by
          by_contra h
          have := hdrains h
          simp_all
        constructor <;> simp_all [settledStatus]
      · by_cases hf : w.status = .fatal <;> constructor <;> simp_all [settledStatus]
  · constructor <;> simp_all [settledStatus]

/-- A cycle goes on to another operation, or it settles. -/
def Proceeds (w w' : Worker) : Prop :=
  (∃ cycle, w' = w.await cycle) ∨ ∃ failed, w' = w.settleCycle failed

theorem proceeds_await (w : Worker) (cycle : Cycle) : Proceeds w (w.await cycle) :=
  .inl ⟨cycle, rfl⟩

theorem proceeds_settleCycle (w : Worker) (failed : Bool) : Proceeds w (w.settleCycle failed) :=
  .inr ⟨failed, rfl⟩

theorem proceeds_closeCycle (w : Worker) (leases : List WorkerLeaseHandle) (outcome : Outcome) :
    Proceeds w (w.closeCycle leases outcome) := by
  unfold Worker.closeCycle
  split_ifs
  · exact proceeds_settleCycle w _
  · exact proceeds_await w _

theorem proceeds_nextPass (w : Worker) (leases : List WorkerLeaseHandle)
    (rest : List WorkerScheduleDefinition) : Proceeds w (w.nextPass leases rest) := by
  cases rest with
  | nil => exact proceeds_closeCycle w leases .results
  | cons schedule rest =>
    unfold Worker.nextPass
    split_ifs
    · exact proceeds_closeCycle w leases .results
    · exact proceeds_await w _

theorem proceeds_acquireNext (w : Worker) (leases : List WorkerLeaseHandle)
    (todo : List JsString) : Proceeds w (w.acquireNext leases todo) := by
  cases todo with
  | nil => exact proceeds_nextPass w leases w.schedules
  | cons sourceId todo => exact proceeds_await w _

theorem proceeds_afterRead (w : Worker) (pass : Pass) (last now : Option ℤ) :
    Proceeds w (w.afterRead pass last now) := by
  unfold Worker.afterRead
  split_ifs
  · exact proceeds_closeCycle w _ _
  · cases newestMissedWorkerJob pass.schedule last now with
    | error e => exact proceeds_closeCycle w _ _
    | ok due =>
      cases due with
      | none => exact proceeds_nextPass w _ _
      | some request =>
        cases pass.scheduleLease with
        | none => exact proceeds_nextPass w _ _
        | some lease => exact proceeds_await w _

/-- An answer lets a cycle go on, or settles it. -/
theorem proceeds_advance {cycle : Cycle} {answer : Answer}
    (h : advance w store cycle answer = some (w', store')) : Proceeds w w' := by
  unfold advance at h
  split at h
  · obtain ⟨⟨fence, granting⟩, hacquire, hout⟩ := Option.map_eq_some_iff.mp h
    cases hout
    exact proceeds_acquireNext w _ _
  · rw [Option.ite_none_right_eq_some] at h
    cases h.2
    split_ifs
    · exact proceeds_settleCycle w _
    · exact proceeds_await w _
  · cases h
    exact proceeds_closeCycle w _ _
  · rw [Option.ite_none_right_eq_some] at h
    cases h.2
    split_ifs
    · exact proceeds_settleCycle w _
    · exact proceeds_await w _
    · exact proceeds_closeCycle w _ _
  · rw [Option.ite_none_right_eq_some] at h
    cases h.2
    exact proceeds_await w _
  · cases h
    exact proceeds_closeCycle w _ _
  · cases h
    exact proceeds_closeCycle w _ _
  · cases h
    exact proceeds_afterRead w _ _ _
  · rw [Option.ite_none_right_eq_some] at h
    cases h.2
    split_ifs
    · exact proceeds_closeCycle w _ _
    · exact proceeds_await w _
  · cases h
    split_ifs
    · exact proceeds_settleCycle w _
    · exact proceeds_closeCycle w _ _
  · rw [Option.ite_none_right_eq_some] at h
    obtain ⟨lease, hlease, h⟩ := Option.bind_eq_some_iff.mp h.2
    obtain ⟨recorded, hrecord, hout⟩ := Option.map_eq_some_iff.mp h
    cases hout
    exact proceeds_await w _
  · cases h
    exact proceeds_closeCycle w _ _
  · cases h
    exact proceeds_closeCycle w _ _
  · cases h
    split_ifs
    · exact proceeds_closeCycle w _ _
    · exact proceeds_nextPass w _ _
  · rw [Option.ite_none_right_eq_some] at h
    cases h.2
    exact proceeds_closeCycle w _ _
  · cases h

theorem sound_of_proceeds (hw : w.Sound) (hcycling : w.supervision = .cycling)
    (hstatus : w.status ≠ .stopped) (h : Proceeds w w') : w'.Sound := by
  obtain ⟨cycle, rfl⟩ | ⟨failed, rfl⟩ := h
  · exact sound_await hw hstatus hcycling cycle
  · exact sound_settleCycle hw hcycling hstatus failed

/-- A process in a cycle is supervised, and not stopped. -/
theorem cycling_of_activeCycle (hw : w.Sound) {cycle : Cycle} (hcycle : w.activeCycle = some cycle) :
    w.supervision = .cycling ∧ w.status ≠ .stopped := by
  refine ⟨?_, fun h => by simp [hw.stopped h] at hcycle⟩
  by_contra h
  simp [hw.idle h] at hcycle

/-- A process that begins a cycle. -/
theorem runCycle_cases (hw : w.Sound) (hcycle : w.activeCycle = none) :
    w.runCycle = w ∨ (w.shutdown = none ∧ w.status ≠ .fatal ∧
      Proceeds { w with status := .running, supervision := .cycling } w.runCycle) := by
  unfold Worker.runCycle
  split_ifs with hstatus hactive
  · exact .inl rfl
  · exact absurd hcycle hactive
  · rw [not_or, not_or] at hstatus
    refine .inr ⟨?_, hstatus.2.2, proceeds_acquireNext _ _ _⟩
    by_contra h
    have := hw.drains h
    tauto

/-- **Every step of a process keeps it sound.** -/
theorem sound_act (hw : w.Sound) {action : Action} (h : act w store action = some (w', store')) :
    w'.Sound := by
  have hs := hw
  obtain ⟨hexit, haborts, hdrains, hasked, hfatal, hpending, hstopped, hidle, hexited⟩ := hs
  cases action with
  | wake =>
    simp only [act] at h
    rw [Option.ite_none_left_eq_some, not_not] at h
    obtain ⟨hwaiting, h⟩ := h
    have hcycle := hidle (by simp [hwaiting])
    split_ifs at h
    · cases h
      have hr := sound_requestShutdown hw
      obtain ⟨hexit, haborts, hdrains, hasked, hfatal, hpending, hstopped, -, -⟩ := hr
      exact ⟨hexit, haborts, hdrains, hasked, hfatal, hpending, hstopped,
        fun _ => by simpa using hcycle, fun code hcode => by cases hcode⟩
    · cases h
      obtain heq | ⟨hnone, hnotFatal, hproceeds⟩ := runCycle_cases hw hcycle
      · rw [heq]
        exact hw
      · refine sound_of_proceeds ?_ rfl (by simp) hproceeds
        constructor <;> simp_all
  | stop =>
    simp only [act] at h
    rw [Option.ite_none_left_eq_some] at h
    cases h.2
    exact sound_requestShutdown
      ⟨hexit, haborts, hdrains, hasked, hfatal, hpending, hstopped, hidle, hexited⟩
  | graceExpires =>
    simp only [act] at h
    rw [Option.ite_none_right_eq_some] at h
    obtain ⟨hshutdown, h⟩ := h
    cases h
    refine ⟨rfl, fun _ => rfl, fun _ => .inr (.inr rfl), fun _ => (by simp), fun _ => rfl,
      fun h => (by cases h), fun h => (by cases h), hidle, fun code hcode => ?_⟩
    have := (hexited code hcode).1
    rw [hshutdown] at this
    cases this
  | exit =>
    simp only [act] at h
    split at h
    · rename_i failed hclosing
      rw [Option.ite_none_right_eq_some] at h
      obtain ⟨hshutdown, h⟩ := h
      cases h
      refine ⟨hexit, haborts, hdrains, hasked, hfatal, hpending, hstopped,
        fun _ => hidle (by simp [hclosing]), fun code hcode => ⟨hshutdown, fun hzero => ?_⟩⟩
      obtain rfl := Supervision.exited.inj hcode
      cases failed
      · intro hf
        simp_all
      · cases hzero
    · cases h
  | crash =>
    cases h
    exact ⟨hexit, haborts, hdrains, hasked, hfatal, hpending, fun _ => rfl, fun _ => rfl,
      fun code hcode => by cases hcode⟩
  | abortLease fence =>
    obtain ⟨cycle, hcycle, hout⟩ := Option.map_eq_some_iff.mp h
    cases hout
    obtain ⟨hcycling, hstatus⟩ := cycling_of_activeCycle hw hcycle
    exact sound_await hw hstatus hcycling _
  | answer answer =>
    obtain ⟨cycle, hcycle, hout⟩ := Option.bind_eq_some_iff.mp h
    obtain ⟨hcycling, hstatus⟩ := cycling_of_activeCycle hw hcycle
    exact sound_of_proceeds hw hcycling hstatus (proceeds_advance hout)

/-- How the status of a process may change once it has been asked to stop. -/
def MovesOn (before after : WorkerRuntimeStatus) : Prop :=
  after = before ∨ (before = .draining ∧ (after = .stopped ∨ after = .fatal))

theorem movesOn_requestShutdown (hw : w.Sound) :
    (w.shutdown ≠ none →
      w.requestShutdown.shutdown ≠ none ∧ MovesOn w.status w.requestShutdown.status) ∧
      (w.status = .fatal → w.requestShutdown.status = .fatal) := by
  obtain ⟨-, heq⟩ | ⟨hnone, hf, heq⟩ | ⟨hnone, hf, hc, heq⟩ | ⟨hnone, hf, hc, heq⟩ :=
    requestShutdown_cases hw
  · rw [heq]
    exact ⟨fun hs => ⟨hs, .inl rfl⟩, id⟩
  · rw [heq]
    exact ⟨fun hs => absurd hnone hs, id⟩
  · exact ⟨fun hs => absurd hnone hs, fun h => absurd h hf⟩
  · exact ⟨fun hs => absurd hnone hs, fun h => absurd h hf⟩

/-- **A process that has been asked to stop** stays so, and its status only moves on to stopped or
fatal; a fatal process stays fatal. -/
theorem movesOn_act (hw : w.Sound) {action : Action}
    (h : act w store action = some (w', store')) :
    (w.shutdown ≠ none → w'.shutdown ≠ none ∧ MovesOn w.status w'.status) ∧
      (w.status = .fatal → w'.status = .fatal) := by
  have hproceeds : w.supervision = .cycling → w.status ≠ .stopped → Proceeds w w' →
      (w.shutdown ≠ none → w'.shutdown ≠ none ∧ MovesOn w.status w'.status) ∧
        (w.status = .fatal → w'.status = .fatal) := by
    intro hcycling hstatus hp
    obtain ⟨cycle, rfl⟩ | ⟨failed, rfl⟩ := hp
    · exact ⟨fun hs => ⟨hs, .inl rfl⟩, id⟩
    · rw [settleCycle_eq hw hcycling hstatus failed]
      refine ⟨fun hs => ⟨?_, ?_⟩, fun hf => by simp [settledStatus, hf]⟩
      · show (if _ then _ else _) ≠ none
        split_ifs
        · simp
        · exact hs
      · have hpending := hw.pending
        show MovesOn w.status (settledStatus w failed)
        unfold settledStatus MovesOn
        obtain hd | hd | hd := hw.drains hs
        · split_ifs <;> simp_all
        · exact absurd hd hstatus
        · simp [hd]
  cases action with
  | wake =>
    simp only [act] at h
    rw [Option.ite_none_left_eq_some, not_not] at h
    obtain ⟨hwaiting, h⟩ := h
    have hcycle := hw.idle (by simp [hwaiting])
    split_ifs at h
    · cases h
      exact movesOn_requestShutdown hw
    · cases h
      obtain heq | ⟨hnone, hnotFatal, -⟩ := runCycle_cases hw hcycle
      · rw [heq]
        exact ⟨fun hs => ⟨hs, .inl rfl⟩, id⟩
      · exact ⟨fun hs => absurd hnone hs, fun h => absurd h hnotFatal⟩
  | stop =>
    simp only [act] at h
    rw [Option.ite_none_left_eq_some] at h
    cases h.2
    have hw' : ({ w with stopRequested := true } : Worker).Sound :=
      ⟨hw.exit, hw.aborts, hw.drains, hw.asked, hw.fatal, hw.pending, hw.stopped, hw.idle,
        hw.exited⟩
    exact movesOn_requestShutdown hw'
  | graceExpires =>
    simp only [act] at h
    rw [Option.ite_none_right_eq_some] at h
    obtain ⟨hshutdown, h⟩ := h
    cases h
    exact ⟨fun _ => ⟨by simp, .inr ⟨hw.pending hshutdown, .inr rfl⟩⟩, fun _ => rfl⟩
  | exit =>
    simp only [act] at h
    split at h
    · rw [Option.ite_none_right_eq_some] at h
      cases h.2
      exact ⟨fun hs => ⟨hs, .inl rfl⟩, id⟩
    · cases h
  | crash =>
    cases h
    exact ⟨fun hs => ⟨hs, .inl rfl⟩, id⟩
  | abortLease fence =>
    obtain ⟨cycle, hcycle, hout⟩ := Option.map_eq_some_iff.mp h
    cases hout
    exact ⟨fun hs => ⟨hs, .inl rfl⟩, id⟩
  | answer answer =>
    obtain ⟨cycle, hcycle, hout⟩ := Option.bind_eq_some_iff.mp h
    obtain ⟨hcycling, hstatus⟩ := cycling_of_activeCycle hw hcycle
    exact hproceeds hcycling hstatus (proceeds_advance hout)

end Handleplan.Workers
