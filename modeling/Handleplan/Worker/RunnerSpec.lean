import Mathlib.Data.Int.ConditionallyCompleteOrder
import Handleplan.Worker.Runner

/-!
# Results of the runner are recorded

Whatever a handler counts and whenever it settles, the run comes to one conclusion: it is
unresponsive, or it has a result that satisfies the contract of the runner and that the repository
of results takes.

The two validators have the same rules for each status. A result that is cancelled or timed out can
have any counters that are accounted for. The others can be in conflict with their counters, and
take their status from the counters, or their counters from the status.

## Main definitions

* `Workers.SoundReport` — the rules of a status, as both validators have them.
* `Workers.SteadyClock` — a clock that does not go back.
* `Workers.SoundConclusion` — how a run may end.
* `Workers.RunPhase.level` — how far a run has come.

## Main results

* `Workers.soundReport_finishReport` — what a run reports keeps the rules of its status.
* `Workers.soundRun_stepRun` — every event leaves a run sound.
* `Workers.le_level_stepRun` — no event takes a run back.
* `Workers.runJob_spec` — a run of a due job is unresponsive or has one result, which is
  valid for the runner and for the repository; and it comes to its end by its timers.
-/

namespace Handleplan.Workers

open JsString

/-! ### What a run reports -/

section Report

variable {counters : WorkerRunCounters} {input : CountersInput} {status : WorkerJobStateStatus}

/-- The rules of a status, as both validators have them. -/
def SoundReport (status : WorkerJobStateStatus) (counters : WorkerRunCounters) : Prop :=
  CanonicalCounters counters ∧
    ¬ (status = .succeeded ∧ counters.failed ≠ 0) ∧
    ¬ (status = .partly ∧ (counters.failed = 0 ∨ counters.fetched = 0)) ∧
    ¬ (status = .failed ∧ (counters.failed = 0 ∨ counters.fetched ≠ 0))

instance (status : WorkerJobStateStatus) (counters : WorkerRunCounters) :
    Decidable (SoundReport status counters) :=
  inferInstanceAs (Decidable (_ ∧ _ ∧ _ ∧ _))

/-- A count that is taken is a safe integer. -/
theorem nonNegativeSafeInteger_of_counterSchema {value : CounterValue} {n : ℕ}
    (h : counterSchema value = some n) : NonNegativeSafeInteger n := by
  cases value with
  | other => cases h
  | number value =>
    rw [counterSchema, Option.ite_none_right_eq_some] at h
    obtain ⟨⟨hden, hnonneg, hle⟩, hn⟩ := h
    cases hn
    have hvalue : ((value.num : ℤ) : ℚ) = value := Rat.den_eq_one_iff value |>.mp hden
    rw [← hvalue] at hle
    have hnum : value.num ≤ (maxSafeInteger : ℤ) := by exact_mod_cast hle
    exact Int.toNat_le.mpr hnum

/-- The counters that are taken are safe integers. -/
theorem nonNegativeSafeInteger_of_mergeCounters (h : mergeCounters input = some counters) :
    ∀ n ∈ [counters.accepted, counters.failed, counters.fetched, counters.persisted,
      counters.quarantined, counters.unknown], NonNegativeSafeInteger n := by
  unfold mergeCounters at h
  obtain ⟨-, -, h⟩ := Option.bind_eq_some_iff.mp h
  obtain ⟨fetched, hfetched, h⟩ := Option.bind_eq_some_iff.mp h
  obtain ⟨accepted, haccepted, h⟩ := Option.bind_eq_some_iff.mp h
  obtain ⟨quarantined, hquarantined, h⟩ := Option.bind_eq_some_iff.mp h
  obtain ⟨unknown, hunknown, h⟩ := Option.bind_eq_some_iff.mp h
  obtain ⟨persisted, hpersisted, h⟩ := Option.bind_eq_some_iff.mp h
  obtain ⟨failed, hfailed, h⟩ := Option.bind_eq_some_iff.mp h
  cases h
  simp only [List.forall_mem_cons, List.not_mem_nil, false_imp_iff, implies_true, and_true]
  exact ⟨nonNegativeSafeInteger_of_counterSchema haccepted,
    nonNegativeSafeInteger_of_counterSchema hfailed,
    nonNegativeSafeInteger_of_counterSchema hfetched,
    nonNegativeSafeInteger_of_counterSchema hpersisted,
    nonNegativeSafeInteger_of_counterSchema hquarantined,
    nonNegativeSafeInteger_of_counterSchema hunknown⟩

theorem canonicalCounters_of_accountedCounters {input : Option CountersInput}
    (h : accountedCounters input = some counters) : CanonicalCounters counters := by
  obtain ⟨hmerged, haccounted⟩ := Option.filter_eq_some_iff.mp h
  obtain ⟨hfetched, hpersisted⟩ := of_decide_eq_true haccounted
  exact ⟨nonNegativeSafeInteger_of_mergeCounters hmerged, hfetched, hpersisted⟩

/-- Counters of a status that is read off them. -/
theorem soundReport_completionStatus (h : CanonicalCounters counters) :
    SoundReport (completionStatus counters) counters := by
  unfold completionStatus
  split_ifs with hfailed hfetched
  · exact ⟨h, by simp [hfailed], by simp, by simp⟩
  · exact ⟨h, by simp, by simp [hfailed, Nat.pos_iff_ne_zero.mp hfetched], by simp⟩
  · exact ⟨h, by simp, by simp, by simp [hfailed, Nat.eq_zero_of_not_pos hfetched]⟩

/-- **What a run reports keeps the rules of its status**, if it counts nothing where it has failed
by itself. -/
theorem soundReport_finishReport {input : Option CountersInput}
    (h : status = .failed → input = none) :
    SoundReport (finishReport status input).1 (finishReport status input).2 := by
  unfold finishReport
  cases haccounted : accountedCounters input with
  | none => exact (by decide : SoundReport .failed { zeroWorkerRunCounters with failed := 1 })
  | some counters =>
    have hcanonical := canonicalCounters_of_accountedCounters haccounted
    dsimp only
    cases status with
    | succeeded | partly =>
      rw [if_pos (by simp)]
      have hsound := soundReport_completionStatus hcanonical
      have hkept : ¬ (completionStatus counters = .failed ∧ counters.failed = 0) :=
        fun hfailed => hsound.2.2.2 ⟨hfailed.1, .inl hfailed.2⟩
      rw [if_neg hkept]
      exact hsound
    | cancelled | timedOut =>
      rw [if_neg (by simp), if_neg (by simp)]
      exact ⟨hcanonical, by simp, by simp, by simp⟩
    | failed =>
      rw [h rfl] at haccounted
      obtain rfl : zeroWorkerRunCounters = counters := Option.some.inj haccounted
      exact (by decide : SoundReport .failed { zeroWorkerRunCounters with failed := 1 })

end Report

/-! ### How a run may end -/

/-- A clock that does not go back, and shows instants of canonical timestamps. -/
def SteadyClock (now : ℕ → Option ℤ) : Prop :=
  ∃ ms : ℕ → ℤ, Monotone ms ∧ (∀ tick, CanonicalTimestamp (ms tick)) ∧
    ∀ tick, now tick = some (ms tick)

/-- **How a run may end**: it is unresponsive, or it returns a result that the runner's own contract
and the repository take. -/
def SoundConclusion (request : WorkerJobRequest) (conclusion : RunConclusion) : Prop :=
  conclusion = .unresponsive ∨ ∃ result, conclusion = .returned result ∧
    WorkerRunResultSchema result ∧ SameIdentity request result ∧
    CanonicalWorkerJobResult (resultRecord request result)

section Run

variable {options : WorkerRunnerOptions} {request : WorkerJobRequest} {startedAt completedAt : ℤ}
  {tick : ℕ} {s : RunState} {event : RunEvent} {status : WorkerJobStateStatus}
  {input : Option CountersInput}

theorem requireIdentifier_of_identifierSchema {value : JsString} {maximum : ℕ}
    (h : IdentifierSchema value) (hlength : value.length ≤ maximum) :
    RequireIdentifier value maximum := by
  obtain ⟨htrim, hpos, -⟩ := h
  exact ⟨hpos, hlength, htrim.symm ▸ hpos⟩

/-- **A run that finishes returns a sound result.** -/
theorem soundConclusion_finishRun (hrequest : WorkerJobRequestSchema request)
    (hsource : request.sourceId.length ≤ 64)
    (hrunId : IdentifierSchema (options.createRunId request))
    (hstarted : CanonicalTimestamp startedAt) (hnow : options.now tick = some completedAt)
    (hcompleted : CanonicalTimestamp completedAt) (hle : startedAt ≤ completedAt)
    (hdue : request.requestedAt ≤ startedAt) (h : status = .failed → input = none) :
    SoundConclusion request (finishRun options request startedAt tick status input) := by
  obtain ⟨hjobId, -, hsourceId, -⟩ := hrequest
  obtain ⟨hcounters, hsucceeded, hpartly, hfailed⟩ := soundReport_finishReport h
  unfold finishRun
  rw [hnow]
  dsimp only
  rw [if_pos ⟨hrunId, hjobId, hsourceId, hstarted, hcompleted, not_lt.mpr hle, hcounters, hsucceeded,
    hpartly, hfailed⟩]
  refine .inr ⟨_, rfl, ⟨hrunId, hjobId, hsourceId, hstarted, hcompleted, not_lt.mpr hle, hcounters,
    hsucceeded, hpartly, hfailed⟩, ⟨rfl, rfl, rfl⟩, ?_⟩
  exact ⟨requireIdentifier_of_identifierSchema hjobId hjobId.2.2,
    requireIdentifier_of_identifierSchema hrunId hrunId.2.2,
    requireIdentifier_of_identifierSchema hsourceId hsource,
    not_or.mpr ⟨not_lt.mpr hle, not_lt.mpr (hdue.trans hle)⟩, hcounters, hsucceeded, hpartly, hfailed⟩

/-- A run that has failed by itself counts nothing. -/
theorem settlementReport_of_failed {timedOut callerCancelled : Bool} {forced : Option ForcedStatus}
    {settlement : HandlerSettlement}
    (h : (settlementReport timedOut callerCancelled forced settlement).1 = .failed) :
    (settlementReport timedOut callerCancelled forced settlement).2 = none := by
  cases settlement with
  | rejected => cases forced <;> rfl
  | cancelled counters =>
    cases forced with
    | none => cases h
    | some forced => cases forced <;> cases h
  | fulfilled handlerStatus counters =>
    cases forced with
    | none =>
      cases handlerStatus with
      | none => cases h
      | some handlerStatus => cases handlerStatus <;> cases h
    | some forced => cases forced <;> cases h

/-! ### Sound runs -/

/-- A run whose conclusion is sound, at a later reading of the clock than its start. -/
def SoundRun (request : WorkerJobRequest) (startTick : ℕ) (s : RunState) : Prop :=
  startTick ≤ s.tick ∧ ∀ conclusion, s.phase = .concluded conclusion → SoundConclusion request conclusion

/-- What a run is called with: a job that was due at an earlier reading of the clock. -/
structure RunsDueJob (options : WorkerRunnerOptions) (request : WorkerJobRequest) (startTick : ℕ)
    (startedAt : ℤ) : Prop where
  clock : SteadyClock options.now
  started : options.now startTick = some startedAt
  schema : WorkerJobRequestSchema request
  source : request.sourceId.length ≤ 64
  runId : IdentifierSchema (options.createRunId request)
  due : request.requestedAt ≤ startedAt

variable {startTick : ℕ}

section

variable (hruns : RunsDueJob options request startTick startedAt)

include hruns

theorem RunsDueJob.soundConclusion_finishRun (htick : startTick ≤ tick)
    (h : status = .failed → input = none) :
    SoundConclusion request (finishRun options request startedAt tick status input) := by
  obtain ⟨ms, hmono, hcanonical, hnow⟩ := hruns.clock
  obtain rfl : ms startTick = startedAt :=
    Option.some.inj ((hnow startTick).symm.trans hruns.started)
  exact Workers.soundConclusion_finishRun hruns.schema hruns.source hruns.runId (hcanonical _)
    (hnow tick) (hcanonical _) (hmono htick) hruns.due h

/-- **Every event leaves a run sound.** -/
theorem soundRun_stepRun (hs : SoundRun request startTick s) :
    SoundRun request startTick (stepRun options request startedAt s event) := by
  obtain ⟨htick, hsound⟩ := hs
  refine ⟨Nat.le_succ_of_le htick, fun conclusion hconclusion => ?_⟩
  have hconclude (forced : Option ForcedStatus) (settlement : HandlerSettlement)
      (heq : s.conclude options request startedAt forced settlement = .concluded conclusion) :
      SoundConclusion request conclusion := by
    obtain rfl := RunPhase.concluded.inj heq
    exact hruns.soundConclusion_finishRun htick settlementReport_of_failed
  change nextPhase options request startedAt s event = .concluded conclusion at hconclusion
  unfold nextPhase at hconclusion
  split at hconclusion
  · cases hconclusion
  · cases hconclusion
  · cases hconclusion
  · exact hconclude _ _ hconclusion
  · cases hconclusion
  · exact .inl (RunPhase.concluded.inj hconclusion).symm
  · exact hconclude _ _ hconclusion
  · exact hsound conclusion hconclusion

theorem soundRun_foldl (hs : SoundRun request startTick s) (events : List RunEvent) :
    SoundRun request startTick (events.foldl (stepRun options request startedAt) s) := by
  induction events generalizing s with
  | nil => exact hs
  | cons event events ih => exact ih (soundRun_stepRun hruns hs)

theorem soundConclusion_startPhase (htick : startTick ≤ tick) {execution : WorkerRunExecution}
    {conclusion : RunConclusion}
    (h : startPhase options request startedAt execution tick = .concluded conclusion) :
    SoundConclusion request conclusion := by
  unfold startPhase at h
  split_ifs at h
  all_goals
    obtain rfl := RunPhase.concluded.inj h
    refine hruns.soundConclusion_finishRun htick ?_
    simp

end

/-! ### Runs end -/

/-- How far a run has come: its race is open, the handler is awaited, the handler has settled, or
the run is over. -/
def RunPhase.level : RunPhase → ℕ
  | .racing => 0
  | .joining _ => 1
  | .settled _ => 2
  | .joined _ _ => 2
  | .concluded _ => 3

/-- **No event takes a run back.** -/
theorem le_level_stepRun (s : RunState) (event : RunEvent) :
    s.phase.level ≤ (stepRun options request startedAt s event).phase.level := by
  show s.phase.level ≤ (nextPhase options request startedAt s event).level
  cases hphase : s.phase with
  | racing => exact Nat.zero_le _
  | settled settlement => cases event <;> simp [nextPhase, hphase, RunState.conclude, RunPhase.level]
  | joining forced => cases event <;> simp [nextPhase, hphase, RunPhase.level]
  | joined forced settlement =>
    cases event <;> simp [nextPhase, hphase, RunState.conclude, RunPhase.level]
  | concluded conclusion => cases event <;> simp [nextPhase, hphase, RunPhase.level]

/-- The timer of the request ends the first race. -/
theorem one_le_level_timeout (s : RunState) :
    1 ≤ (stepRun options request startedAt s .timeout).phase.level := by
  show 1 ≤ (nextPhase options request startedAt s .timeout).level
  cases hphase : s.phase <;> simp [nextPhase, hphase, RunPhase.level]

/-- The timer of the grace period ends the wait for the handler. -/
theorem two_le_level_graceExpires (h : 1 ≤ s.phase.level) :
    2 ≤ (stepRun options request startedAt s .graceExpires).phase.level := by
  show 2 ≤ (nextPhase options request startedAt s .graceExpires).level
  cases hphase : s.phase with
  | racing => simp [hphase, RunPhase.level] at h
  | settled | joining | joined | concluded => simp [nextPhase, hphase, RunPhase.level]

/-- The continuation of a race ends the run. -/
theorem three_le_level_resumes (h : 2 ≤ s.phase.level) :
    3 ≤ (stepRun options request startedAt s .resumes).phase.level := by
  show 3 ≤ (nextPhase options request startedAt s .resumes).level
  cases hphase : s.phase with
  | racing | joining => simp [hphase, RunPhase.level] at h
  | settled | joined | concluded => simp [nextPhase, hphase, RunState.conclude, RunPhase.level]

theorem level_foldl (s : RunState) (events : List RunEvent) :
    s.phase.level ≤ (events.foldl (stepRun options request startedAt) s).phase.level := by
  induction events generalizing s with
  | nil => exact le_rfl
  | cons event events ih => exact (le_level_stepRun s event).trans (ih _)

/-- An event that takes a run on does so among other events. -/
theorem level_foldl_of_mem {low high : ℕ}
    (hevent : ∀ s : RunState, low ≤ s.phase.level →
      high ≤ (stepRun options request startedAt s event).phase.level)
    {events : List RunEvent} (hmem : event ∈ events) (h : low ≤ s.phase.level) :
    high ≤ (events.foldl (stepRun options request startedAt) s).phase.level := by
  obtain ⟨before, after, rfl⟩ := List.mem_iff_append.mp hmem
  rw [List.foldl_append, List.foldl_cons]
  exact (hevent _ (h.trans (level_foldl s before))).trans (level_foldl _ after)

/-- **A run ends by its timers**, whatever else happens. -/
theorem three_le_level_foldl {events : List RunEvent}
    (h : List.Sublist [.timeout, .graceExpires, .resumes] events) :
    3 ≤ (events.foldl (stepRun options request startedAt) s).phase.level := by
  obtain ⟨first, rest, rfl, htimeout, hrest⟩ := List.cons_sublist_iff.mp h
  obtain ⟨second, third, rfl, hgrace, hthird⟩ := List.cons_sublist_iff.mp hrest
  have hresumes := List.singleton_sublist.mp hthird
  rw [List.foldl_append, List.foldl_append]
  refine level_foldl_of_mem (fun s => three_le_level_resumes) hresumes ?_
  refine level_foldl_of_mem (fun s => two_le_level_graceExpires) hgrace ?_
  exact level_foldl_of_mem (fun s _ => one_le_level_timeout s) htimeout (Nat.zero_le _)

theorem exists_conclusion_of_three_le_level {phase : RunPhase} (h : 3 ≤ phase.level) :
    ∃ conclusion, phase = .concluded conclusion := by
  cases phase with
  | concluded conclusion => exact ⟨conclusion, rfl⟩
  | racing | settled | joining | joined => simp [RunPhase.level] at h

/-- A run that is over stays so. -/
theorem phase_foldl_of_concluded {conclusion : RunConclusion} (h : s.phase = .concluded conclusion)
    (events : List RunEvent) :
    (events.foldl (stepRun options request startedAt) s).phase = .concluded conclusion := by
  induction events generalizing s with
  | nil => exact h
  | cons event events ih =>
    refine ih (s := stepRun options request startedAt s event) ?_
    show nextPhase options request startedAt s event = _
    unfold nextPhase
    rw [h]

end Run

/-! ### Runs of due jobs -/

/-- The identifiers of the production runner, for a digest of 64 hexadecimal digits. -/
theorem identifierSchema_runIdFor {sha256Hex : JsString → JsString}
    (hlength : ∀ text, (sha256Hex text).length = 64)
    (hdigits : ∀ text, ∀ u ∈ sha256Hex text, isSpace u = false) (request : WorkerJobRequest) :
    IdentifierSchema (runIdFor sha256Hex request) := by
  have htotal : (runIdFor sha256Hex request).length = 74 := by
    rw [runIdFor, List.length_append, hlength]
    rfl
  refine ⟨trim_eq_self fun u hu => ?_, by omega, by omega⟩
  rcases List.mem_append.mp hu with hversion | hdigest
  · exact (by decide : ∀ u ∈ js "worker-v1:", isSpace u = false) u hversion
  · exact hdigits _ u hdigest

/-- **A run of a due job** is unresponsive or returns one result, which is valid for the runner and
for the repository of results. It comes to its end when the timers of the request and of the grace
period have gone off and the race that is over has been taken up.

**Proof sketch.** A run keeps its clock reading after that of its start, and its conclusion sound.
With each of the three events the run comes to a next level at the least, and no event takes it
back. -/
theorem runJob_spec {options : WorkerRunnerOptions} {request : WorkerJobRequest}
    (schedule : WorkerScheduleDefinition) (last : Option ℤ) {dueTick startTick : ℕ}
    (execution : WorkerRunExecution) (hclock : SteadyClock options.now)
    (hrunId : IdentifierSchema (options.createRunId request))
    (hrequest : newestMissedWorkerJob schedule last (options.now dueTick) = .ok (some request))
    (hstart : dueTick ≤ startTick) (hsource : request.sourceId.length ≤ 64) :
    (∀ events conclusion, runJob options request execution startTick events = .concluded conclusion →
      SoundConclusion request conclusion ∧
        ∀ later, runJob options request execution startTick (events ++ later) =
          .concluded conclusion) ∧
    ∀ events, List.Sublist [.timeout, .graceExpires, .resumes] events →
      ∃ conclusion, runJob options request execution startTick events = .concluded conclusion := by
  obtain ⟨ms, hmono, hcanonical, hnow⟩ := hclock
  rw [hnow dueTick] at hrequest
  obtain ⟨-, -, -, -, hschema⟩ := newestMissedWorkerJob_spec hrequest
  have hruns : RunsDueJob options request startTick (ms startTick) :=
    { clock := ⟨ms, hmono, hcanonical, hnow⟩
      started := hnow startTick
      schema := hschema
      source := hsource
      runId := hrunId
      due := (requestedAt_le_of_newestMissedWorkerJob hrequest).trans (hmono hstart) }
  have hrun (events : List RunEvent) : runJob options request execution startTick events =
      (events.foldl (stepRun options request (ms startTick))
        { phase := startPhase options request (ms startTick) execution (startTick + 1)
          timedOut := false
          callerCancelled := execution.aborted
          tick := startTick + 2 }).phase := by
    rw [runJob, if_neg (not_not.mpr hschema), hnow startTick]
  refine ⟨fun events conclusion h => ⟨?_, fun later => ?_⟩, fun events h => ?_⟩
  · rw [hrun] at h
    refine (soundRun_foldl hruns ⟨Nat.le_add_right _ _, fun conclusion hstarted => ?_⟩ events).2
      conclusion h
    exact soundConclusion_startPhase hruns (Nat.le_succ _) hstarted
  · rw [hrun] at h ⊢
    rw [List.foldl_append]
    exact phase_foldl_of_concluded h later
  · rw [hrun]
    exact exists_conclusion_of_three_le_level (three_le_level_foldl h)

namespace Example

/-- A schedule of every half hour. -/
def halfHourly : WorkerScheduleDefinition where
  anchorAt := some 0
  intervalMs := 1800000
  kind := .benchmarkPriceRefresh
  sourceId := js "kassalapp"
  timeoutMs := 60000

/-- Its job at 16 July 2026, 12:30. -/
def halfHourlyJob : WorkerJobRequest where
  jobId := js "kassalapp:benchmark-price-refresh:2026-07-16T12:30:00.000Z"
  kind := .benchmarkPriceRefresh
  requestedAt := 1784205000000
  sourceId := js "kassalapp"
  timeoutMs := 60000

/-- A runner whose clock goes on by a second with each reading. -/
def steadyRunner : WorkerRunnerOptions where
  createRunId := runIdFor fun _ => List.replicate 64 48
  hasHandler _ := true
  now tick := some (min (1784205000000 + 1000 * tick) 253402300799999)

end Example

theorem Example.steadyClock : SteadyClock steadyRunner.now := by
  refine ⟨fun tick => min (1784205000000 + 1000 * tick) 253402300799999, fun i j hle => ?_,
    fun tick => ?_, fun _ => rfl⟩
  · have hcast : (i : ℤ) ≤ j := Int.ofNat_le.mpr hle
    exact min_le_min_right _ (by omega)
  · show -62167219200000 ≤ min (1784205000000 + 1000 * (tick : ℤ)) 253402300799999 ∧ _
    exact ⟨le_min (by omega) (by omega), min_le_right _ _⟩

/-- The handler is cancelled by the timer of its request, and reports a failure. -/
theorem runJob_halfHourlyJob : ∃ conclusion,
    runJob Example.steadyRunner Example.halfHourlyJob ⟨some (js "token"), false⟩ 1
      [.timeout, .settles (.cancelled (some [(js "failed", .number 1)])), .graceExpires, .resumes] =
        .concluded conclusion ∧ SoundConclusion Example.halfHourlyJob conclusion := by
  have hdue : newestMissedWorkerJob Example.halfHourly none (Example.steadyRunner.now 0) =
      .ok (some Example.halfHourlyJob) := by decide +kernel
  have hrunId : IdentifierSchema (Example.steadyRunner.createRunId Example.halfHourlyJob) :=
    identifierSchema_runIdFor (fun _ => List.length_replicate)
      (fun _ u hu => by rw [List.eq_of_mem_replicate hu]; rfl) Example.halfHourlyJob
  obtain ⟨hsound, hends⟩ := runJob_spec Example.halfHourly none ⟨some (js "token"), false⟩
    Example.steadyClock hrunId hdue (Nat.zero_le 1) (by decide)
  obtain ⟨conclusion, hconclusion⟩ := hends
    [.timeout, .settles (.cancelled (some [(js "failed", .number 1)])), .graceExpires, .resumes]
    (.cons_cons _ (.cons _ (List.Sublist.refl _)))
  exact ⟨conclusion, hconclusion, (hsound _ conclusion hconclusion).1⟩

end Handleplan.Workers
