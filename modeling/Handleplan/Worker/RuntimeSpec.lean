import Handleplan.Worker.Runtime

/-!
# Steps of a worker process

What one step of a worker process does to the leases it holds, to what it relies on, and to the
store.

## Main definitions

* `Workers.Claim` — what a process relies on between reading the last recorded slot and
  recording its result: the fence, the schedule, and what it knows of the recorded slots.
* `Workers.Effect` — what one step of a process does to what it holds and relies on.

## Main results

* `Workers.effect_act` — every step of a process has one of the effects.
* `Workers.mem_of_claim` — a claim is about a lease the process holds.
-/

namespace Handleplan.Workers

open JsString

/-! ### What a process holds and relies on -/

/-- The leases of a cycle. -/
def Cycle.leases : Cycle → List WorkerLeaseHandle
  | .acquiring _ _ leases => leases
  | .abandoning leases => leases
  | .reading pass => pass.leases
  | .read pass _ => pass.leases
  | .running pass _ => pass.leases
  | .recording pass _ _ => pass.leases
  | .recorded pass => pass.leases
  | .releasing leases _ => leases

/-- The schedules a cycle still has to look at, the present one included. -/
def Cycle.schedules : Cycle → List WorkerScheduleDefinition
  | .reading pass => pass.schedule :: pass.rest
  | .read pass _ => pass.schedule :: pass.rest
  | .running pass _ => pass.schedule :: pass.rest
  | .recording pass _ _ => pass.schedule :: pass.rest
  | .recorded pass => pass.schedule :: pass.rest
  | _ => []

/-- What a process knows of the recorded slots: the last one it has read, or that they lie before
the slot of its request. -/
inductive Bound where
  | upTo (lastScheduledAt : Option ℤ)
  | before (request : WorkerJobRequest)

/-- Whether a slot is within a bound. -/
def Bound.Admits : Bound → ℤ → Prop
  | .upTo last, slot => ∃ l ∈ last, slot ≤ l
  | .before request, slot => slot < request.requestedAt

/-- What a process relies on for one schedule. -/
structure Claim where
  schedule : WorkerScheduleDefinition
  fence : Option Fence
  bound : Bound

/-- The claim of a pass. -/
def Pass.claim (pass : Pass) (bound : Bound) : Claim where
  schedule := pass.schedule
  fence := pass.scheduleLease.map fun lease => lease.fence
  bound := bound

/-- What a cycle relies on. -/
def Cycle.claim : Cycle → Option Claim
  | .read pass last => some (pass.claim (.upTo last))
  | .running pass request => some (pass.claim (.before request))
  | .recording pass request _ => some (pass.claim (.before request))
  | _ => none

/-- The fences a process holds. -/
def Worker.fences (w : Worker) : List Fence :=
  (w.activeCycle.elim [] Cycle.leases).map fun lease => lease.fence

/-- The schedules a process still has to look at. -/
def Worker.remaining (w : Worker) : List WorkerScheduleDefinition :=
  w.activeCycle.elim [] Cycle.schedules

/-- What a process relies on. -/
def Worker.claim (w : Worker) : Option Claim := w.activeCycle.bind Cycle.claim

/-- What every step of a process keeps: its schedules stay, it holds no other leases than those
given, and it only looks at schedules of its own. -/
structure Frame (fences : List Fence) (w w' : Worker) : Prop where
  schedules : w'.schedules = w.schedules
  fences : w'.fences ⊆ fences
  remaining : w'.remaining ⊆ w.schedules

/-- The step of a process to an operation that relies on nothing. -/
structure GoesOn (fences : List Fence) (w w' : Worker) : Prop extends Frame fences w w' where
  claim : w'.claim = none

variable {w w' : Worker} {store store' : Store} {leases : List WorkerLeaseHandle}
  {fences : List Fence}

/-- A request for shutdown changes neither the schedules nor the cycle. -/
@[simp]
theorem keeps_requestShutdown (w : Worker) :
    w.requestShutdown.schedules = w.schedules ∧ w.requestShutdown.activeCycle = w.activeCycle := by
  unfold Worker.requestShutdown
  split_ifs <;> exact ⟨rfl, rfl⟩

/-- Nor does the end of one. -/
@[simp]
theorem keeps_finishShutdown (w : Worker) :
    w.finishShutdown.schedules = w.schedules ∧ w.finishShutdown.activeCycle = w.activeCycle := by
  unfold Worker.finishShutdown
  split_ifs <;> exact ⟨rfl, rfl⟩

/-- Nor does the supervisor when a cycle is settled. -/
@[simp]
theorem keeps_superviseSettled (w : Worker) (failed : Bool) :
    (w.superviseSettled failed).schedules = w.schedules ∧
      (w.superviseSettled failed).activeCycle = w.activeCycle := by
  unfold Worker.superviseSettled
  split_ifs <;> simp

/-- A cycle that is settled is over. -/
@[simp]
theorem keeps_settleCycle (w : Worker) (failed : Bool) :
    (w.settleCycle failed).schedules = w.schedules ∧
      (w.settleCycle failed).activeCycle = none := by
  cases failed <;> simp [Worker.settleCycle, Worker.markFatal]

/-- A process without a cycle holds and relies on nothing. -/
theorem goesOn_of_activeCycle_none (hschedules : w'.schedules = w.schedules)
    (hcycle : w'.activeCycle = none) : GoesOn fences w w' where
  schedules := hschedules
  fences := by simp [Worker.fences, hcycle]
  remaining := by simp [Worker.remaining, hcycle]
  claim := by simp [Worker.claim, hcycle]

variable {cycle : Cycle} {claim : Claim}

/-- What a process holds while it waits for an answer. -/
theorem frame_await (hleases : (cycle.leases.map fun lease => lease.fence) ⊆ fences)
    (hremaining : cycle.schedules ⊆ w.schedules) : Frame fences w (w.await cycle) where
  schedules := rfl
  fences := hleases
  remaining := hremaining

/-- A cycle that is settled leaves nothing. -/
theorem goesOn_settleCycle (w : Worker) (failed : Bool) : GoesOn fences w (w.settleCycle failed) :=
  goesOn_of_activeCycle_none (keeps_settleCycle w failed).1 (keeps_settleCycle w failed).2

/-- A cycle is closed, lease by lease. -/
theorem goesOn_closeCycle (w : Worker) (hleases : (leases.map fun lease => lease.fence) ⊆ fences)
    (outcome : Outcome) : GoesOn fences w (w.closeCycle leases outcome) := by
  unfold Worker.closeCycle
  split_ifs
  · exact goesOn_settleCycle w _
  · exact ⟨frame_await hleases (List.nil_subset _), rfl⟩

/-- The next schedules are looked at. -/
theorem goesOn_nextPass (w : Worker) (hleases : (leases.map fun lease => lease.fence) ⊆ fences)
    {rest : List WorkerScheduleDefinition} (hrest : rest ⊆ w.schedules) :
    GoesOn fences w (w.nextPass leases rest) := by
  cases rest with
  | nil => exact goesOn_closeCycle w hleases .results
  | cons schedule rest =>
    unfold Worker.nextPass
    split_ifs
    · exact goesOn_closeCycle w hleases .results
    · exact ⟨frame_await hleases hrest, rfl⟩

/-- The next lease is asked for. -/
theorem goesOn_acquireNext (w : Worker) (hleases : (leases.map fun lease => lease.fence) ⊆ fences)
    (todo : List JsString) : GoesOn fences w (w.acquireNext leases todo) := by
  cases todo with
  | nil => exact goesOn_nextPass w hleases (List.Subset.refl _)
  | cons sourceId todo => exact ⟨frame_await hleases (List.nil_subset _), rfl⟩

/-- A new cycle begins with no leases. -/
theorem goesOn_runCycle (hcycle : w.activeCycle = none) : GoesOn fences w w.runCycle := by
  unfold Worker.runCycle
  split_ifs with hstatus hactive
  · exact goesOn_of_activeCycle_none rfl hcycle
  · exact goesOn_of_activeCycle_none rfl hcycle
  · have hleases : (([] : List WorkerLeaseHandle).map fun lease => lease.fence) ⊆ fences := List.nil_subset _
    have h := goesOn_acquireNext { w with status := .running, supervision := .cycling } hleases
      w.sourceIds
    exact ⟨⟨h.schedules, h.fences, h.remaining⟩, h.claim⟩

/-! ### One step of a process -/

/-- What one step of a process does to what it holds and relies on, and to the store. -/
inductive Effect (w : Worker) (store : Store) (w' : Worker) (store' : Store) : Prop
  | goesOn (hgoes : GoesOn w.fences w w') (hstore : store' = store ∨ ∃ f, store' = store.drop f)
  | acquires (sourceId : JsString) (fence : Fence)
      (hacquire : store.acquire sourceId = some (fence, store'))
      (hgoes : GoesOn (w.fences ++ [fence]) w w')
  | keeps (hstore : store' = store) (hframe : Frame w.fences w w') (hclaim : w'.claim = w.claim)
      (hjob : w'.job = none ∨ w'.job = w.job)
  | queries (claim : Claim) (hstore : store' = store) (hframe : Frame w.fences w w')
      (hclaim : w'.claim = some claim)
      (hbound : claim.bound =
        .upTo (store.lastScheduledAt claim.schedule.sourceId claim.schedule.kind))
  | starts (claim : Claim) (last now : Option ℤ) (request : WorkerJobRequest)
      (hstore : store' = store) (hframe : Frame w.fences w w') (haborted : w.aborted = false)
      (hread : w.claim = some { claim with bound := .upTo last })
      (hclaim : w'.claim = some { claim with bound := .before request })
      (hdue : newestMissedWorkerJob claim.schedule last now = .ok (some request))
  | commits (claim : Claim) (fence : Fence) (request : WorkerJobRequest)
      (result : WorkerRunResult) (hgoes : GoesOn w.fences w w')
      (hclaim : w.claim = some claim) (hfence : claim.fence = some fence)
      (hbound : claim.bound = .before request) (hsame : SameIdentity request result)
      (hrecord : store.record (resultRecord request result) fence = some store')

/-- A lease is released, or was not there. -/
theorem release_eq (store : Store) (fence : Fence) (deleted : Bool) :
    store.release fence deleted = store ∨ ∃ f, store.release fence deleted = store.drop f := by
  cases deleted
  · exact .inl rfl
  · exact .inr ⟨fence, rfl⟩

theorem fences_eq (hcycle : w.activeCycle = some cycle) :
    w.fences = cycle.leases.map fun lease => lease.fence := by
  simp [Worker.fences, hcycle]

theorem remaining_eq (hcycle : w.activeCycle = some cycle) :
    w.remaining = cycle.schedules := by
  simp [Worker.remaining, hcycle]

theorem claim_eq (hcycle : w.activeCycle = some cycle) :
    w.claim = cycle.claim := by
  simp [Worker.claim, hcycle]

/-- A cycle may always be closed. -/
theorem effect_closeCycle (hleases : (leases.map fun lease => lease.fence) ⊆ w.fences)
    (outcome : Outcome) : Effect w store (w.closeCycle leases outcome) store :=
  .goesOn (goesOn_closeCycle w hleases outcome) (.inl rfl)

/-- The code after the last recorded slot has been read: the job that is due starts, or the process
goes on. -/
theorem effect_afterRead {pass : Pass} {last : Option ℤ}
    (hcycle : w.activeCycle = some (.read pass last)) (hremaining : w.remaining ⊆ w.schedules)
    (now : Option ℤ) : Effect w store (w.afterRead pass last now) store := by
  have hheld : (pass.leases.map fun lease => lease.fence) ⊆ w.fences := by
    rw [fences_eq hcycle]
    exact List.Subset.refl _
  rw [remaining_eq hcycle] at hremaining
  have hrest : pass.rest ⊆ w.schedules := fun σ hσ => hremaining (List.mem_cons_of_mem _ hσ)
  unfold Worker.afterRead
  split_ifs with habort
  · exact effect_closeCycle hheld _
  · cases hdue : newestMissedWorkerJob pass.schedule last now with
    | error e => exact effect_closeCycle hheld _
    | ok due =>
      cases due with
      | none => exact .goesOn (goesOn_nextPass w hheld hrest) (.inl rfl)
      | some request =>
        cases hlease : pass.scheduleLease with
        | none => exact .goesOn (goesOn_nextPass w hheld hrest) (.inl rfl)
        | some lease =>
          have haborted : w.aborted = false := by
            by_contra h
            exact habort (.inl (Bool.eq_true_of_not_eq_false h))
          exact .starts (pass.claim (.upTo last)) last now request rfl
            (frame_await hheld hremaining) haborted (claim_eq hcycle) rfl hdue

/-- More leases may be held. -/
theorem GoesOn.mono {fences' : List Fence} (h : GoesOn fences w w') (hsub : fences ⊆ fences') :
    GoesOn fences' w w' :=
  ⟨⟨h.schedules, List.Subset.trans h.fences hsub, h.remaining⟩, h.claim⟩

/-- A lease that is granted and not heard of is not relied on. -/
theorem effect_acquireUnseen (sourceId : JsString) (granted : Bool) (h : GoesOn w.fences w w') :
    Effect w store w' (store.acquireUnseen sourceId granted) := by
  unfold Store.acquireUnseen
  cases hacquire : store.acquire sourceId with
  | none => exact .goesOn h (.inl rfl)
  | some claimed =>
    obtain ⟨fence, granting⟩ := claimed
    cases granted
    · exact .goesOn h (.inl rfl)
    · exact .acquires sourceId fence hacquire (h.mono (by simp))

/-- The leases acquired before a refusal are released one after another. -/
theorem goesOn_abandoning (hleases : (leases.map fun lease => lease.fence) ⊆ w.fences)
    (succeeded : Bool) : GoesOn w.fences w (if ¬ succeeded then w.closeCycle leases .acquireError
      else if leases = [] then w.settleCycle false else w.await (.abandoning leases)) := by
  split_ifs
  · exact goesOn_settleCycle w _
  · exact ⟨frame_await hleases (List.nil_subset _), rfl⟩
  · exact goesOn_closeCycle w hleases _

/-- Recording a result commits it, by the lease of the pass. -/
theorem effect_record {pass : Pass} {request : WorkerJobRequest} {result : WorkerRunResult}
    (hcycle : w.activeCycle = some (.recording pass request result))
    (hremaining : w.remaining ⊆ w.schedules)
    (h : advance w store (.recording pass request result) .committed = some (w', store')) :
    Effect w store w' store' := by
  rw [advance, Option.ite_none_right_eq_some] at h
  obtain ⟨hsame, h⟩ := h
  obtain ⟨lease, hlease, h⟩ := Option.bind_eq_some_iff.mp h
  obtain ⟨recorded, hrecord, hout⟩ := Option.map_eq_some_iff.mp h
  cases hout
  exact .commits (pass.claim (.before request)) lease.fence request result
    ⟨frame_await (by simp [fences_eq hcycle, Cycle.leases]) (remaining_eq hcycle ▸ hremaining), rfl⟩
    (claim_eq hcycle) (by simp [Pass.claim, hlease]) rfl hsame hrecord

/-- **Each answer has one of the effects.** -/
theorem effect_advance {answer : Answer} (hcycle : w.activeCycle = some cycle)
    (hremaining : w.remaining ⊆ w.schedules) (h : advance w store cycle answer = some (w', store')) :
    Effect w store w' store' := by
  have hheld := fences_eq hcycle
  have hscope := remaining_eq hcycle ▸ hremaining
  have hclaim := claim_eq hcycle
  have hclose : ∀ outcome, Effect w store (w.closeCycle cycle.leases outcome) store :=
    effect_closeCycle (hheld ▸ List.Subset.refl _)
  unfold advance at h
  split at h
  · -- the lease is granted
    rename_i sourceId todo leases
    obtain ⟨⟨fence, granting⟩, hacquire, hout⟩ := Option.map_eq_some_iff.mp h
    cases hout
    exact .acquires sourceId fence hacquire (goesOn_acquireNext w (by simp [hheld, Cycle.leases]) _)
  · -- another process holds it
    rw [Option.ite_none_right_eq_some] at h
    cases h.2
    refine .goesOn ?_ (.inl rfl)
    split_ifs
    · exact goesOn_settleCycle w _
    · exact ⟨frame_await (by simp [hheld, Cycle.leases]) (List.nil_subset _), rfl⟩
  · -- acquiring fails
    rename_i sourceId todo leases granted
    cases h
    exact effect_acquireUnseen sourceId granted
      (goesOn_closeCycle w (by simp [hheld, Cycle.leases]) _)
  · -- the leases acquired before a refusal are released in turn
    rename_i lease rest fence deleted succeeded
    rw [Option.ite_none_right_eq_some] at h
    cases h.2
    exact .goesOn (goesOn_abandoning (by simp [hheld, Cycle.leases]) succeeded)
      (release_eq store fence deleted)
  · -- the query of the last slot is evaluated
    rename_i pass
    rw [Option.ite_none_right_eq_some] at h
    cases h.2
    exact .queries (pass.claim (.upTo _)) rfl (frame_await (by simp [hheld, Cycle.leases]) hscope)
      rfl rfl
  · cases h
    exact hclose _
  · cases h
    exact hclose _
  · -- the query has answered
    cases h
    exact effect_afterRead hcycle hremaining _
  · -- the job is over
    rename_i pass request report
    rw [Option.ite_none_right_eq_some] at h
    cases h.2
    split_ifs
    · exact hclose _
    · exact .keeps rfl (frame_await (by simp [hheld, Cycle.leases]) hscope) hclaim.symm (.inl rfl)
  · -- the runner throws
    cases h
    split_ifs
    · exact .goesOn (goesOn_settleCycle w _) (.inl rfl)
    · exact hclose _
  · -- the result is recorded
    exact effect_record hcycle hremaining h
  · cases h
    exact hclose _
  · cases h
    exact hclose _
  · -- the loop goes on
    rename_i pass
    cases h
    split_ifs
    · exact hclose _
    · exact .goesOn (goesOn_nextPass w (by simp [hheld, Cycle.leases])
        fun σ hσ => hscope (List.mem_cons_of_mem _ hσ)) (.inl rfl)
  · -- a lease is released
    rename_i leases outcome fence deleted succeeded
    rw [Option.ite_none_right_eq_some] at h
    cases h.2
    refine .goesOn (goesOn_closeCycle w ?_ outcome) (release_eq store fence deleted)
    rw [hheld]
    exact List.map_subset _ (List.filter_subset_self _)
  · cases h

/-! ### The signal of a lease -/

/-- Aborting the signal of a lease changes none of what a process holds or relies on. -/
theorem keeps_abortLease (fence : Fence) (cycle : Cycle) :
    ((cycle.abortLease fence).leases.map fun lease => lease.fence) =
        cycle.leases.map (fun lease => lease.fence) ∧
      (cycle.abortLease fence).schedules = cycle.schedules ∧
      (cycle.abortLease fence).claim = cycle.claim := by
  cases cycle <;>
    simp [Cycle.abortLease, Cycle.leases, Cycle.schedules, Cycle.claim, Pass.claim,
      Pass.scheduleLease, Pass.abortLease, WorkerLeaseHandle.abort, Function.comp_def]

/-- **Each step of a process has one of the effects.** -/
theorem effect_act {action : Action} (hremaining : w.remaining ⊆ w.schedules)
    (hidle : w.supervision = .waiting → w.activeCycle = none)
    (h : act w store action = some (w', store')) : Effect w store w' store' := by
  -- a step that leaves the cycle as it is
  have hsame : ∀ v : Worker, v.schedules = w.schedules → v.activeCycle = w.activeCycle →
      Effect w store v store := by
    intro v hschedules hcycle
    refine .keeps rfl ⟨hschedules, ?_, ?_⟩ (by rw [Worker.claim, hcycle, Worker.claim])
      (.inr (by rw [Worker.job, hcycle, Worker.job]))
    · rw [Worker.fences, hcycle, Worker.fences]
      exact List.Subset.refl _
    · rw [Worker.remaining, hcycle]
      exact hremaining
  cases action with
  | wake =>
    simp only [act] at h
    rw [Option.ite_none_left_eq_some, not_not] at h
    obtain ⟨hwaiting, h⟩ := h
    split_ifs at h
    · cases h
      exact hsame _ (by simp) (by simp)
    · cases h
      exact .goesOn (goesOn_runCycle (hidle hwaiting)) (.inl rfl)
  | stop =>
    simp only [act] at h
    rw [Option.ite_none_left_eq_some] at h
    cases h.2
    exact hsame _ (by simp) (by simp)
  | graceExpires =>
    simp only [act] at h
    rw [Option.ite_none_right_eq_some] at h
    cases h.2
    exact hsame _ rfl rfl
  | exit =>
    simp only [act] at h
    split at h
    · rw [Option.ite_none_right_eq_some] at h
      cases h.2
      exact hsame _ rfl rfl
    · cases h
  | crash =>
    cases h
    exact .goesOn (goesOn_of_activeCycle_none rfl rfl) (.inl rfl)
  | abortLease fence =>
    obtain ⟨cycle, hcycle, hout⟩ := Option.map_eq_some_iff.mp h
    cases hout
    obtain ⟨hleases, hschedules, hclaim⟩ := keeps_abortLease fence cycle
    refine .keeps rfl (frame_await ?_ ?_) ?_ (.inr ?_)
    · rw [hleases, fences_eq hcycle]
      exact List.Subset.refl _
    · rw [hschedules, ← remaining_eq hcycle]
      exact hremaining
    · exact hclaim.trans (claim_eq hcycle).symm
    · rw [Worker.job, Worker.job, hcycle]
      cases cycle <;> rfl
  | answer answer =>
    obtain ⟨cycle, hcycle, hout⟩ := Option.bind_eq_some_iff.mp h
    exact effect_advance hcycle hremaining hout

/-! ### Claims -/

/-- A claim is about a lease the process holds, of the source of a schedule it looks at. -/
theorem mem_of_claim (hclaim : w.claim = some claim) :
    claim.schedule ∈ w.remaining ∧
      ∀ fence ∈ claim.fence, fence ∈ w.fences ∧ fence.sourceId = claim.schedule.sourceId := by
  obtain ⟨cycle, hcycle, hclaim⟩ := Option.bind_eq_some_iff.mp hclaim
  rw [remaining_eq hcycle, fences_eq hcycle]
  have hpass : ∀ (pass : Pass) (bound : Bound) (fence : Fence),
      fence ∈ (pass.claim bound).fence →
        fence ∈ pass.leases.map (fun lease => lease.fence) ∧
          fence.sourceId = pass.schedule.sourceId := by
    intro pass bound fence hfence
    obtain ⟨lease, hlease, rfl⟩ := Option.map_eq_some_iff.mp hfence
    unfold Pass.scheduleLease at hlease
    have hfound := List.find?_some hlease
    exact ⟨List.mem_map_of_mem (List.mem_of_find?_eq_some hlease), of_decide_eq_true hfound⟩
  cases cycle with
  | read pass last =>
    cases hclaim
    exact ⟨List.mem_cons_self, hpass pass _⟩
  | running pass request =>
    cases hclaim
    exact ⟨List.mem_cons_self, hpass pass _⟩
  | recording pass request result =>
    cases hclaim
    exact ⟨List.mem_cons_self, hpass pass _⟩
  | acquiring | abandoning | reading | recorded | releasing => cases hclaim

/-- The slots recorded for the source and the job kind of a claim are within its bound, as long as
its lease is the current one; and a request is for a slot of its schedule. -/
structure Claim.Holds (claim : Claim) (store : Store) : Prop where
  within : ∀ fence ∈ claim.fence, store.IsCurrent fence → ∀ row ∈ store.results,
    row.sourceId = claim.schedule.sourceId → row.jobKind = claim.schedule.kind →
      claim.bound.Admits row.scheduledAt
  request : ∀ request, claim.bound = .before request →
    request.sourceId = trim claim.schedule.sourceId ∧ request.kind = claim.schedule.kind ∧
      claim.schedule.IsSlot request.requestedAt

/-- A claim outlives what happens to the leases of others, and to its own. -/
theorem Claim.Holds.mono (h : claim.Holds store) (hresults : store'.results = store.results)
    (hleases : ∀ fence ∈ claim.fence, store'.IsCurrent fence → store.IsCurrent fence) :
    claim.Holds store' where
  within fence hfence hcurrent row hrow :=
    h.within fence hfence (hleases fence hfence hcurrent) row (hresults ▸ hrow)
  request := h.request

/-- The claim of a process that has just read the last recorded slot. -/
theorem claim_holds_of_query
    (hbound : claim.bound = .upTo (store.lastScheduledAt claim.schedule.sourceId claim.schedule.kind)) :
    claim.Holds store where
  within fence hfence hcurrent row hrow hsource hkind := by
    rw [hbound]
    obtain ⟨last, hlast, hle⟩ := Store.lastScheduledAt_le hrow
    rw [hsource, hkind] at hlast
    exact ⟨last, hlast, hle⟩
  request request hrequest := by
    rw [hbound] at hrequest
    cases hrequest

/-- The claim of a process that starts the job that is due. -/
theorem claim_holds_of_start {last now : Option ℤ} {request : WorkerJobRequest}
    (hread : Claim.Holds { claim with bound := .upTo last } store)
    (hdue : newestMissedWorkerJob claim.schedule last now = .ok (some request)) :
    Claim.Holds { claim with bound := .before request } store := by
  obtain ⟨hsource, hkind, hslot, hlater, -⟩ := newestMissedWorkerJob_spec hdue
  refine ⟨?_, ?_⟩
  · intro fence hfence hcurrent row hrow hrowSource hrowKind
    obtain ⟨l, hl, hle⟩ := hread.within fence hfence hcurrent row hrow hrowSource hrowKind
    exact lt_of_le_of_lt hle (hlater l hl)
  · intro r hr
    obtain rfl := Bound.before.inj hr
    exact ⟨hsource, hkind, hslot⟩

end Handleplan.Workers
