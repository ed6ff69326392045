import Handleplan.Worker.RuntimeShutdown

/-!
# Slots of the worker runtime

What a process relies on between reading the last recorded slot and recording its result stays true
as long as its lease is the current one: only the holder of the current lease of a source records
results of that source, and no two processes hold one lease.

## Main definitions

* `Workers.Invariant` — the invariant of all processes.
* `Workers.ScheduleIsKept` — what holds of the recorded slots, of the jobs that start,
  and of processes that are asked to stop.

## Main results

* `Workers.invariant_of_reachable` — the invariant holds in every state reached.
* `Workers.scheduleIsKept` — recorded slots are on the grid and increase, no job starts
  for a slot recorded while the lease is current, and a process that is asked to stop starts no job
  and ends stopped or fatal.
-/

namespace Handleplan.Workers

open JsString

variable {w w' : Worker} {store store' : Store}

/-! ### The invariant -/

/-- Rows of one source and one job kind, in the order of their recording, have increasing slots. -/
def Precedes (a b : WorkerJobResultRecord) : Prop :=
  a.sourceId = b.sourceId → a.jobKind = b.jobKind → a.scheduledAt < b.scheduledAt

/-- A recorded slot lies on the grid of a schedule of some process. -/
def OnGrid (workers : List Worker) (row : WorkerJobResultRecord) : Prop :=
  ∃ w ∈ workers, ∃ schedule ∈ w.schedules, row.sourceId = trim schedule.sourceId ∧
    row.jobKind = schedule.kind ∧ schedule.IsSlot row.scheduledAt

/-- The leases of a store: their tokens have been given out, and each source has one at most. -/
structure Store.Leased (store : Store) : Prop where
  given : ∀ f ∈ store.leases, f.token < store.nextToken
  single : ∀ f ∈ store.leases, ∀ g ∈ store.leases, f.sourceId = g.sourceId → f = g

/-- The invariant of all processes. -/
structure Invariant (s : State) : Prop where
  sound : ∀ w ∈ s.workers, w.Sound
  remaining : ∀ w ∈ s.workers, w.remaining ⊆ w.schedules
  leased : s.store.Leased
  held : ∀ w ∈ s.workers, ∀ f ∈ w.fences, f.token < s.store.nextToken
  exclusive : ∀ (i j : ℕ) (w v : Worker) (f : Fence), s.workers[i]? = some w →
    s.workers[j]? = some v → f ∈ w.fences → f ∈ v.fences → i = j
  claims : ∀ (i : ℕ) (w : Worker) (claim : Claim), s.workers[i]? = some w →
    w.claim = some claim → claim.Holds s.store
  increasing : s.store.results.Pairwise Precedes
  onGrid : ∀ row ∈ s.store.results, OnGrid s.workers row

theorem leased_drop (h : store.Leased) (fence : Fence) : (store.drop fence).Leased where
  given f hf := h.given f (List.mem_filter.mp hf).1
  single f hf g hg := h.single f (List.mem_filter.mp hf).1 g (List.mem_filter.mp hg).1

theorem leased_acquire (h : store.Leased) {sourceId : JsString} {fence : Fence}
    (hacquire : store.acquire sourceId = some (fence, store')) : store'.Leased := by
  obtain ⟨hfree, rfl, rfl⟩ := Store.acquire_spec hacquire
  refine ⟨?_, ?_⟩
  · intro f hf
    obtain rfl | hf := List.mem_cons.mp hf
    · exact Nat.lt_succ_self _
    · exact (h.given f hf).trans (Nat.lt_succ_self _)
  · intro f hf g hg hsource
    obtain rfl | hf := List.mem_cons.mp hf <;> obtain rfl | hg := List.mem_cons.mp hg
    · rfl
    · exact absurd hsource.symm (hfree g hg)
    · exact absurd hsource (hfree f hf)
    · exact h.single f hf g hg hsource

variable {n : ℕ} {s t : State} {event : Event}

/-- A worker of the list after one of them has been replaced. -/
theorem getElem?_set_cases {l : List Worker} {i : ℕ} {v : Worker} (h : (l.set n w')[i]? = some v) :
    (i = n ∧ v = w') ∨ (i ≠ n ∧ l[i]? = some v) := by
  rw [List.getElem?_set] at h
  split_ifs at h with hin hlt
  · exact .inl ⟨hin.symm, (Option.some.inj h).symm⟩
  · exact .inr ⟨fun h' => hin h'.symm, h⟩

/-- **One process steps**, and neither it nor the store gains anything but a fresh fence: what is
particular to a step is that the claims still hold and that the rows are still in order. -/
theorem invariant_set (hinv : Invariant s) (hget : s.workers[n]? = some w) (hsound : w'.Sound)
    {fences : List Fence} (hframe : Frame fences w w') (hleased : store'.Leased)
    (hnext : s.store.nextToken ≤ store'.nextToken)
    (hfences : ∀ f ∈ fences, f ∈ w.fences ∨
      (s.store.nextToken ≤ f.token ∧ f.token < store'.nextToken))
    (hclaims : ∀ (i : ℕ) (v : Worker) (claim : Claim), (s.workers.set n w')[i]? = some v →
      v.claim = some claim → claim.Holds store')
    (hincreasing : store'.results.Pairwise Precedes)
    (honGrid : ∀ row ∈ store'.results, OnGrid s.workers row) :
    Invariant ⟨s.workers.set n w', store'⟩ where
  sound v hv := by
    obtain hv | rfl := List.mem_or_eq_of_mem_set hv
    · exact hinv.sound v hv
    · exact hsound
  remaining v hv := by
    obtain hv | rfl := List.mem_or_eq_of_mem_set hv
    · exact hinv.remaining v hv
    · rw [hframe.schedules]
      exact hframe.remaining
  leased := hleased
  held v hv f hf := by
    obtain hv | rfl := List.mem_or_eq_of_mem_set hv
    · exact (hinv.held v hv f hf).trans_le hnext
    · obtain hold | hnew := hfences f (hframe.fences hf)
      · exact (hinv.held w (List.mem_of_getElem? hget) f hold).trans_le hnext
      · exact hnew.2
  exclusive i j v u f hv hu hfv hfu := by
    -- a fence of the process that steps, seen from another process, is an old one
    have hother : ∀ (k : ℕ) (x : Worker), s.workers[k]? = some x → f ∈ x.fences → f ∈ w'.fences →
        k = n := by
      intro k x hx hfx hfw
      obtain hold | hnew := hfences f (hframe.fences hfw)
      · exact hinv.exclusive k n x w f hx hget hfx hold
      · exact absurd (hinv.held x (List.mem_of_getElem? hx) f hfx) (not_lt.mpr hnew.1)
    obtain ⟨rfl, rfl⟩ | ⟨hi, hv'⟩ := getElem?_set_cases hv <;>
      obtain ⟨rfl, rfl⟩ | ⟨hj, hu'⟩ := getElem?_set_cases hu
    · rfl
    · exact (hother j u hu' hfu hfv).symm
    · exact hother i v hv' hfv hfu
    · exact hinv.exclusive i j v u f hv' hu' hfv hfu
  claims := hclaims
  increasing := hincreasing
  onGrid row hrow := by
    obtain ⟨v, hv, schedule, hschedule, hrest⟩ := honGrid row hrow
    obtain ⟨i, hi⟩ := List.mem_iff_getElem?.mp hv
    by_cases hin : i = n
    · subst hin
      obtain rfl := Option.some.inj (hi.symm.trans hget)
      refine ⟨w', List.mem_iff_getElem?.mpr ⟨i, ?_⟩, schedule, hframe.schedules ▸ hschedule, hrest⟩
      rw [List.getElem?_set_self]
      exact (List.getElem?_eq_some_iff.mp hget).1
    · refine ⟨v, List.mem_iff_getElem?.mpr ⟨i, ?_⟩, schedule, hschedule, hrest⟩
      rw [List.getElem?_set_ne (Ne.symm hin)]
      exact hi

/-- The claims after a step that records nothing: those of the others outlive it, when no lease
becomes current that a process held before. -/
theorem claims_set (hinv : Invariant s) (hresults : store'.results = s.store.results)
    (hleases : ∀ f ∈ store'.leases, f ∈ s.store.leases ∨ s.store.nextToken ≤ f.token)
    (hown : ∀ claim, w'.claim = some claim → claim.Holds store') (i : ℕ) (v : Worker)
    (claim : Claim) (hv : (s.workers.set n w')[i]? = some v) (hclaim : v.claim = some claim) :
    claim.Holds store' := by
  obtain ⟨rfl, rfl⟩ | ⟨hi, hv'⟩ := getElem?_set_cases hv
  · exact hown claim hclaim
  · refine (hinv.claims i v claim hv' hclaim).mono hresults fun f hf hcurrent => ?_
    obtain hold | hnew := hleases f hcurrent
    · exact hold
    · exact absurd (hinv.held v (List.mem_of_getElem? hv') f ((mem_of_claim hclaim).2 f hf).1)
        (not_lt.mpr hnew)

/-- **A result is recorded**: its slot comes after all of its source and job kind, and no other
process relies on there being none. -/
theorem invariant_commit (hinv : Invariant s) (hget : s.workers[n]? = some w) (hsound : w'.Sound)
    {claim : Claim} {fence : Fence} {request : WorkerJobRequest} {result : WorkerRunResult}
    (hgoes : GoesOn w.fences w w') (hclaim : w.claim = some claim)
    (hfence : claim.fence = some fence) (hbound : claim.bound = .before request)
    (hsame : SameIdentity request result)
    (hrecord : s.store.record (resultRecord request result) fence = some store') :
    Invariant ⟨s.workers.set n w', store'⟩ := by
  obtain ⟨hsource, hcurrent, hout⟩ := Store.record_spec hrecord
  obtain ⟨hscope, hmine⟩ := mem_of_claim hclaim
  obtain ⟨hheld, hschedule⟩ := hmine fence hfence
  have hclaims := hinv.claims n w claim hget hclaim
  obtain ⟨hrequestSource, hrequestKind, hslot⟩ := hclaims.request request hbound
  have hrowSource : (resultRecord request result).sourceId = claim.schedule.sourceId :=
    hsource.symm.trans hschedule
  have hrowKind : (resultRecord request result).jobKind = claim.schedule.kind :=
    hsame.2.1.trans hrequestKind
  have hstore : store'.leases = s.store.leases ∧ store'.nextToken = s.store.nextToken ∧
      ∀ row ∈ store'.results, row ∈ s.store.results ∨ row = resultRecord request result := by
    obtain rfl | rfl := hout
    · exact ⟨rfl, rfl, fun row hrow => .inl hrow⟩
    · exact ⟨rfl, rfl, fun row hrow => by simpa using hrow⟩
  obtain ⟨hleases, htoken, hrows⟩ := hstore
  refine invariant_set hinv hget hsound hgoes.toFrame ?_ htoken.ge (fun f hf => .inl hf) ?_ ?_ ?_
  · exact ⟨fun f hf => htoken ▸ hinv.leased.given f (hleases ▸ hf),
      fun f hf g hg => hinv.leased.single f (hleases ▸ hf) g (hleases ▸ hg)⟩
  · intro i v c hv hc
    obtain ⟨rfl, rfl⟩ | ⟨hi, hv'⟩ := getElem?_set_cases hv
    · rw [hgoes.claim] at hc
      cases hc
    · have hold := hinv.claims i v c hv' hc
      refine ⟨fun f hf hfcurrent row hrow hsourceRow hkindRow => ?_, hold.request⟩
      have hfcurrent' : f ∈ s.store.leases := hleases ▸ hfcurrent
      obtain hrow | rfl := hrows row hrow
      · exact hold.within f hf hfcurrent' row hrow hsourceRow hkindRow
      · -- the other process would hold the same lease
        obtain ⟨hfheld, hfsource⟩ := (mem_of_claim hc).2 f hf
        have hff : f = fence := hinv.leased.single f hfcurrent' fence hcurrent
          (hfsource.trans (hsourceRow.symm.trans hsource.symm))
        exact absurd (hinv.exclusive i n v w f hv' hget hfheld (hff ▸ hheld)) hi
  · obtain rfl | rfl := hout
    · exact hinv.increasing
    · refine List.pairwise_append.mpr ⟨hinv.increasing, List.pairwise_singleton _ _, ?_⟩
      intro row hrow new hnew hsourceRow hkindRow
      obtain rfl := List.mem_singleton.mp hnew
      have hwithin := hclaims.within fence hfence hcurrent row hrow
        (hsourceRow.trans hrowSource) (hkindRow.trans hrowKind)
      rw [hbound] at hwithin
      exact hwithin
  · intro row hrow
    obtain hrow | rfl := hrows row hrow
    · exact hinv.onGrid row hrow
    · exact ⟨w, List.mem_of_getElem? hget, claim.schedule,
        hinv.remaining w (List.mem_of_getElem? hget) hscope, hsame.2.2.trans hrequestSource,
        hrowKind, hslot⟩

/-- **A process starts** with nothing: neither a fence nor a claim. -/
theorem invariant_start (hinv : Invariant s) (schedules : List WorkerScheduleDefinition) :
    Invariant { s with workers := s.workers ++ [Worker.fresh schedules] } := by
  have hnew : ∀ (i : ℕ) (v : Worker), (s.workers ++ [Worker.fresh schedules])[i]? = some v →
      s.workers[i]? = some v ∨ v = Worker.fresh schedules := by
    intro i v hv
    rw [List.getElem?_append] at hv
    split_ifs at hv
    · exact .inl hv
    · exact .inr (List.mem_singleton.mp (List.mem_of_getElem? hv))
  have hmem : ∀ v ∈ s.workers ++ [Worker.fresh schedules],
      v ∈ s.workers ∨ v = Worker.fresh schedules := fun v hv => by simpa using hv
  refine ⟨?_, ?_, hinv.leased, ?_, ?_, ?_, hinv.increasing, ?_⟩
  · intro v hv
    obtain hv | rfl := hmem v hv
    · exact hinv.sound v hv
    · exact sound_fresh schedules
  · intro v hv
    obtain hv | rfl := hmem v hv
    · exact hinv.remaining v hv
    · exact List.nil_subset _
  · intro v hv f hf
    obtain hv | rfl := hmem v hv
    · exact hinv.held v hv f hf
    · cases hf
  · intro i j v u f hv hu hfv hfu
    obtain hv | rfl := hnew i v hv
    · obtain hu | rfl := hnew j u hu
      · exact hinv.exclusive i j v u f hv hu hfv hfu
      · cases hfu
    · cases hfv
  · intro i v claim hv hclaim
    obtain hv | rfl := hnew i v hv
    · exact hinv.claims i v claim hv hclaim
    · cases hclaim
  · intro row hrow
    obtain ⟨v, hv, hrest⟩ := hinv.onGrid row hrow
    exact ⟨v, List.mem_append_left _ hv, hrest⟩

/-- **A process steps and leaves the store alone**: what is particular is that its claim holds. -/
theorem invariant_frame (hinv : Invariant s) (hget : s.workers[n]? = some w) (hsound : w'.Sound)
    (hframe : Frame w.fences w w') (hown : ∀ claim, w'.claim = some claim → claim.Holds s.store) :
    Invariant { s with workers := s.workers.set n w' } :=
  invariant_set hinv hget hsound hframe hinv.leased le_rfl (fun _ hf => .inl hf)
    (claims_set hinv rfl (fun _ hf => .inl hf) hown) hinv.increasing hinv.onGrid

/-- **A process gives up its claim**, and the store loses at most a lease. -/
theorem invariant_goesOn (hinv : Invariant s) (hget : s.workers[n]? = some w) (hsound : w'.Sound)
    (hgoes : GoesOn w.fences w w') (hstore : store' = s.store ∨ ∃ f, store' = s.store.drop f) :
    Invariant ⟨s.workers.set n w', store'⟩ := by
  have hleases : store'.leases ⊆ s.store.leases ∧ store'.nextToken = s.store.nextToken ∧
      store'.results = s.store.results ∧ store'.Leased := by
    obtain rfl | ⟨f, rfl⟩ := hstore
    · exact ⟨List.Subset.refl _, rfl, rfl, hinv.leased⟩
    · exact ⟨List.filter_subset_self _, rfl, rfl, leased_drop hinv.leased f⟩
  obtain ⟨hsub, htoken, hresults, hleased⟩ := hleases
  refine invariant_set hinv hget hsound hgoes.toFrame hleased htoken.ge (fun f hf => .inl hf)
    (claims_set hinv hresults (fun f hf => .inl (hsub hf)) fun claim hclaim => ?_)
    (hresults ▸ hinv.increasing) (hresults ▸ hinv.onGrid)
  rw [hgoes.claim] at hclaim
  cases hclaim

/-- **A process acquires a lease**: its fence is fresh. -/
theorem invariant_acquire (hinv : Invariant s) (hget : s.workers[n]? = some w) (hsound : w'.Sound)
    {sourceId : JsString} {fence : Fence}
    (hacquire : s.store.acquire sourceId = some (fence, store'))
    (hgoes : GoesOn (w.fences ++ [fence]) w w') : Invariant ⟨s.workers.set n w', store'⟩ := by
  have hleased := leased_acquire hinv.leased hacquire
  obtain ⟨-, rfl, rfl⟩ := Store.acquire_spec hacquire
  refine invariant_set hinv hget hsound hgoes.toFrame hleased (Nat.le_succ _) ?_
    (claims_set hinv rfl ?_ fun claim hclaim => ?_) hinv.increasing hinv.onGrid
  · intro f hf
    obtain hf | hf := List.mem_append.mp hf
    · exact .inl hf
    · obtain rfl := List.mem_singleton.mp hf
      exact .inr ⟨le_rfl, Nat.lt_succ_self _⟩
  · intro f hf
    obtain rfl | hf := List.mem_cons.mp hf
    · exact .inr le_rfl
    · exact .inl hf
  · rw [hgoes.claim] at hclaim
    cases hclaim

/-- **The invariant of one step.** -/
theorem invariant_next (hinv : Invariant s) (h : next s event = some t) : Invariant t := by
  cases event with
  | start schedules =>
    cases h
    exact invariant_start hinv schedules
  | expire fence =>
    cases h
    exact
      { hinv with
        leased := leased_drop hinv.leased fence
        claims := fun i w claim hget hclaim => (hinv.claims i w claim hget hclaim).mono rfl
          fun f _ hcurrent => (List.mem_filter.mp hcurrent).1 }
  | process n action =>
    obtain ⟨w, hget, h⟩ := Option.bind_eq_some_iff.mp h
    rw [Option.ite_none_left_eq_some] at h
    obtain ⟨⟨w', store'⟩, hact, rfl⟩ := Option.map_eq_some_iff.mp h.2
    have hw := hinv.sound w (List.mem_of_getElem? hget)
    have hsound := sound_act hw hact
    have heffect := effect_act (hinv.remaining w (List.mem_of_getElem? hget))
      (fun hwaiting => hw.idle (by simp [hwaiting])) hact
    cases heffect with
    | goesOn hgoes hstore => exact invariant_goesOn hinv hget hsound hgoes hstore
    | acquires sourceId fence hacquire hgoes =>
      exact invariant_acquire hinv hget hsound hacquire hgoes
    | keeps hstore hframe hclaim hjob =>
      obtain rfl := hstore
      exact invariant_frame hinv hget hsound hframe fun claim hc =>
        hinv.claims n w claim hget (hclaim ▸ hc)
    | queries claim hstore hframe hclaim hbound =>
      obtain rfl := hstore
      refine invariant_frame hinv hget hsound hframe fun c hc => ?_
      obtain rfl := Option.some.inj (hclaim.symm.trans hc)
      exact claim_holds_of_query hbound
    | starts claim last now request hstore hframe haborted hread hclaim hdue =>
      obtain rfl := hstore
      refine invariant_frame hinv hget hsound hframe fun c hc => ?_
      obtain rfl := Option.some.inj (hclaim.symm.trans hc)
      exact claim_holds_of_start (hinv.claims n w _ hget hread) hdue
    | commits claim fence request result hgoes hclaim hfence hbound hsame hrecord =>
      exact invariant_commit hinv hget hsound hgoes hclaim hfence hbound hsame hrecord

/-- **The invariant of every run.** -/
theorem invariant_of_reachable (h : workers.Reachable (fun _ _ => True) s) :
    Invariant s := by
  refine Transitions.System.Reachable.invariant (I := Invariant) ?_
    (fun s event t hinv _ hstep => invariant_next hinv hstep) h
  rintro s rfl
  constructor <;> simp [OnGrid]
  constructor <;> simp

/-! ### Steps of one process among all -/

/-- What a step does to one process: nothing, or the process itself steps. -/
theorem next_worker (h : next s event = some t) (hget : s.workers[n]? = some w) :
    t.workers[n]? = some w ∨ ∃ (action : Action) (w' : Worker),
      t.workers[n]? = some w' ∧ act w s.store action = some (w', t.store) := by
  have hlt := (List.getElem?_eq_some_iff.mp hget).1
  cases event with
  | start schedules =>
    cases h
    refine .inl ?_
    show (s.workers ++ [Worker.fresh schedules])[n]? = some w
    rw [List.getElem?_append_left hlt]
    exact hget
  | expire fence =>
    cases h
    exact .inl hget
  | process m action =>
    obtain ⟨v, hv, h⟩ := Option.bind_eq_some_iff.mp h
    rw [Option.ite_none_left_eq_some] at h
    obtain ⟨⟨v', store'⟩, hact, rfl⟩ := Option.map_eq_some_iff.mp h.2
    by_cases hmn : m = n
    · subst hmn
      obtain rfl := Option.some.inj (hv.symm.trans hget)
      exact .inr ⟨action, v', List.getElem?_set_self hlt, hact⟩
    · refine .inl ?_
      show (s.workers.set m v')[n]? = some w
      rw [List.getElem?_set_ne hmn]
      exact hget

/-- **The start of a job**: the process has read the last recorded slot and has not been asked to
stop, and the job is the one that is due. -/
theorem start_cases {request : WorkerJobRequest} (hinv : Invariant s) (h : next s event = some t)
    (hstarts : Starts s t n w request) :
    ∃ (pass : Pass) (last now : Option ℤ), w.activeCycle = some (.read pass last) ∧
      w.aborted = false ∧ newestMissedWorkerJob pass.schedule last now = .ok (some request) := by
  obtain ⟨hget, hidle, w', hget', hjob⟩ := hstarts
  obtain hsame | ⟨action, v, hv, hact⟩ := next_worker h hget
  · obtain rfl := Option.some.inj (hsame.symm.trans hget')
    rw [hidle] at hjob
    cases hjob
  · obtain rfl := Option.some.inj (hv.symm.trans hget')
    obtain ⟨pass, hpass⟩ : ∃ pass, v.activeCycle = some (.running pass request) := by
      unfold Worker.job at hjob
      split at hjob
      · rename_i pass r hcycle
        exact ⟨pass, (Option.some.inj hjob) ▸ hcycle⟩
      · cases hjob
    have hclaim' : v.claim = some (pass.claim (.before request)) := by
      rw [Worker.claim, hpass]
      rfl
    have hw := hinv.sound w (List.mem_of_getElem? hget)
    cases effect_act (hinv.remaining w (List.mem_of_getElem? hget))
        (fun hwaiting => hw.idle (by simp [hwaiting])) hact with
    | goesOn hgoes | acquires _ _ _ hgoes | commits _ _ _ _ hgoes =>
      rw [hgoes.claim] at hclaim'
      cases hclaim'
    | keeps hstore hframe hclaim hkept =>
      obtain hnone | heq := hkept
      · rw [hnone] at hjob
        cases hjob
      · rw [heq, hidle] at hjob
        cases hjob
    | queries claim hstore hframe hclaim hbound =>
      obtain rfl := Option.some.inj (hclaim.symm.trans hclaim')
      cases hbound
    | starts claim last now due hstore hframe haborted hread hclaim hdue =>
      have hc := Option.some.inj (hclaim.symm.trans hclaim')
      obtain ⟨cycle, hcycle, hcycleClaim⟩ := Option.bind_eq_some_iff.mp hread
      have hdueRequest : due = request := Bound.before.inj (congrArg Claim.bound hc)
      cases cycle with
      | read read l =>
        have hr := Option.some.inj hcycleClaim
        have hl : l = last := Bound.upTo.inj (congrArg Claim.bound hr)
        have hs : read.schedule = claim.schedule := congrArg Claim.schedule hr
        subst hl hdueRequest
        exact ⟨read, l, now, hcycle, haborted, hs ▸ hdue⟩
      | running p r =>
        have := congrArg Claim.bound (Option.some.inj hcycleClaim)
        cases this
      | recording p r result =>
        have := congrArg Claim.bound (Option.some.inj hcycleClaim)
        cases this
      | acquiring | abandoning | reading | recorded | releasing => cases hcycleClaim

/-! ### The schedule is kept -/

/-- The rows recorded for a schedule. -/
def RecordedFor (schedule : WorkerScheduleDefinition) (row : WorkerJobResultRecord) : Prop :=
  row.sourceId = schedule.sourceId ∧ row.jobKind = schedule.kind

/-- What holds of the recorded slots, of the jobs that start, and of processes that are asked to
stop. -/
structure ScheduleIsKept (s : State) : Prop where
  /-- The slots of one source and job kind increase in the order of their recording. -/
  increasing : s.store.results.Pairwise Precedes
  /-- Every recorded slot is the anchor and some intervals of a schedule. -/
  onGrid : ∀ row ∈ s.store.results, OnGrid s.workers row
  /-- The slot a process reads is no earlier than any recorded at that time. -/
  reads : ∀ (event : Event) (t : State) (n : ℕ) (w w' : Worker) (pass : Pass) (last : Option ℤ),
    next s event = some t → s.workers[n]? = some w → t.workers[n]? = some w' →
    w.claim = none → w'.activeCycle = some (.read pass last) →
    ∀ row ∈ s.store.results, RecordedFor pass.schedule row → ∃ l ∈ last, row.scheduledAt ≤ l
  /-- A job starts for a slot later than the one read, and than all recorded while the lease is the
  current one. -/
  starts : ∀ (event : Event) (t : State) (n : ℕ) (w : Worker) (request : WorkerJobRequest),
    next s event = some t → Starts s t n w request →
    ∃ (pass : Pass) (last : Option ℤ), w.activeCycle = some (.read pass last) ∧
      (∀ l ∈ last, l < request.requestedAt) ∧
      ∀ lease ∈ pass.scheduleLease, s.store.IsCurrent lease.fence →
        ∀ row ∈ s.store.results, RecordedFor pass.schedule row →
          row.scheduledAt < request.requestedAt
  /-- A process that has been asked to stop starts no job, and its status only moves on to stopped
  or fatal. -/
  drains : ∀ (n : ℕ) (w : Worker), s.workers[n]? = some w → w.shutdown ≠ none →
    (w.status = .draining ∨ w.status = .stopped ∨ w.status = .fatal) ∧
    ∀ (event : Event) (t : State), next s event = some t →
      (∀ v request, ¬ Starts s t n v request) ∧
      ∃ w', t.workers[n]? = some w' ∧ w'.shutdown ≠ none ∧ MovesOn w.status w'.status
  /-- A fatal process stays fatal. -/
  fatal : ∀ (n : ℕ) (w : Worker), s.workers[n]? = some w → w.status = .fatal →
    ∀ (event : Event) (t : State), next s event = some t →
      ∃ w', t.workers[n]? = some w' ∧ w'.status = .fatal
  /-- The exit code is 0 only while the process is not fatal, and so is the one the supervisor
  returns. -/
  exitCode : ∀ w ∈ s.workers, (w.exitCode = 0 ↔ w.status ≠ .fatal) ∧
    ∀ code, w.supervision = .exited code → code = 0 → w.status ≠ .fatal

/-- **The schedule is kept** in every run of any number of worker processes.

**Proof sketch.** The invariant carries what each process relies on between reading the last
recorded slot and recording its result. A row is only added under the current lease of its source;
the process that adds it knows that all slots of that source and job kind lie before its own, and
no other process relies on the same lease. -/
theorem scheduleIsKept (h : workers.Reachable (fun _ _ => True) s) :
    ScheduleIsKept s := by
  have hinv := invariant_of_reachable h
  refine ⟨hinv.increasing, hinv.onGrid, ?_, ?_, ?_, ?_, ?_⟩
  · intro event t n w w' pass last hnext hget hget' hclaim hcycle row hrow hfor
    have hclaim' : w'.claim = some (pass.claim (.upTo last)) := by
      rw [Worker.claim, hcycle]
      rfl
    obtain hsame | ⟨action, v, hv, hact⟩ := next_worker hnext hget
    · obtain rfl := Option.some.inj (hsame.symm.trans hget')
      rw [hclaim] at hclaim'
      cases hclaim'
    · obtain rfl := Option.some.inj (hv.symm.trans hget')
      have hw := hinv.sound w (List.mem_of_getElem? hget)
      cases effect_act (hinv.remaining w (List.mem_of_getElem? hget))
          (fun hwaiting => hw.idle (by simp [hwaiting])) hact with
      | goesOn hgoes | acquires _ _ _ hgoes | commits _ _ _ _ hgoes =>
        rw [hgoes.claim] at hclaim'
        cases hclaim'
      | keeps _ _ hkept =>
        rw [hkept, hclaim] at hclaim'
        cases hclaim'
      | queries claim _ _ hnew hbound =>
        obtain rfl := Option.some.inj (hnew.symm.trans hclaim')
        obtain ⟨l, hl, hle⟩ := Store.lastScheduledAt_le hrow
        rw [hfor.1, hfor.2] at hl
        exact ⟨l, (Bound.upTo.inj hbound).trans hl, hle⟩
      | starts claim _ _ _ _ _ _ _ hnew =>
        have := congrArg Claim.bound (Option.some.inj (hnew.symm.trans hclaim'))
        cases this
  · intro event t n w request hnext hstarts
    obtain ⟨pass, last, now, hcycle, -, hdue⟩ := start_cases hinv hnext hstarts
    obtain ⟨-, -, -, hlater, -⟩ := newestMissedWorkerJob_spec hdue
    have hclaim : w.claim = some (pass.claim (.upTo last)) := by
      rw [Worker.claim, hcycle]
      rfl
    refine ⟨pass, last, hcycle, hlater, fun lease hlease hcurrent row hrow hfor => ?_⟩
    obtain ⟨l, hl, hle⟩ := (hinv.claims n w _ hstarts.1 hclaim).within lease.fence
      (Option.mem_map_of_mem _ hlease) hcurrent row hrow hfor.1 hfor.2
    exact lt_of_le_of_lt hle (hlater l hl)
  · intro n w hget hasked
    have hw := hinv.sound w (List.mem_of_getElem? hget)
    refine ⟨hw.drains hasked, fun event t hnext => ⟨fun v request hstarts => ?_, ?_⟩⟩
    · obtain rfl := Option.some.inj (hget.symm.trans hstarts.1)
      obtain ⟨-, -, -, -, haborted, -⟩ := start_cases hinv hnext hstarts
      rw [hw.aborts hasked] at haborted
      cases haborted
    · obtain hsame | ⟨action, w', hget', hact⟩ := next_worker hnext hget
      · exact ⟨w, hsame, hasked, .inl rfl⟩
      · exact ⟨w', hget', (movesOn_act hw hact).1 hasked⟩
  · intro n w hget hfatal event t hnext
    have hw := hinv.sound w (List.mem_of_getElem? hget)
    obtain hsame | ⟨action, w', hget', hact⟩ := next_worker hnext hget
    · exact ⟨w, hsame, hfatal⟩
    · exact ⟨w', hget', (movesOn_act hw hact).2 hfatal⟩
  · intro w hw
    have hsound := hinv.sound w hw
    refine ⟨?_, fun code hcode => (hsound.exited code hcode).2⟩
    rw [hsound.exit]
    split_ifs with hfatal <;> simp [hfatal]

/-! ### A lease that is taken over -/

/-- A schedule with a slot every second. -/
def everySecond : WorkerScheduleDefinition where
  anchorAt := some 0
  intervalMs := 1000
  kind := .catalogRefresh
  sourceId := js "kassalapp"
  timeoutMs := 1000

/-- What the runner reports of a job that had nothing to do. -/
def nothingToDo : WorkerRunReport where
  completedAt := 6000
  counters := ⟨0, 0, 0, 0, 0, 0⟩
  runId := js "run"
  startedAt := 5000
  status := .succeeded

/-- Process 0 reads the last recorded slot, and its lease expires before the answer arrives; process
1 takes over and records the slot of 5000 ms. -/
def takenOver : List Event :=
  [.start [everySecond], .start [everySecond],
    .process 0 .wake, .process 0 (.answer .acquired), .process 0 (.answer .queried),
    .expire ⟨js "kassalapp", 0⟩,
    .process 1 .wake, .process 1 (.answer .acquired), .process 1 (.answer .queried),
    .process 1 (.answer (.clock (some 5000))), .process 1 (.answer (.reported nothingToDo)),
    .process 1 (.answer .committed)]

/-- The states before the first process starts. -/
def noProcess : State := ⟨[], ⟨[], [], 0⟩⟩

theorem scheduleIsKept_takenOver : ∃ s, workers.run noProcess takenOver = some s ∧
    s.store.results.map (fun row => row.scheduledAt) = [5000] ∧ ScheduleIsKept s := by
  obtain ⟨s, hs⟩ := Option.isSome_iff_exists.mp
    (by decide +kernel : (workers.run noProcess takenOver).isSome = true)
  have hslots : (workers.run noProcess takenOver).all (fun s =>
      s.store.results.map (fun row => row.scheduledAt) = [5000]) = true := by decide +kernel
  rw [hs] at hslots
  exact ⟨s, hs, of_decide_eq_true hslots, scheduleIsKept (.run (.init rfl) hs)⟩

/-- **A job of a recorded slot starts**: the answer reaches process 0 before the loss of its lease
does, and it starts the job of 5000 ms once more. -/
theorem not_starts_after_every_recorded_slot :
    ¬ ∀ (s t : State) (event : Event) (n : ℕ) (w : Worker) (request : WorkerJobRequest),
      workers.Reachable (fun _ _ => True) s → next s event = some t → Starts s t n w request →
      ∀ row ∈ s.store.results, row.sourceId = request.sourceId → row.jobKind = request.kind →
        row.scheduledAt < request.requestedAt := by
  intro hclaim
  obtain ⟨s, hs⟩ := Option.isSome_iff_exists.mp
    (by decide +kernel : (workers.run noProcess takenOver).isSome = true)
  -- what the run leads to, evaluated
  have hrun : (workers.run noProcess takenOver).all (fun s =>
      (next s (.process 0 (.answer (.clock (some 5500))))).any fun t =>
        (s.workers[0]?).any fun w => (t.workers[0]?).any fun w' =>
          (w'.job).any fun request => s.store.results.any fun row =>
            w.job = none ∧ row.sourceId = request.sourceId ∧ row.jobKind = request.kind ∧
              ¬ row.scheduledAt < request.requestedAt) = true := by decide +kernel
  rw [hs] at hrun
  simp only [Option.all_some, Option.any_eq_true, List.any_eq_true, decide_eq_true_eq] at hrun
  obtain ⟨t, ht, w, hw, w', hw', request, hjob, row, hrow, hidle, hsource, hkind, hnot⟩ := hrun
  exact hnot (hclaim s t _ 0 w request (.run (.init rfl) hs) ht ⟨hw, hidle, w', hw', hjob⟩ row hrow
    hsource hkind)

end Handleplan.Workers
