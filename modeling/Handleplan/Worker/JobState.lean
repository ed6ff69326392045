import Handleplan.Worker.Schedule

/-!
# Recorded results and leases

The two stores all worker processes share. A result is recorded in a transaction that only commits
while the fence of the recording process is the current one: the lease row stays locked from its
last check to the commit.

## Main definitions

* `Workers.WorkerRunResult`, `WorkerJobResultRecord` — what a run reports, and the row
  that is recorded of it.
* `Workers.Store` — the recorded rows and the leases.
* `Workers.Store.acquire`, `Store.record`, `Store.lastScheduledAt` — the operations on
  it.

## Main results

* `Workers.Store.record_spec` — a committed transaction adds the row of the call, under a
  current fence, or finds it recorded already.
* `Workers.Store.acquire_spec` — a granted lease is fresh and the only one of its source.

## Implementation notes

A lease key is the digest of a source identifier and stands for it. A fence token carries the
generation of its lease, which no other lease of that key has or had; here every lease has its own
number. A result hash stands for the row it is computed from.
-/

namespace Handleplan.Workers

open JsString

/-! ### Results -/

/-- `WorkerJobStateStatus`. -/
inductive WorkerJobStateStatus where
  | succeeded | partly | cancelled | timedOut | failed
  deriving DecidableEq

/-- `WorkerRunCounters`. -/
structure WorkerRunCounters where
  accepted : ℕ
  failed : ℕ
  fetched : ℕ
  persisted : ℕ
  quarantined : ℕ
  unknown : ℕ
  deriving DecidableEq

/-- `WorkerRunResult`. -/
structure WorkerRunResult where
  completedAt : ℤ
  counters : WorkerRunCounters
  jobId : JsString
  kind : WorkerJobKind
  runId : JsString
  sourceId : JsString
  startedAt : ℤ
  status : WorkerJobStateStatus

/-- `WorkerJobResultRecord`. -/
structure WorkerJobResultRecord where
  completedAt : ℤ
  counts : WorkerRunCounters
  jobId : JsString
  jobKind : WorkerJobKind
  runId : JsString
  scheduledAt : ℤ
  sourceId : JsString
  startedAt : ℤ
  status : WorkerJobStateStatus
  deriving DecidableEq

/-- `requireIdentifier`: 1 to `maximum` code units, not all of them white space. -/
def RequireIdentifier (value : JsString) (maximum : ℕ) : Prop :=
  1 ≤ value.length ∧ value.length ≤ maximum ∧ 1 ≤ (trim value).length

instance (value : JsString) (maximum : ℕ) : Decidable (RequireIdentifier value maximum) :=
  inferInstanceAs (Decidable (_ ∧ _ ∧ _))

/-- `canonicalCounters`. -/
def CanonicalCounters (counts : WorkerRunCounters) : Prop :=
  (∀ n ∈ [counts.accepted, counts.failed, counts.fetched, counts.persisted, counts.quarantined,
      counts.unknown], NonNegativeSafeInteger n) ∧
    counts.fetched = counts.accepted + counts.quarantined + counts.unknown ∧
    counts.persisted = counts.fetched

instance : DecidablePred CanonicalCounters := fun _ => inferInstanceAs (Decidable (_ ∧ _ ∧ _))

/-- `canonicalWorkerJobResult`, as the condition under which it does not throw. -/
def CanonicalWorkerJobResult (input : WorkerJobResultRecord) : Prop :=
  RequireIdentifier input.jobId 200 ∧ RequireIdentifier input.runId 200 ∧
    RequireIdentifier input.sourceId 64 ∧
    ¬ (input.completedAt < input.startedAt ∨ input.completedAt < input.scheduledAt) ∧
    CanonicalCounters input.counts ∧
    ¬ (input.status = .succeeded ∧ input.counts.failed ≠ 0) ∧
    ¬ (input.status = .partly ∧ (input.counts.failed = 0 ∨ input.counts.fetched = 0)) ∧
    ¬ (input.status = .failed ∧ (input.counts.failed = 0 ∨ input.counts.fetched ≠ 0))

instance : DecidablePred CanonicalWorkerJobResult :=
  fun _ => inferInstanceAs (Decidable (_ ∧ _ ∧ _ ∧ _ ∧ _ ∧ _ ∧ _ ∧ _))

/-- The row `recordResult` makes of a request and its result. -/
def resultRecord (request : WorkerJobRequest) (result : WorkerRunResult) : WorkerJobResultRecord where
  completedAt := result.completedAt
  counts := result.counters
  jobId := result.jobId
  jobKind := result.kind
  runId := result.runId
  scheduledAt := request.requestedAt
  sourceId := result.sourceId
  startedAt := result.startedAt
  status := result.status

/-- `recordResult`, its identity check. -/
def SameIdentity (request : WorkerJobRequest) (result : WorkerRunResult) : Prop :=
  result.jobId = request.jobId ∧ result.kind = request.kind ∧ result.sourceId = request.sourceId

instance (request : WorkerJobRequest) (result : WorkerRunResult) :
    Decidable (SameIdentity request result) :=
  inferInstanceAs (Decidable (_ ∧ _ ∧ _))

/-! ### Stores -/

/-- A lease: the key it was acquired for and its fence token. -/
structure Fence where
  sourceId : JsString
  token : ℕ
  deriving DecidableEq

/-- The recorded rows in the order of their recording, the leases that have not expired, and the
token of the next lease. -/
structure Store where
  results : List WorkerJobResultRecord
  leases : List Fence
  nextToken : ℕ

namespace Store

variable (store : Store)

/-- `lockCurrentFence`: the lease of the key is the one of the token, and has not expired. -/
def IsCurrent (fence : Fence) : Prop := fence ∈ store.leases

instance (store : Store) (fence : Fence) : Decidable (store.IsCurrent fence) :=
  inferInstanceAs (Decidable (fence ∈ store.leases))

/-- `claimLease`: a lease of a source nobody holds. -/
def acquire (sourceId : JsString) : Option (Fence × Store) :=
  if ∃ lease ∈ store.leases, lease.sourceId = sourceId then none
  else
    let fence : Fence := ⟨sourceId, store.nextToken⟩
    some (fence, { store with leases := fence :: store.leases, nextToken := store.nextToken + 1 })

/-- The store without a lease: it has been released or has expired. -/
def drop (fence : Fence) : Store :=
  { store with leases := store.leases.filter fun lease => lease ≠ fence }

/-- `getLastScheduledAt`: the latest slot recorded for a source and a job kind. -/
def lastScheduledAt (sourceId : JsString) (jobKind : WorkerJobKind) : Option ℤ :=
  ((store.results.filter fun row => row.sourceId = sourceId ∧ row.jobKind = jobKind).map
    fun row => row.scheduledAt).max?

/-- `record`, its transaction, when no statement of it fails: `none` when it throws. -/
def record (value : WorkerJobResultRecord) (fence : Fence) : Option Store :=
  if ¬ CanonicalWorkerJobResult value then none
  else if ¬ (fence.sourceId = value.sourceId ∧ store.IsCurrent fence) then none
  else match store.results.find? fun row => row.jobId = value.jobId with
    | none => some { store with results := store.results ++ [value] }
    | some existing => if existing = value then some store else none

theorem lastScheduledAt_le {store : Store} {row : WorkerJobResultRecord}
    (hrow : row ∈ store.results) :
    ∃ last, store.lastScheduledAt row.sourceId row.jobKind = some last ∧ row.scheduledAt ≤ last := by
  have hmem : row.scheduledAt ∈ (store.results.filter fun r =>
      r.sourceId = row.sourceId ∧ r.jobKind = row.jobKind).map fun r => r.scheduledAt :=
    List.mem_map_of_mem (List.mem_filter.mpr ⟨hrow, by simp⟩)
  obtain ⟨last, hlast⟩ := Option.isSome_iff_exists.mp
    (List.isSome_max?_of_mem hmem)
  exact ⟨last, hlast, (List.max?_le_iff hlast).mp le_rfl _ hmem⟩

/-- **What a committed transaction does**: under a current fence of the row's source it adds the
row, or finds the same row recorded already. -/
theorem record_spec {store t : Store} {value : WorkerJobResultRecord} {fence : Fence}
    (h : store.record value fence = some t) :
    fence.sourceId = value.sourceId ∧ store.IsCurrent fence ∧
      (t = store ∨ t = { store with results := store.results ++ [value] }) := by
  unfold record at h
  by_cases hcanonical : CanonicalWorkerJobResult value
  · rw [if_neg (not_not.mpr hcanonical)] at h
    by_cases hfence : fence.sourceId = value.sourceId ∧ store.IsCurrent fence
    · rw [if_neg (not_not.mpr hfence)] at h
      refine ⟨hfence.1, hfence.2, ?_⟩
      cases hfind : store.results.find? fun row => row.jobId = value.jobId with
      | none =>
        rw [hfind] at h
        exact .inr (Option.some.inj h).symm
      | some existing =>
        simp only [hfind, Option.ite_none_right_eq_some] at h
        exact .inl (Option.some.inj h.2).symm
    · rw [if_pos hfence] at h
      cases h
  · rw [if_pos hcanonical] at h
    cases h

/-- A granted lease is a fresh one of a source nobody held a lease of. -/
theorem acquire_spec {store t : Store} {sourceId : JsString} {fence : Fence}
    (h : store.acquire sourceId = some (fence, t)) :
    (∀ lease ∈ store.leases, lease.sourceId ≠ sourceId) ∧ fence = ⟨sourceId, store.nextToken⟩ ∧
      t = { store with leases := fence :: store.leases, nextToken := store.nextToken + 1 } := by
  unfold acquire at h
  rw [Option.ite_none_left_eq_some] at h
  obtain ⟨hfree, h⟩ := h
  cases h
  exact ⟨fun lease hlease hsource => hfree ⟨lease, hlease, hsource⟩, rfl, rfl⟩

end Store

end Handleplan.Workers
