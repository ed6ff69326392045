import Handleplan.Domain.Primitives

/-!
# Due slots of the worker

A schedule of the worker has an anchor and an interval. The job that is due at some instant is the
one of the newest slot that is not after it, unless a result of that slot or of a later one is
recorded.

## Main definitions

* `Workers.WorkerScheduleDefinition`, `WorkerJobRequest` — schedules, and the requests
  made from them.
* `Workers.newestMissedWorkerJob` — the job that is due.

## Main results

* `Workers.newestMissedWorkerJob_spec` — the slot of a due job lies on the grid of its
  schedule and after the last recorded slot.

## Implementation notes

An anchor that is not a canonical timestamp is `none`, and so is an invalid date.
-/

namespace Handleplan.Workers

open JsString

/-! ### Texts -/

/-- A number as decimal text of at least the given length. -/
def padded (length n : ℕ) : JsString :=
  List.replicate (length - (JsString.ofNat n).length) 48 ++ JsString.ofNat n

/-- `new Date(ms).toISOString()`: the Gregorian date by eras of 400 years, counted from March. -/
def toISOString (ms : ℤ) : JsString :=
  let days := ms / 86400000
  let time := (ms % 86400000).toNat
  let z := days + 719468
  let era := z / 146097
  let doe := (z % 146097).toNat
  let yoe := (doe - doe / 1460 + doe / 36524 - doe / 146096) / 365
  let doy := doe - (365 * yoe + yoe / 4 - yoe / 100)
  let mp := (5 * doy + 2) / 153
  let day := doy - (153 * mp + 2) / 5 + 1
  let month := if mp < 10 then mp + 3 else mp - 9
  let year : ℤ := yoe + era * 400 + if month ≤ 2 then 1 else 0
  let yearText :=
    if year < 0 then js "-" ++ padded 6 year.natAbs
    else if 9999 < year then js "+" ++ padded 6 year.natAbs
    else padded 4 year.natAbs
  yearText ++ js "-" ++ padded 2 month ++ js "-" ++ padded 2 day ++ js "T" ++
    padded 2 (time / 3600000) ++ js ":" ++ padded 2 (time / 60000 % 60) ++ js ":" ++
    padded 2 (time / 1000 % 60) ++ js "." ++ padded 3 (time % 1000) ++ js "Z"

/-- A code unit of the text of a time: a decimal digit or a mark. -/
def IsTimeUnit (u : UInt16) : Prop := (48 ≤ u ∧ u ≤ 57) ∨ u ∈ js "+-.:TZ"

instance : DecidablePred IsTimeUnit := fun _ => inferInstanceAs (Decidable (_ ∨ _))

theorem isTimeUnit_of_mem_padded {length n : ℕ} {u : UInt16} (hu : u ∈ padded length n) :
    IsTimeUnit u := by
  rcases List.mem_append.mp hu with hu | hu
  · rw [List.eq_of_mem_replicate hu]
    decide
  · exact .inl (mem_ofNat hu)

theorem isTimeUnit_of_mem_mark {mark : JsString} {u : UInt16} (hmark : ∀ v ∈ mark, IsTimeUnit v)
    (hu : u ∈ mark) : IsTimeUnit u :=
  hmark u hu

theorem isTimeUnit_of_mem_year {year : ℤ} {u : UInt16}
    (hu : u ∈ if year < 0 then js "-" ++ padded 6 year.natAbs
      else if 9999 < year then js "+" ++ padded 6 year.natAbs else padded 4 year.natAbs) :
    IsTimeUnit u := by
  split_ifs at hu
  · rcases List.mem_append.mp hu with hu | hu
    · exact isTimeUnit_of_mem_mark (by decide) hu
    · exact isTimeUnit_of_mem_padded hu
  · rcases List.mem_append.mp hu with hu | hu
    · exact isTimeUnit_of_mem_mark (by decide) hu
    · exact isTimeUnit_of_mem_padded hu
  · exact isTimeUnit_of_mem_padded hu

/-- The text of a time consists of digits and marks. -/
theorem isTimeUnit_of_mem_toISOString {ms : ℤ} {u : UInt16} (hu : u ∈ toISOString ms) :
    IsTimeUnit u := by
  unfold toISOString at hu
  simp only [List.mem_append, or_assoc] at hu
  rcases hu with hu | hu | hu | hu | hu | hu | hu | hu | hu | hu | hu | hu | hu | hu
  · exact isTimeUnit_of_mem_year hu
  all_goals first
    | exact isTimeUnit_of_mem_padded hu
    | exact isTimeUnit_of_mem_mark (by decide) hu

/-- A 64-bit number as sixteen hexadecimal digits. -/
def hex16 (n : UInt64) : JsString :=
  (List.range 16).reverse.map fun i => digit36 (n.toNat / 16 ^ i % 16)

/-- `stableHash`: FNV-1a on 64 bits, over the code units of a text. -/
def stableHash (input : JsString) : JsString :=
  hex16 (input.foldl (fun hash u => (hash ^^^ u.toUInt64) * 0x100000001b3) 0xcbf29ce484222325)

/-! ### Schedules and requests -/

/-- `WorkerJobKind`. -/
inductive WorkerJobKind where
  | catalogRefresh | benchmarkPriceRefresh | storeCatalogPriceRefresh | physicalStoreSync
  | historicalObservationCollection | openPricesBenchmarkRefresh | officialOfferDiscovery
  | officialOfferFetch | officialOfferIngestion | officialOfferLifecycleReconcile
  deriving DecidableEq

/-- The name of a job kind. -/
def WorkerJobKind.text : WorkerJobKind → JsString
  | .catalogRefresh => js "catalog-refresh"
  | .benchmarkPriceRefresh => js "benchmark-price-refresh"
  | .storeCatalogPriceRefresh => js "store-catalog-price-refresh"
  | .physicalStoreSync => js "physical-store-sync"
  | .historicalObservationCollection => js "historical-observation-collection"
  | .openPricesBenchmarkRefresh => js "open-prices-benchmark-refresh"
  | .officialOfferDiscovery => js "official-offer-discovery"
  | .officialOfferFetch => js "official-offer-fetch"
  | .officialOfferIngestion => js "official-offer-ingestion"
  | .officialOfferLifecycleReconcile => js "official-offer-lifecycle-reconcile"

/-- `WorkerScheduleDefinition`. -/
structure WorkerScheduleDefinition where
  anchorAt : Option ℤ
  intervalMs : ℕ
  kind : WorkerJobKind
  sourceId : JsString
  timeoutMs : ℕ

/-- `WorkerJobRequest`. -/
structure WorkerJobRequest where
  jobId : JsString
  kind : WorkerJobKind
  requestedAt : ℤ
  sourceId : JsString
  timeoutMs : ℕ
  deriving DecidableEq

/-- `workerJobRequestSchema`. -/
def WorkerJobRequestSchema (request : WorkerJobRequest) : Prop :=
  IdentifierSchema request.jobId ∧ CanonicalTimestamp request.requestedAt ∧
    IdentifierSchema request.sourceId ∧ 1 ≤ request.timeoutMs ∧
    request.timeoutMs ≤ 15 * 60 * 1000

instance : DecidablePred WorkerJobRequestSchema :=
  fun _ => inferInstanceAs (Decidable (_ ∧ _ ∧ _ ∧ _ ∧ _))

/-- `MAX_INTERVAL_MS`. -/
def maxIntervalMs : ℕ := 365 * 24 * 60 * 60 * 1000

/-- `MAX_JOB_ID_LENGTH`. -/
def maxJobIdLength : ℕ := 200

/-- `stableJobId`. -/
def stableJobId (sourceId : JsString) (kind : WorkerJobKind) (requestedAt : ℤ) : JsString :=
  let tail := js ":" ++ kind.text ++ js ":" ++ toISOString requestedAt
  let fullId := sourceId ++ tail
  if fullId.length ≤ maxJobIdLength then fullId
  else
    let suffix := js "~" ++ stableHash fullId ++ tail
    sourceId.take (maxJobIdLength - suffix.length) ++ suffix

/-- The errors `newestMissedWorkerJob` throws. -/
inductive ScheduleError where
  | intervalMs | anchorAt | now | delta | slot | request
  deriving DecidableEq

variable (schedule : WorkerScheduleDefinition)

/-- `validateSchedule`: the anchor in milliseconds. -/
def validateSchedule : Except ScheduleError ℤ :=
  if schedule.intervalMs < 1 ∨ maxIntervalMs < schedule.intervalMs then .error .intervalMs
  else match schedule.anchorAt with
    | none => .error .anchorAt
    | some anchorMs => .ok anchorMs

/-- `newestMissedWorkerJob`. -/
def newestMissedWorkerJob (lastScheduledAt : Option ℤ) (now : Option ℤ) :
    Except ScheduleError (Option WorkerJobRequest) :=
  match validateSchedule schedule with
  | .error e => .error e
  | .ok anchorMs =>
    match now with
    | none => .error .now
    | some nowMs =>
      if nowMs < anchorMs then .ok none
      else if (maxSafeInteger : ℤ) < nowMs - anchorMs then .error .delta
      else
        let slotIndex := (nowMs - anchorMs) / schedule.intervalMs
        let slotMs := anchorMs + slotIndex * schedule.intervalMs
        if maxSafeInteger < slotMs.natAbs then .error .slot
        else if ∃ last ∈ lastScheduledAt, slotMs ≤ last then .ok none
        else
          let sourceId := trim schedule.sourceId
          let request : WorkerJobRequest :=
            { jobId := stableJobId sourceId schedule.kind slotMs
              kind := schedule.kind
              requestedAt := slotMs
              sourceId := sourceId
              timeoutMs := schedule.timeoutMs }
          if WorkerJobRequestSchema request then .ok (some request) else .error .request

/-- An instant on the grid of a schedule: its anchor and a number of intervals. -/
def WorkerScheduleDefinition.IsSlot (slot : ℤ) : Prop :=
  ∃ anchor ∈ schedule.anchorAt, ∃ k : ℕ, slot = anchor + k * schedule.intervalMs

/-- **The slot of a due job**: the job is the one its schedule asks for, its slot lies on the grid
of the schedule, and after the last recorded slot. -/
theorem newestMissedWorkerJob_spec {schedule : WorkerScheduleDefinition} {last now : Option ℤ}
    {request : WorkerJobRequest}
    (h : newestMissedWorkerJob schedule last now = .ok (some request)) :
    request.sourceId = trim schedule.sourceId ∧ request.kind = schedule.kind ∧
      schedule.IsSlot request.requestedAt ∧ (∀ l ∈ last, l < request.requestedAt) ∧
      WorkerJobRequestSchema request := by
  unfold newestMissedWorkerJob at h
  cases hanchor : validateSchedule schedule with
  | error e => simp [hanchor] at h
  | ok anchorMs =>
    have hschedule : schedule.anchorAt = some anchorMs := by
      unfold validateSchedule at hanchor
      rw [ite_error_eq_ok_iff] at hanchor
      cases hat : schedule.anchorAt with
      | none => simp [hat] at hanchor
      | some a => simpa [hat] using hanchor.2
    cases now with
    | none => simp [hanchor] at h
    | some nowMs =>
      simp only [hanchor] at h
      by_cases hbefore : nowMs < anchorMs
      · rw [if_pos hbefore] at h
        cases h
      rw [if_neg hbefore, ite_error_eq_ok_iff, ite_error_eq_ok_iff] at h
      obtain ⟨-, -, h⟩ := h
      by_cases hlast : ∃ l ∈ last,
          anchorMs + (nowMs - anchorMs) / schedule.intervalMs * schedule.intervalMs ≤ l
      · rw [if_pos hlast] at h
        cases h
      rw [if_neg hlast, ite_ok_eq_ok_iff, Option.some_inj] at h
      obtain ⟨hschema, rfl⟩ := h
      refine ⟨rfl, rfl, ⟨anchorMs, hschedule, ?_⟩, ?_, hschema⟩
      · have hindex : 0 ≤ (nowMs - anchorMs) / (schedule.intervalMs : ℤ) :=
          Int.ediv_nonneg (by omega) (by omega)
        refine ⟨((nowMs - anchorMs) / (schedule.intervalMs : ℤ)).toNat, ?_⟩
        rw [Int.toNat_of_nonneg hindex]
      · intro l hl
        by_contra hle
        exact hlast ⟨l, hl, not_lt.mp hle⟩

/-- The slot of a due job is not after the reading of the clock. -/
theorem requestedAt_le_of_newestMissedWorkerJob {schedule : WorkerScheduleDefinition}
    {last : Option ℤ} {nowMs : ℤ} {request : WorkerJobRequest}
    (h : newestMissedWorkerJob schedule last (some nowMs) = .ok (some request)) :
    request.requestedAt ≤ nowMs := by
  unfold newestMissedWorkerJob at h
  cases hanchor : validateSchedule schedule with
  | error e => simp [hanchor] at h
  | ok anchorMs =>
    have hinterval : 0 < (schedule.intervalMs : ℤ) := by
      unfold validateSchedule at hanchor
      rw [ite_error_eq_ok_iff] at hanchor
      omega
    simp only [hanchor] at h
    split_ifs at h
    all_goals cases h
    have hdiv := Int.ediv_mul_le (nowMs - anchorMs) hinterval.ne'
    show anchorMs + (nowMs - anchorMs) / schedule.intervalMs * schedule.intervalMs ≤ nowMs
    omega

example : stableJobId (js "kassalapp") .benchmarkPriceRefresh 1784205000000 =
    js "kassalapp:benchmark-price-refresh:2026-07-16T12:30:00.000Z" := by decide +kernel

end Handleplan.Workers
