import Handleplan.Db.OperationsProjection
import Handleplan.Lib.Choices
import Handleplan.Lib.Sorting

/-!
# The operations runtime reader

`PostgresOperationsRuntimeReader.read` reads the rows of the operations projection for a roster of
sources, field by field, and parses the result by `operationsRuntimeSnapshotV1Schema`. A field it
cannot read makes it report a corrupt record.

## Main definitions

* `Operations.OperationsRuntimeSnapshot` — what the reader returns, with its schemas.
* `Operations.readRows` — the rows of the projection, read.
* `Operations.read` — the reader on a database.
* `Operations.SourceIsReadable` — the facts of one source that the reader accepts.

## Main results

* `Operations.read_accepts_iff` — when the reader accepts what the projection returns.

## Implementation notes

A clock the reader has read is its number of milliseconds. A `Date` made from a database time is a
date of the years 1 to 9999, or the reader rejects it: the other years and the infinities have no
text that both sides write alike. The parts of the snapshot that are literals, and the requirements
of the roster, are left out.
-/

namespace Handleplan.Operations

open JsString Sorting Workers

/-! ### The snapshot -/

/-- `MAX_OPERATIONAL_COUNT`. -/
def maxOperationalCount : ℕ := 10000

/-- `BoundedOperationalCount`. -/
structure BoundedOperationalCount where
  capped : Bool
  value : ℕ
  deriving DecidableEq

/-- `boundedOperationalCountSchema`. -/
def BoundedOperationalCountSchema (count : BoundedOperationalCount) : Prop :=
  count.value ≤ maxOperationalCount ∧ (count.capped = true → count.value = maxOperationalCount)

instance : DecidablePred BoundedOperationalCountSchema :=
  fun _ => inferInstanceAs (Decidable (_ ∧ _))

/-- `OPERATIONS_RUNTIME_WORKER_JOB_KINDS`. -/
def operationsRuntimeWorkerJobKinds : List WorkerJobKind :=
  [.benchmarkPriceRefresh, .catalogRefresh, .historicalObservationCollection,
    .officialOfferDiscovery, .officialOfferFetch, .officialOfferIngestion,
    .officialOfferLifecycleReconcile, .physicalStoreSync, .storeCatalogPriceRefresh]

/-- `operationsRuntimeWorkerResultV1Schema`, its type; clocks in milliseconds. -/
structure RuntimeWorkerResult where
  completedAt : ℤ
  jobKind : WorkerJobKind
  persistedAt : ℤ
  status : WorkerJobStateStatus
  deriving DecidableEq

/-- `operationsRuntimeHealthV1Schema`, its type. -/
structure RuntimeHealth where
  lastCaptureSuccessAt : Option ℤ
  lastDiscoverySuccessAt : Option ℤ
  lastEligibleEvidenceAt : Option ℤ
  lastPublishSuccessAt : Option ℤ
  persistedAt : ℤ
  recordedAt : ℤ
  state : HealthState
  workerJobKind : WorkerJobKind
  deriving DecidableEq

/-- `operationsRuntimeExtractionV1Schema`, its type. -/
structure RuntimeExtraction where
  candidateRows : BoundedOperationalCount
  completedAt : ℤ
  emptyResult : EmptyResult
  state : ExtractionStatus
  deriving DecidableEq

/-- `operationsRuntimeSourceV1Schema`, its type. -/
structure RuntimeSource where
  activePublishedOffers : BoundedOperationalCount
  expiredPublishedOffers : BoundedOperationalCount
  expiringPublishedOffers : BoundedOperationalCount
  pendingReviewCandidates : BoundedOperationalCount
  governanceState : GovernanceState
  health : Option RuntimeHealth
  latestExtraction : Option RuntimeExtraction
  latestWorkerResults : List RuntimeWorkerResult
  newestOrdinaryPriceAt : Option ℤ
  sourceId : JsString
  nonSuccessful : BoundedOperationalCount
  total : BoundedOperationalCount
  deriving DecidableEq

/-- `operationsRuntimeWorkerResultV1Schema`. -/
def RuntimeWorkerResultSchema (result : RuntimeWorkerResult) : Prop :=
  result.jobKind ∈ operationsRuntimeWorkerJobKinds ∧ result.completedAt ≤ result.persistedAt

instance : DecidablePred RuntimeWorkerResultSchema := fun _ => inferInstanceAs (Decidable (_ ∧ _))

/-- `operationsRuntimeHealthV1Schema`. -/
def RuntimeHealthSchema (health : RuntimeHealth) : Prop :=
  health.workerJobKind ∈ operationsRuntimeWorkerJobKinds ∧
    health.recordedAt ≤ health.persistedAt ∧
    ∀ clock ∈ [health.lastCaptureSuccessAt, health.lastDiscoverySuccessAt,
      health.lastEligibleEvidenceAt, health.lastPublishSuccessAt],
      ∀ t ∈ clock, t ≤ health.recordedAt

instance : DecidablePred RuntimeHealthSchema :=
  fun _ => inferInstanceAs (Decidable (_ ∧ _ ∧ _))

/-- Whether what an extraction says of having found nothing agrees with its state and with the
number of its candidates. -/
def EmptyResultAgrees (emptyResult : EmptyResult) (state : ExtractionStatus) (isEmpty : Prop) :
    Prop :=
  (emptyResult ≠ .notEmpty → isEmpty) ∧
    ¬ ((emptyResult = .confirmedEmpty ∧ state ≠ .completed) ∨
      (emptyResult = .unexpectedEmpty ∧ state ≠ .degraded) ∨
      (state = .failed ∧ emptyResult ≠ .notEmpty))

instance (emptyResult : EmptyResult) (state : ExtractionStatus) (isEmpty : Prop)
    [Decidable isEmpty] : Decidable (EmptyResultAgrees emptyResult state isEmpty) :=
  inferInstanceAs (Decidable (_ ∧ _))

/-- `operationsRuntimeExtractionV1Schema`. -/
def RuntimeExtractionSchema (extraction : RuntimeExtraction) : Prop :=
  BoundedOperationalCountSchema extraction.candidateRows ∧
    extraction.state ∈ [ExtractionStatus.completed, .degraded, .failed] ∧
    EmptyResultAgrees extraction.emptyResult extraction.state
      (extraction.candidateRows.value = 0 ∧ extraction.candidateRows.capped = false)

instance : DecidablePred RuntimeExtractionSchema :=
  fun _ => inferInstanceAs (Decidable (_ ∧ _ ∧ _))

/-- `operationsRuntimeSourceV1Schema`: one count is part of another. -/
def PartOf (part whole : BoundedOperationalCount) : Prop :=
  ¬ (whole.value < part.value ∨ (whole.capped = false ∧ part.capped = true))

instance (part whole : BoundedOperationalCount) : Decidable (PartOf part whole) :=
  inferInstanceAs (Decidable (¬ _))

/-- `/^[a-z0-9][a-z0-9._-]{0,63}$/`. -/
def SourceIdentifier (s : JsString) : Prop :=
  1 ≤ s.length ∧ s.length ≤ 64 ∧
    (∀ u ∈ s.head?, (97 ≤ u ∧ u ≤ 122) ∨ (48 ≤ u ∧ u ≤ 57)) ∧
    ∀ u ∈ s, (97 ≤ u ∧ u ≤ 122) ∨ (48 ≤ u ∧ u ≤ 57) ∨ u ∈ [46, 95, 45]

instance : DecidablePred SourceIdentifier := fun _ => inferInstanceAs (Decidable (_ ∧ _ ∧ _ ∧ _))

/-- `operationsRuntimeSourceV1Schema`. -/
@[mk_iff] structure RuntimeSourceSchema (source : RuntimeSource) : Prop where
  counts : ∀ c ∈ [source.activePublishedOffers, source.expiredPublishedOffers,
    source.expiringPublishedOffers, source.pendingReviewCandidates, source.nonSuccessful,
    source.total], BoundedOperationalCountSchema c
  health : ∀ h ∈ source.health, RuntimeHealthSchema h
  extraction : ∀ e ∈ source.latestExtraction, RuntimeExtractionSchema e
  results : ∀ r ∈ source.latestWorkerResults, RuntimeWorkerResultSchema r
  resultsBound : source.latestWorkerResults.length ≤ operationsRuntimeWorkerJobKinds.length
  identifier : SourceIdentifier source.sourceId
  nonSuccessful : PartOf source.nonSuccessful source.total
  expiring : PartOf source.expiringPublishedOffers source.activePublishedOffers
  unique : (source.latestWorkerResults.map fun r => r.jobKind).Nodup
  sorted : sortBy compareText (source.latestWorkerResults.map fun r => r.jobKind.text) =
    source.latestWorkerResults.map fun r => r.jobKind.text

instance : DecidablePred RuntimeSourceSchema :=
  fun _ => decidable_of_iff' _ (runtimeSourceSchema_iff _)

/-- The clocks of a source that must not be after the observation. -/
def RuntimeSource.clocks (source : RuntimeSource) : List ℤ :=
  (source.health.map fun h => h.persistedAt).toList ++
    (source.latestExtraction.map fun e => e.completedAt).toList ++
    source.newestOrdinaryPriceAt.toList ++
    source.latestWorkerResults.flatMap fun r => [r.completedAt, r.persistedAt]

/-- `operationsSourceRosterV1Schema`, its source identifiers. -/
structure OperationsSourceRoster where
  sourceIds : List JsString
  nonempty : sourceIds ≠ []
  bounded : sourceIds.length ≤ 100
  identifiers : ∀ sourceId ∈ sourceIds, SourceIdentifier sourceId
  unique : sourceIds.Nodup
  sorted : sortBy compareText sourceIds = sourceIds

/-- `OperationsRuntimeSnapshotV1`. -/
structure OperationsRuntimeSnapshot where
  observedAt : ℤ
  sources : List RuntimeSource
  deriving DecidableEq

/-- `operationsRuntimeSnapshotV1Schema`. -/
@[mk_iff] structure OperationsRuntimeSnapshotSchema (roster : OperationsSourceRoster)
    (snapshot : OperationsRuntimeSnapshot) : Prop where
  sources : ∀ source ∈ snapshot.sources, RuntimeSourceSchema source
  sourcesBound : snapshot.sources.length ≤ 100
  roster : (snapshot.sources.map fun source => source.sourceId) = roster.sourceIds
  clocks : ∀ source ∈ snapshot.sources, ∀ t ∈ source.clocks, t ≤ snapshot.observedAt

instance (roster : OperationsSourceRoster) :
    DecidablePred (OperationsRuntimeSnapshotSchema roster) :=
  fun _ => decidable_of_iff' _ (operationsRuntimeSnapshotSchema_iff _ _)

/-! ### Reading -/

/-- A time of the years 1 to 9999, in milliseconds. -/
def Readable (ms : ℤ) : Prop := -62135596800000 ≤ ms ∧ ms ≤ 253402300799999

instance : DecidablePred Readable := fun _ => inferInstanceAs (Decidable (_ ∧ _))

/-- `timestamp`: a database time in milliseconds, when it is readable and not after the
observation. -/
def timestamp (value : ℤ) (observedAt : Option ℤ) : Option ℤ :=
  if ¬ Readable (value / 1000) ∨ ∃ o ∈ observedAt, o < value / 1000 then none
  else some (value / 1000)

/-- `optionalTimestamp`. -/
def optionalTimestamp (value : Option ℤ) (observedAt : ℤ) : Option (Option ℤ) :=
  match value with
  | none => some none
  | some v => (timestamp v (some observedAt)).map some

/-- `textState`. -/
def textState {α : Type} [DecidableEq α] (value : Option α) (allowed : List α) : Option α :=
  value.filter fun v => v ∈ allowed

/-- `count`. -/
def count (n : ℕ) : Option BoundedOperationalCount :=
  if maxOperationalCount + 1 < n then none
  else some { capped := maxOperationalCount < n, value := min n maxOperationalCount }

/-- The latest worker results of a row. -/
def readWorkerResult (observedAt : ℤ) (job : LatestWorkerResult) : Option RuntimeWorkerResult :=
  (timestamp job.completedAt (some observedAt)).bind fun completedAt =>
    (textState (some job.jobKind) operationsRuntimeWorkerJobKinds).bind fun jobKind =>
      (timestamp job.persistedAt (some observedAt)).map fun persistedAt =>
        { completedAt := completedAt, jobKind := jobKind, persistedAt := persistedAt,
          status := job.status }

/-- `objectArray`, and its entries. -/
def readWorkerResults (observedAt : ℤ) (jobs : List LatestWorkerResult) :
    Option (List RuntimeWorkerResult) :=
  if 8 < jobs.length then none else jobs.mapM (readWorkerResult observedAt)

/-- The health of a row. -/
def readHealth (observedAt : ℤ) (row : OperationsRuntimeRow) : Option (Option RuntimeHealth) :=
  match row.healthPersistedAt with
  | none =>
    if row.healthRecordedAt ≠ none ∨ row.healthState ≠ none ∨ row.healthWorkerJobKind ≠ none ∨
        row.lastCaptureSuccessAt ≠ none ∨ row.lastDiscoverySuccessAt ≠ none ∨
        row.lastPublishSuccessAt ≠ none ∨ row.newestEligibleEvidenceAt ≠ none then none
    else some none
  | some persisted =>
    (optionalTimestamp row.lastCaptureSuccessAt observedAt).bind fun capture =>
    (optionalTimestamp row.lastDiscoverySuccessAt observedAt).bind fun discovery =>
    (optionalTimestamp row.newestEligibleEvidenceAt observedAt).bind fun eligible =>
    (optionalTimestamp row.lastPublishSuccessAt observedAt).bind fun publish =>
    (timestamp persisted (some observedAt)).bind fun persistedAt =>
    (row.healthRecordedAt.bind fun t => timestamp t (some observedAt)).bind fun recordedAt =>
    (textState row.healthState [.degraded, .disabled, .failed, .healthy]).bind fun state =>
    (textState row.healthWorkerJobKind operationsRuntimeWorkerJobKinds).map fun kind =>
      some
        { lastCaptureSuccessAt := capture
          lastDiscoverySuccessAt := discovery
          lastEligibleEvidenceAt := eligible
          lastPublishSuccessAt := publish
          persistedAt := persistedAt
          recordedAt := recordedAt
          state := state
          workerJobKind := kind }

/-- The latest extraction of a row. -/
def readExtraction (observedAt : ℤ) (row : OperationsRuntimeRow) :
    Option (Option RuntimeExtraction) :=
  match row.latestExtractionCompletedAt with
  | none =>
    if row.latestExtractionCandidateRows ≠ none ∨ row.latestExtractionEmptyResult ≠ none ∨
        row.latestExtractionState ≠ none then none
    else some none
  | some completed =>
    (row.latestExtractionCandidateRows.bind count).bind fun candidateRows =>
    (timestamp completed (some observedAt)).bind fun completedAt =>
    (textState row.latestExtractionEmptyResult
        [.confirmedEmpty, .notEmpty, .unexpectedEmpty]).bind fun emptyResult =>
    (textState row.latestExtractionState [.completed, .degraded, .failed]).map fun state =>
      some
        { candidateRows := candidateRows
          completedAt := completedAt
          emptyResult := emptyResult
          state := state }

/-- One row, for the source of the roster at its place. -/
def readSource (observedAt : ℤ) (row : OperationsRuntimeRow) (sourceId : JsString) :
    Option RuntimeSource :=
  if ¬ SourceIdentifier row.sourceId ∨ row.sourceId ≠ sourceId then none
  else
    (readWorkerResults observedAt row.latestWorkerResults).bind fun latestWorkerResults =>
    (readHealth observedAt row).bind fun health =>
    (readExtraction observedAt row).bind fun latestExtraction =>
    (count row.activePublishedOfferRows).bind fun active =>
    (count row.expiredPublishedOfferRows).bind fun expired =>
    (count row.expiringPublishedOfferRows).bind fun expiring =>
    (count row.pendingReviewRows).bind fun pending =>
    (optionalTimestamp row.newestOrdinaryPriceAt observedAt).bind fun newestOrdinaryPriceAt =>
    (count row.nonSuccessfulWorkerResults24h).bind fun nonSuccessful =>
    (count row.workerResults24h).map fun total =>
      { activePublishedOffers := active
        expiredPublishedOffers := expired
        expiringPublishedOffers := expiring
        pendingReviewCandidates := pending
        governanceState := row.governanceState
        health := health
        latestExtraction := latestExtraction
        latestWorkerResults := latestWorkerResults
        newestOrdinaryPriceAt := newestOrdinaryPriceAt
        sourceId := row.sourceId
        nonSuccessful := nonSuccessful
        total := total }

/-- The rows of the projection, read and parsed. -/
def readRows (roster : OperationsSourceRoster) (rows : List OperationsRuntimeRow) :
    Option OperationsRuntimeSnapshot :=
  if rows.length ≠ roster.sourceIds.length then none
  else (rows.mapM fun row => timestamp row.observedAt none).bind fun observedAtValues =>
    if observedAtValues.dedup.length ≠ 1 then none
    else observedAtValues.head?.bind fun observedAt =>
      ((rows.zip roster.sourceIds).mapM fun entry =>
        readSource observedAt entry.1 entry.2).bind fun sources =>
          if OperationsRuntimeSnapshotSchema roster ⟨observedAt, sources⟩ then
            some ⟨observedAt, sources⟩
          else none

/-- `OperationsRuntimeReaderErrorCode`, the codes of a read that is not cancelled. -/
inductive OperationsRuntimeReaderErrorCode where
  | corruptRecord | unavailable
  deriving DecidableEq

/-- `PostgresOperationsRuntimeReader.read`, at the observation clock of the database. -/
def read (db : Database) (observedAt : ℤ) (roster : OperationsSourceRoster) :
    Except OperationsRuntimeReaderErrorCode OperationsRuntimeSnapshot :=
  match operationsDashboardRows db observedAt roster.sourceIds with
  | none => .error .unavailable
  | some rows =>
    match readRows roster rows with
    | none => .error .corruptRecord
    | some snapshot => .ok snapshot

/-! ### Fields -/

variable {db : Database} {observedAt : ℤ} {sourceId : JsString}

theorem timestamp_eq_some {value ms : ℤ} {o : Option ℤ} : timestamp value o = some ms ↔
    ms = value / 1000 ∧ Readable ms ∧ ∀ t ∈ o, ms ≤ t := by
  unfold timestamp
  rw [Option.ite_none_left_eq_some, not_or, not_not]
  constructor
  · rintro ⟨⟨hreadable, hle⟩, hms⟩
    cases hms
    exact ⟨rfl, hreadable, fun t ht => not_lt.mp fun hlt => hle ⟨t, ht, hlt⟩⟩
  · rintro ⟨rfl, hreadable, hle⟩
    exact ⟨⟨hreadable, fun ⟨t, ht, hlt⟩ => absurd (hle t ht) (not_le.mpr hlt)⟩, rfl⟩

/-- A readable time that is not after the observation is read. -/
theorem timestamp_of_le {value now : ℤ} (hreadable : Readable (value / 1000)) (hle : value ≤ now) :
    timestamp value (some (now / 1000)) = some (value / 1000) := by
  refine timestamp_eq_some.mpr ⟨rfl, hreadable, fun t ht => ?_⟩
  cases ht
  exact Int.ediv_le_ediv (by norm_num) hle

/-- A clock between a readable one and the readable observation is readable. -/
theorem readable_of_between {a b c : ℤ} (ha : Readable (a / 1000)) (hc : Readable (c / 1000))
    (hab : a ≤ b) (hbc : b ≤ c) : Readable (b / 1000) :=
  ⟨ha.1.trans (Int.ediv_le_ediv (by norm_num) hab), (Int.ediv_le_ediv (by norm_num) hbc).trans hc.2⟩

theorem optionalTimestamp_eq_some {value : Option ℤ} {now : ℤ} {out : Option ℤ} :
    optionalTimestamp value (now / 1000) = some out ↔
      out = value.map (· / 1000) ∧ ∀ t ∈ value, Readable (t / 1000) ∧ t / 1000 ≤ now / 1000 := by
  cases value with
  | none => simp [optionalTimestamp, eq_comm]
  | some v =>
    simp only [optionalTimestamp, Option.map_eq_some_iff, timestamp_eq_some, Option.mem_def,
      Option.some.injEq, forall_eq', Option.map_some]
    constructor
    · rintro ⟨a, ⟨rfl, hreadable, hle⟩, rfl⟩
      exact ⟨rfl, hreadable, hle⟩
    · rintro ⟨rfl, hreadable, hle⟩
      exact ⟨_, ⟨rfl, hreadable, hle⟩, rfl⟩

theorem textState_eq_some {α : Type} [DecidableEq α] {value : Option α} {allowed : List α} {v : α} :
    textState value allowed = some v ↔ value = some v ∧ v ∈ allowed := by
  simp [textState, Option.filter_eq_some_iff]

/-- The count of a number of rows, however large. -/
def boundedOperationalCount (n : ℕ) : BoundedOperationalCount where
  capped := maxOperationalCount < n
  value := min n maxOperationalCount

/-- A bounded count of the projection is always read, as the count of all the rows. -/
theorem count_boundedCount {α : Type} (rows : List α) :
    count (boundedCount rows) = some (boundedOperationalCount rows.length) := by
  unfold count boundedCount boundedOperationalCount maxOperationalCount
  rw [if_neg (by omega)]
  congr 2
  · rw [decide_eq_decide]
    omega
  · omega

theorem boundedOperationalCountSchema_of (n : ℕ) :
    BoundedOperationalCountSchema (boundedOperationalCount n) := by
  refine ⟨min_le_right _ _, fun h => ?_⟩
  exact min_eq_right (of_decide_eq_true h).le

/-- The count of a part is part of the count. -/
theorem partOf_of_le {m n : ℕ} (h : m ≤ n) :
    PartOf (boundedOperationalCount m) (boundedOperationalCount n) := by
  unfold PartOf boundedOperationalCount maxOperationalCount
  simp only [decide_eq_false_iff_not, decide_eq_true_eq]
  omega

/-! ### What the reader accepts of a source -/

/-- Whether a result of a job kind is visible. -/
def Recorded (db : Database) (observedAt : ℤ) (sourceId : JsString) (kind : WorkerJobKind) : Prop :=
  ∃ r ∈ visibleResults db observedAt sourceId, r.jobKind = kind

instance (db : Database) (observedAt : ℤ) (sourceId : JsString) (kind : WorkerJobKind) :
    Decidable (Recorded db observedAt sourceId kind) :=
  inferInstanceAs (Decidable (∃ r ∈ _, _))

/-- The worker results of a source that the reader accepts: none of the benchmark kind, and of eight
kinds at most. -/
structure ResultsAreReadable (db : Database) (observedAt : ℤ) (sourceId : JsString) : Prop where
  kinds : (jobKindsByName.filter fun kind => Recorded db observedAt sourceId kind).length ≤ 8
  benchmark : ¬ Recorded db observedAt sourceId .openPricesBenchmarkRefresh
  clocks : ∀ kind ∈ jobKindsByName, ∀ r ∈ latestOfKind db observedAt sourceId kind,
    Readable (r.completedAt / 1000)

/-- The clocks of the latest health, as the projection shows them. -/
def shownClocks (db : Database) (observedAt : ℤ) (sourceId : JsString) (h : SourceHealthSnapshot) :
    List (Option ℤ) :=
  [h.lastCaptureSuccessAt, h.lastDiscoverySuccessAt,
    laterClock h.newestEligibleEvidenceAt
      ((latestFact db observedAt sourceId).map fun f => f.newestEligibleEvidenceAt),
    laterClock h.lastPublishSuccessAt
      ((latestFact db observedAt sourceId).map fun f => f.lastPublishSuccessAt)]

/-- The health of a source that the reader accepts: the result of its job is visible, and a
publication fact is persisted no later than it and published no later than it is recorded. -/
structure HealthIsReadable (db : Database) (observedAt : ℤ) (sourceId : JsString) : Prop where
  job : ∀ h ∈ latestHealth db observedAt sourceId, healthJob db observedAt sourceId h ≠ none
  fact : ∀ f ∈ latestFact db observedAt sourceId, ∃ h ∈ latestHealth db observedAt sourceId,
    f.persistedAt ≤ persisted h.persistedAt ∧ f.lastPublishSuccessAt / 1000 ≤ h.recordedAt / 1000
  clocks : ∀ h ∈ latestHealth db observedAt sourceId, Readable (h.recordedAt / 1000) ∧
    ∀ clock ∈ shownClocks db observedAt sourceId h, ∀ t ∈ clock, Readable (t / 1000)

/-- The latest extraction of a source that the reader accepts. -/
structure ExtractionIsReadable (db : Database) (observedAt : ℤ) (sourceId : JsString) : Prop where
  agrees : ∀ run ∈ latestExtraction db observedAt sourceId, ∀ e ∈ run.emptyResult,
    EmptyResultAgrees e run.status (candidatesOf db observedAt run = [])
  clock : ∀ run ∈ latestExtraction db observedAt sourceId, ∀ t ∈ run.completedAt,
    Readable (t / 1000)

/-- **The facts of a source that the reader accepts.** -/
structure SourceIsReadable (db : Database) (observedAt : ℤ) (sourceId : JsString) : Prop where
  results : ResultsAreReadable db observedAt sourceId
  health : HealthIsReadable db observedAt sourceId
  extraction : ExtractionIsReadable db observedAt sourceId
  price : ∀ o ∈ newestOrdinaryPrice db observedAt sourceId, Readable (o.observedAt / 1000)

/-! ### Worker results -/

theorem latestOfKind_spec {kind : WorkerJobKind} {r : WorkerJobResult}
    (h : latestOfKind db observedAt sourceId kind = some r) :
    r ∈ visibleResults db observedAt sourceId ∧ r.jobKind = kind := by
  have hmem := List.mem_filter.mp (latestBy_eq_some h).1
  exact ⟨hmem.1, of_decide_eq_true hmem.2⟩

/-- A job kind has a latest result exactly when one is recorded. -/
theorem isSome_latestOfKind (kind : WorkerJobKind) :
    (latestOfKind db observedAt sourceId kind).isSome = true ↔
      Recorded db observedAt sourceId kind := by
  unfold latestOfKind
  rw [isSome_latestBy, ne_eq, List.filter_eq_nil_iff]
  simp only [decide_eq_true_eq, not_forall, not_not, exists_prop]
  rfl

/-- The kinds of the shown results are the recorded ones, in the order of their names. -/
theorem kinds_latestWorkerResults :
    (latestWorkerResults db observedAt sourceId).map (fun item => item.jobKind) =
      jobKindsByName.filter fun kind => Recorded db observedAt sourceId kind := by
  unfold latestWorkerResults
  generalize jobKindsByName = kinds
  induction kinds with
  | nil => rfl
  | cons kind kinds ih =>
    rw [List.filterMap_cons, List.filter_cons]
    cases hlatest : latestOfKind db observedAt sourceId kind with
    | none =>
      have hnot : ¬ Recorded db observedAt sourceId kind := by
        rw [← isSome_latestOfKind, hlatest]
        simp
      simpa [hnot] using ih
    | some r =>
      have hrecorded : Recorded db observedAt sourceId kind := by
        rw [← isSome_latestOfKind, hlatest]
        rfl
      simpa [hrecorded, (latestOfKind_spec hlatest).2] using ih

theorem length_latestWorkerResults : (latestWorkerResults db observedAt sourceId).length =
    (jobKindsByName.filter fun kind => Recorded db observedAt sourceId kind).length := by
  rw [← kinds_latestWorkerResults, List.length_map]

theorem mem_operationsRuntimeWorkerJobKinds (kind : WorkerJobKind) :
    kind ∈ operationsRuntimeWorkerJobKinds ↔ kind ≠ .openPricesBenchmarkRefresh := by
  cases kind <;> decide

/-- A shown result as the reader has it. -/
def runtimeWorkerResult (item : LatestWorkerResult) : RuntimeWorkerResult where
  completedAt := item.completedAt / 1000
  jobKind := item.jobKind
  persistedAt := item.persistedAt / 1000
  status := item.status

/-- The clocks of a shown result, and its kind. -/
theorem clocks_latestWorkerResults {item : LatestWorkerResult}
    (h : item ∈ latestWorkerResults db observedAt sourceId) :
    item.completedAt ≤ item.persistedAt ∧ item.persistedAt ≤ observedAt ∧
      Recorded db observedAt sourceId item.jobKind := by
  obtain ⟨r, hr, hkind, hcompleted, hpersisted⟩ := mem_latestWorkerResults h
  obtain ⟨hle, hobserved⟩ := clocks_of_visible (visible_of_mem hr)
  rw [hcompleted, hpersisted]
  exact ⟨hle, hobserved, r, hr, hkind.symm⟩

theorem readWorkerResult_eq_some (hnow : Readable (observedAt / 1000)) {item : LatestWorkerResult}
    (hitem : item ∈ latestWorkerResults db observedAt sourceId) {result : RuntimeWorkerResult} :
    readWorkerResult (observedAt / 1000) item = some result ↔ result = runtimeWorkerResult item ∧
      item.jobKind ≠ .openPricesBenchmarkRefresh ∧ Readable (item.completedAt / 1000) := by
  obtain ⟨hle, hobserved, -⟩ := clocks_latestWorkerResults hitem
  simp only [readWorkerResult, Option.bind_eq_some_iff, Option.map_eq_some_iff, textState_eq_some,
    Option.some.injEq, mem_operationsRuntimeWorkerJobKinds]
  constructor
  · rintro ⟨c, hc, kind, ⟨rfl, hkind⟩, p, hp, rfl⟩
    obtain ⟨rfl, hreadable, -⟩ := timestamp_eq_some.mp hc
    obtain ⟨rfl, -, -⟩ := timestamp_eq_some.mp hp
    exact ⟨rfl, hkind, hreadable⟩
  · rintro ⟨rfl, hkind, hreadable⟩
    exact ⟨_, timestamp_of_le hreadable (hle.trans hobserved), _, ⟨rfl, hkind⟩, _,
      timestamp_of_le (readable_of_between hreadable hnow hle hobserved) hobserved, rfl⟩

/-- The reading of the shown results. -/
theorem readWorkerResults_eq_some (hnow : Readable (observedAt / 1000))
    {results : List RuntimeWorkerResult} :
    readWorkerResults (observedAt / 1000) (latestWorkerResults db observedAt sourceId) =
        some results ↔
      results = (latestWorkerResults db observedAt sourceId).map runtimeWorkerResult ∧
        ResultsAreReadable db observedAt sourceId := by
  unfold readWorkerResults
  rw [Option.ite_none_left_eq_some, not_lt, length_latestWorkerResults,
    Choices.mapM_eq_some_map_iff fun item hitem _ => readWorkerResult_eq_some hnow hitem]
  constructor
  · rintro ⟨hlength, rfl, heach⟩
    refine ⟨rfl, hlength, fun hbenchmark => ?_, fun kind hkind r hr => ?_⟩
    · have hmem : WorkerJobKind.openPricesBenchmarkRefresh ∈
          (latestWorkerResults db observedAt sourceId).map fun item => item.jobKind := by
        rw [kinds_latestWorkerResults]
        exact List.mem_filter.mpr ⟨by decide, by simpa using hbenchmark⟩
      obtain ⟨item, hitem, hkind⟩ := List.mem_map.mp hmem
      exact (heach item hitem).1 hkind
    · exact (heach _ (List.mem_filterMap.mpr ⟨kind, hkind, Option.map_eq_some_iff.mpr
        ⟨r, hr, rfl⟩⟩)).2
  · rintro ⟨rfl, hlength, hbenchmark, hclocks⟩
    refine ⟨hlength, rfl, fun item hitem => ⟨fun hkind => ?_, ?_⟩⟩
    · exact hbenchmark (hkind ▸ (clocks_latestWorkerResults hitem).2.2)
    · obtain ⟨kind, hkind, hlatest⟩ := List.mem_filterMap.mp hitem
      obtain ⟨r, hr, rfl⟩ := Option.map_eq_some_iff.mp hlatest
      exact hclocks kind hkind r hr

/-- The shown results pass their schema once they are read. -/
theorem resultsSchema (h : ResultsAreReadable db observedAt sourceId) :
    let results := (latestWorkerResults db observedAt sourceId).map runtimeWorkerResult
    (∀ r ∈ results, RuntimeWorkerResultSchema r) ∧
      results.length ≤ operationsRuntimeWorkerJobKinds.length ∧
      (results.map fun r => r.jobKind).Nodup ∧
      sortBy compareText (results.map fun r => r.jobKind.text) =
        results.map fun r => r.jobKind.text := by
  have hkinds : ((latestWorkerResults db observedAt sourceId).map runtimeWorkerResult).map
      (fun r => r.jobKind) = jobKindsByName.filter fun kind =>
        Recorded db observedAt sourceId kind := by
    rw [List.map_map, ← kinds_latestWorkerResults]
    rfl
  have hsub : (jobKindsByName.filter fun kind =>
      Recorded db observedAt sourceId kind).Sublist jobKindsByName := List.filter_sublist
  refine ⟨?_, ?_, ?_, ?_⟩
  · intro r hr
    obtain ⟨item, hitem, rfl⟩ := List.mem_map.mp hr
    obtain ⟨hle, -, hrecorded⟩ := clocks_latestWorkerResults hitem
    refine ⟨(mem_operationsRuntimeWorkerJobKinds _).mpr fun hkind => ?_,
      Int.ediv_le_ediv (by norm_num) hle⟩
    exact h.benchmark ((show item.jobKind = _ from hkind) ▸ hrecorded)
  · rw [List.length_map, length_latestWorkerResults]
    exact h.kinds.trans (by decide)
  · rw [hkinds]
    exact hsub.nodup (by decide)
  · have htexts : ((latestWorkerResults db observedAt sourceId).map runtimeWorkerResult).map
        (fun r => r.jobKind.text) = (jobKindsByName.filter fun kind =>
          Recorded db observedAt sourceId kind).map WorkerJobKind.text := by
      rw [← hkinds, List.map_map, List.map_map, List.map_map]
      rfl
    rw [htexts]
    refine sortBy_of_pairwise (List.pairwise_map.mpr (List.Pairwise.sublist hsub ?_))
    decide +kernel

/-! ### Health -/

/-- No publication fact is newer than the latest health. -/
theorem filter_factIsNewer_eq_none {health : Option SourceHealthSnapshot}
    {fact : Option PublicationHealthFact} :
    (fact.filter fun f => FactIsNewer health f) = none ↔
      ∀ f ∈ fact, ∃ h ∈ health, f.persistedAt ≤ persisted h.persistedAt := by
  rw [Option.filter_eq_none_iff]
  refine forall₂_congr fun f _ => ?_
  rw [decide_eq_true_iff]
  unfold FactIsNewer
  push Not
  rfl

theorem mem_laterClock {a b : Option ℤ} {t : ℤ} (h : t ∈ laterClock a b) : t ∈ a ∨ t ∈ b := by
  cases a with
  | none => exact .inr h
  | some a =>
    cases b with
    | none => exact .inl h
    | some b =>
      simp only [laterClock] at h
      split_ifs at h
      · exact .inl h
      · exact .inr h

theorem le_laterClock {a b : Option ℤ} {t : ℤ} (h : t ∈ b) :
    ∃ u ∈ laterClock a b, t ≤ u := by
  obtain rfl := Option.mem_def.mp h
  cases a with
  | none => exact ⟨t, rfl, le_rfl⟩
  | some a =>
    simp only [laterClock]
    split_ifs with hle
    · exact ⟨a, rfl, hle⟩
    · exact ⟨t, rfl, le_rfl⟩

/-- The clocks of the health of a row. -/
def OperationsRuntimeRow.healthClocks (row : OperationsRuntimeRow) : List (Option ℤ) :=
  [row.lastCaptureSuccessAt, row.lastDiscoverySuccessAt, row.newestEligibleEvidenceAt,
    row.lastPublishSuccessAt]

/-- The health of a row, with the fields that may be missing. -/
def runtimeHealth (row : OperationsRuntimeRow) (persistedAt recordedAt : ℤ) (state : HealthState)
    (kind : WorkerJobKind) : RuntimeHealth where
  lastCaptureSuccessAt := row.lastCaptureSuccessAt.map (· / 1000)
  lastDiscoverySuccessAt := row.lastDiscoverySuccessAt.map (· / 1000)
  lastEligibleEvidenceAt := row.newestEligibleEvidenceAt.map (· / 1000)
  lastPublishSuccessAt := row.lastPublishSuccessAt.map (· / 1000)
  persistedAt := persistedAt / 1000
  recordedAt := recordedAt / 1000
  state := state
  workerJobKind := kind

/-- The reading of a health that is there: every field is there, its kind is known to the reader,
and its clocks are readable and not after the observation. -/
theorem readHealth_eq_some {now : ℤ} {row : OperationsRuntimeRow} {p : ℤ}
    (hp : row.healthPersistedAt = some p) {health : Option RuntimeHealth} :
    readHealth (now / 1000) row = some health ↔ ∃ r state kind, row.healthRecordedAt = some r ∧
      row.healthState = some state ∧ row.healthWorkerJobKind = some kind ∧
      kind ∈ operationsRuntimeWorkerJobKinds ∧
      (∀ clock ∈ row.healthClocks, ∀ t ∈ clock, Readable (t / 1000) ∧ t / 1000 ≤ now / 1000) ∧
      (Readable (p / 1000) ∧ p / 1000 ≤ now / 1000) ∧
      (Readable (r / 1000) ∧ r / 1000 ≤ now / 1000) ∧
      health = some (runtimeHealth row p r state kind) := by
  unfold readHealth
  simp only [hp, Option.bind_eq_some_iff, Option.map_eq_some_iff, optionalTimestamp_eq_some,
    textState_eq_some, timestamp_eq_some, OperationsRuntimeRow.healthClocks, List.forall_mem_cons,
    List.not_mem_nil, false_implies, implies_true, and_true, Option.mem_def, Option.some.injEq,
    forall_eq']
  constructor
  · rintro ⟨_, ⟨rfl, hcapture⟩, _, ⟨rfl, hdiscovery⟩, _, ⟨rfl, heligible⟩, _, ⟨rfl, hpublish⟩,
      _, ⟨rfl, hpersisted⟩, _, ⟨r, hr, rfl, hrecorded⟩, state, ⟨hstate, -⟩, kind,
      ⟨hkind, hknown⟩, rfl⟩
    exact ⟨r, state, kind, hr, hstate, hkind, hknown,
      ⟨hcapture, hdiscovery, heligible, hpublish⟩, hpersisted, hrecorded, rfl⟩
  · rintro ⟨r, state, kind, hr, hstate, hkind, hknown,
      ⟨hcapture, hdiscovery, heligible, hpublish⟩, hpersisted, hrecorded, rfl⟩
    exact ⟨_, ⟨rfl, hcapture⟩, _, ⟨rfl, hdiscovery⟩, _, ⟨rfl, heligible⟩, _, ⟨rfl, hpublish⟩,
      _, ⟨rfl, hpersisted⟩, _, ⟨r, hr, rfl, hrecorded⟩, state,
      ⟨hstate, by cases state <;> decide⟩, kind, ⟨hkind, hknown⟩, rfl⟩

section Health

variable {source : DataSource} {h : SourceHealthSnapshot}

/-- The health the projection shows when no publication fact is newer. -/
theorem row_of_latestHealth (hnot : ∀ f ∈ latestFact db observedAt source.id,
      ∃ h ∈ latestHealth db observedAt source.id, f.persistedAt ≤ persisted h.persistedAt)
    (hlatest : latestHealth db observedAt source.id = some h) :
    let row := operationsDashboardRow db observedAt source
    row.healthPersistedAt = h.persistedAt ∧ row.healthRecordedAt = some h.recordedAt ∧
      row.healthState = some h.status ∧
      row.healthWorkerJobKind = (healthJob db observedAt source.id h).map (fun r => r.jobKind) ∧
      row.healthClocks = shownClocks db observedAt source.id h := by
  have hnewer := filter_factIsNewer_eq_none.mpr hnot
  rw [hlatest] at hnewer
  simp only [operationsDashboardRow, hlatest, hnewer, OperationsRuntimeRow.healthClocks,
    shownClocks, Option.bind_some, Option.map_some, and_self]

/-- Without a source health and a publication fact, the projection shows no health. -/
theorem readHealth_of_latestHealth_eq_none {now : ℤ}
    (hlatest : latestHealth db observedAt source.id = none)
    (hfact : latestFact db observedAt source.id = none) :
    readHealth now (operationsDashboardRow db observedAt source) = some none := by
  simp [readHealth, operationsDashboardRow, hlatest, hfact, laterClock]

/-- The publication fact that is newer than the latest health has no job, so the reader rejects the
row. -/
theorem readHealth_of_newer {f : PublicationHealthFact}
    (hnewer : ((latestFact db observedAt source.id).filter fun f =>
      FactIsNewer (latestHealth db observedAt source.id) f) = some f) :
    readHealth (observedAt / 1000) (operationsDashboardRow db observedAt source) = none := by
  have hp : (operationsDashboardRow db observedAt source).healthPersistedAt =
      some f.persistedAt := by
    simp only [operationsDashboardRow, hnewer]
  have hkind : (operationsDashboardRow db observedAt source).healthWorkerJobKind = none := by
    simp only [operationsDashboardRow, hnewer]
  refine Option.eq_none_iff_forall_ne_some.mpr fun health hread => ?_
  obtain ⟨-, -, kind, -, -, hsome, -⟩ := (readHealth_eq_some hp).mp hread
  rw [hkind] at hsome
  cases hsome

/-- The clocks of a health whose job is known, and of a fact published by then, are no later than
its recording. -/
theorem shownClocks_le {job : WorkerJobResult}
    (hjob : healthJob db observedAt source.id h = some job)
    (hfact : ∀ f ∈ latestFact db observedAt source.id,
      f.lastPublishSuccessAt / 1000 ≤ h.recordedAt / 1000) :
    ∀ clock ∈ shownClocks db observedAt source.id h, ∀ t ∈ clock,
      t / 1000 ≤ h.recordedAt / 1000 := by
  have hworker := h.notFuture (healthJob_visible hjob).2
  simp only [List.forall_mem_cons, List.not_mem_nil, false_implies, implies_true,
    and_true] at hworker
  obtain ⟨hdiscovery, hcapture, hpublish, heligible⟩ := hworker
  have hdiv : ∀ {a b : ℤ}, a ≤ b → a / 1000 ≤ b / 1000 := Int.ediv_le_ediv (by norm_num)
  simp only [shownClocks, List.forall_mem_cons, List.not_mem_nil, false_implies, implies_true,
    and_true]
  refine ⟨fun t ht => hdiv (hcapture t ht), fun t ht => hdiv (hdiscovery t ht),
    fun t ht => ?_, fun t ht => ?_⟩
  · obtain ht | ht := mem_laterClock ht
    · exact hdiv (heligible t ht)
    · obtain ⟨f, hf, rfl⟩ := Option.map_eq_some_iff.mp ht
      exact (hdiv f.clocks.1).trans (hfact f hf)
  · obtain ht | ht := mem_laterClock ht
    · exact hdiv (hpublish t ht)
    · obtain ⟨f, hf, rfl⟩ := Option.map_eq_some_iff.mp ht
      exact hfact f hf

section

variable {p : ℤ} (hnot : ∀ f ∈ latestFact db observedAt source.id,
    ∃ h ∈ latestHealth db observedAt source.id, f.persistedAt ≤ persisted h.persistedAt)
  (hlatest : latestHealth db observedAt source.id = some h) (hp : h.persistedAt = some p)

include hnot hlatest hp

/-- A health that is accepted has a job, shows the publication of the newest fact, and its clocks
are readable. -/
theorem healthIsReadable_of_accepts {health : Option RuntimeHealth}
    (hread : readHealth (observedAt / 1000) (operationsDashboardRow db observedAt source) =
      some health) (hschema : ∀ h ∈ health, RuntimeHealthSchema h ∧ h.persistedAt ≤ observedAt / 1000) :
    HealthIsReadable db observedAt source.id := by
  obtain ⟨hrowp, hrowr, -, hrowk, hrowc⟩ := row_of_latestHealth hnot hlatest
  rw [hp] at hrowp
  obtain ⟨r, state, kind, hr, hs, hk, -, hclocks, -, ⟨hreadable, -⟩, rfl⟩ :=
    (readHealth_eq_some hrowp).mp hread
  obtain ⟨⟨-, -, hle⟩, -⟩ := hschema _ rfl
  obtain rfl := Option.some.inj (hrowr.symm.trans hr)
  rw [hrowk, Option.map_eq_some_iff] at hk
  obtain ⟨job, hjob, -⟩ := hk
  rw [hrowc] at hclocks
  refine ⟨fun h' hh' => ?_, fun f hf => ?_, fun h' hh' => ?_⟩
  · obtain rfl := Option.some.inj (hlatest.symm.trans hh')
    simp [hjob]
  · obtain ⟨h', hh', hpersisted⟩ := hnot f hf
    obtain rfl := Option.some.inj (hlatest.symm.trans hh')
    refine ⟨h, hlatest, hpersisted, ?_⟩
    -- the published clock the row shows is no earlier than that of the fact
    obtain ⟨u, hu, hfu⟩ := le_laterClock (a := h.lastPublishSuccessAt)
      (b := (latestFact db observedAt source.id).map fun f => f.lastPublishSuccessAt)
      (Option.mem_map_of_mem _ hf)
    have hpublish : (operationsDashboardRow db observedAt source).lastPublishSuccessAt =
        some u := by
      rw [← Option.mem_def.mp hu]
      simp only [operationsDashboardRow, hlatest, Option.bind_some]
    refine (Int.ediv_le_ediv (by norm_num) hfu).trans (hle (some (u / 1000)) ?_ (u / 1000) rfl)
    simp [runtimeHealth, hpublish]
  · obtain rfl := Option.some.inj (hlatest.symm.trans hh')
    exact ⟨hreadable, fun clock hclock t ht => (hclocks clock hclock t ht).1⟩

/-- A health that is readable is accepted. -/
theorem readHealth_accepts_of_readable (hnow : Readable (observedAt / 1000))
    (hresults : ResultsAreReadable db observedAt source.id)
    (hhealth : HealthIsReadable db observedAt source.id)
    (hobserved : p ≤ observedAt) (hrecorded : h.recordedAt ≤ p) :
    ∃ health, readHealth (observedAt / 1000) (operationsDashboardRow db observedAt source) =
        some health ∧ ∀ h ∈ health, RuntimeHealthSchema h ∧ h.persistedAt ≤ observedAt / 1000 := by
  obtain ⟨hrowp, hrowr, hrows, hrowk, hrowc⟩ := row_of_latestHealth hnot hlatest
  rw [hp] at hrowp
  have hdiv : ∀ {a b : ℤ}, a ≤ b → a / 1000 ≤ b / 1000 := Int.ediv_le_ediv (by norm_num)
  obtain ⟨job, hjob⟩ := Option.ne_none_iff_exists'.mp (hhealth.job h hlatest)
  have hvisible := (healthJob_visible hjob).1
  have hknown : job.jobKind ∈ operationsRuntimeWorkerJobKinds := by
    refine (mem_operationsRuntimeWorkerJobKinds _).mpr fun hkind => ?_
    exact hresults.benchmark ⟨job, hvisible, hkind⟩
  obtain ⟨hreadable, hclocks⟩ := hhealth.clocks h hlatest
  have hle : ∀ clock ∈ shownClocks db observedAt source.id h, ∀ t ∈ clock,
      t / 1000 ≤ h.recordedAt / 1000 := shownClocks_le hjob fun f hf => by
    obtain ⟨h', hh', -, hpublish⟩ := hhealth.fact f hf
    obtain rfl := Option.some.inj (hlatest.symm.trans hh')
    exact hpublish
  have hnow' := hdiv (hrecorded.trans hobserved)
  refine ⟨some (runtimeHealth (operationsDashboardRow db observedAt source) p h.recordedAt
    h.status job.jobKind), (readHealth_eq_some hrowp).mpr ⟨h.recordedAt, h.status,
    job.jobKind, hrowr, hrows, by rw [hrowk, hjob]; rfl, hknown, ?_,
    ⟨readable_of_between hreadable hnow hrecorded hobserved, hdiv hobserved⟩,
    ⟨hreadable, hnow'⟩, rfl⟩, ?_⟩
  · rw [hrowc]
    exact fun clock hclock t ht =>
      ⟨hclocks clock hclock t ht, (hle clock hclock t ht).trans hnow'⟩
  · intro x hx
    cases hx
    refine ⟨⟨hknown, hdiv hrecorded, ?_⟩, hdiv hobserved⟩
    rw [← hrowc] at hle
    intro clock hclock t ht
    have hmapped : clock ∈ (operationsDashboardRow db observedAt source).healthClocks.map
        (Option.map (· / 1000)) := hclock
    obtain ⟨shown, hshown, rfl⟩ := List.mem_map.mp hmapped
    obtain ⟨u, hu, rfl⟩ := Option.map_eq_some_iff.mp ht
    exact hle shown hshown u hu

end

/-- The health the reader accepts of a source. -/
theorem readHealth_accepts_iff (hnow : Readable (observedAt / 1000))
    (hresults : ResultsAreReadable db observedAt source.id) :
    (∃ health, readHealth (observedAt / 1000) (operationsDashboardRow db observedAt source) =
        some health ∧ ∀ h ∈ health, RuntimeHealthSchema h ∧ h.persistedAt ≤ observedAt / 1000) ↔
      HealthIsReadable db observedAt source.id := by
  cases hnewer : (latestFact db observedAt source.id).filter fun f =>
      FactIsNewer (latestHealth db observedAt source.id) f with
  | some f =>
    constructor
    · rintro ⟨health, hread, -⟩
      rw [readHealth_of_newer hnewer] at hread
      cases hread
    · intro hhealth
      have hnot := filter_factIsNewer_eq_none.mpr fun f hf =>
        (hhealth.fact f hf).imp fun h hh => ⟨hh.1, hh.2.1⟩
      rw [hnewer] at hnot
      cases hnot
  | none =>
    have hnot := filter_factIsNewer_eq_none.mp hnewer
    cases hlatest : latestHealth db observedAt source.id with
    | none =>
      have hfact : latestFact db observedAt source.id = none := by
        refine Option.eq_none_iff_forall_ne_some.mpr fun f hf => ?_
        obtain ⟨h, hh, -⟩ := hnot f hf
        rw [hlatest] at hh
        cases hh
      refine iff_of_true ⟨none, readHealth_of_latestHealth_eq_none hlatest hfact, by simp⟩ ?_
      exact ⟨by simp [hlatest], by simp [hfact], by simp [hlatest]⟩
    | some h =>
      obtain ⟨p, hp, hobserved, hrecorded⟩ := latestHealth_spec hlatest
      exact ⟨fun ⟨health, hread, hschema⟩ =>
          healthIsReadable_of_accepts hnot hlatest hp hread hschema,
        fun hhealth => readHealth_accepts_of_readable hnot hlatest hp hnow hresults hhealth
          hobserved hrecorded⟩

end Health

/-! ### Extractions and sources -/

/-- A count of rows is an empty one exactly when there is no row. -/
theorem boundedOperationalCount_empty_iff {α : Type} (rows : List α) :
    ((boundedOperationalCount rows.length).value = 0 ∧
      (boundedOperationalCount rows.length).capped = false) ↔ rows = [] := by
  have hvalue : (boundedOperationalCount rows.length).value = min rows.length 10000 := rfl
  have hcapped : (boundedOperationalCount rows.length).capped = decide (10000 < rows.length) := rfl
  rw [hvalue, hcapped, decide_eq_false_iff_not, ← List.length_eq_zero_iff]
  omega

/-- The extraction the reader accepts of a source. -/
theorem readExtraction_accepts_iff {source : DataSource} :
    (∃ extraction, readExtraction (observedAt / 1000)
        (operationsDashboardRow db observedAt source) = some extraction ∧
        ∀ e ∈ extraction, RuntimeExtractionSchema e ∧ e.completedAt ≤ observedAt / 1000) ↔
      ExtractionIsReadable db observedAt source.id := by
  cases hlatest : latestExtraction db observedAt source.id with
  | none =>
    refine iff_of_true ⟨none, ?_, by simp⟩ ⟨by simp [hlatest], by simp [hlatest]⟩
    simp [readExtraction, operationsDashboardRow, hlatest]
  | some run =>
    obtain ⟨⟨t, ht, hobserved⟩, ⟨e, he⟩, hstatus⟩ := latestExtraction_spec hlatest
    have hread : ∀ extraction, readExtraction (observedAt / 1000)
        (operationsDashboardRow db observedAt source) = some extraction ↔
        Readable (t / 1000) ∧ extraction = some
          { candidateRows := boundedOperationalCount (candidatesOf db observedAt run).length
            completedAt := t / 1000
            emptyResult := e
            state := run.status } := by
      intro extraction
      simp only [readExtraction, operationsDashboardRow, hlatest, Option.bind_some,
        Option.map_some, ht, he, count_boundedCount, Option.bind_eq_some_iff,
        Option.map_eq_some_iff, textState_eq_some]
      constructor
      · rintro ⟨_, hcompleted, _, ⟨hempty, -⟩, _, ⟨hstate, -⟩, rfl⟩
        obtain ⟨rfl, hreadable, -⟩ := timestamp_eq_some.mp hcompleted
        cases hempty
        cases hstate
        exact ⟨hreadable, rfl⟩
      · rintro ⟨hreadable, rfl⟩
        refine ⟨_, timestamp_of_le hreadable hobserved, e, ⟨rfl, by cases e <;> decide⟩, run.status,
          ⟨rfl, ?_⟩, rfl⟩
        rcases hstatus with hstatus | hstatus | hstatus <;> rw [hstatus] <;> decide
    constructor
    · rintro ⟨extraction, hextraction, hschema⟩
      obtain ⟨hreadable, rfl⟩ := (hread _).mp hextraction
      obtain ⟨⟨-, -, hagrees⟩, -⟩ := hschema _ rfl
      rw [boundedOperationalCount_empty_iff] at hagrees
      refine ⟨fun run' hrun' e' he' => ?_, fun run' hrun' t' ht' => ?_⟩
      · obtain rfl := Option.some.inj (hlatest.symm.trans hrun')
        obtain rfl := Option.some.inj (he.symm.trans he')
        exact hagrees
      · obtain rfl := Option.some.inj (hlatest.symm.trans hrun')
        obtain rfl := Option.some.inj (ht.symm.trans ht')
        exact hreadable
    · intro hextraction
      have hreadable := hextraction.clock run hlatest t ht
      refine ⟨_, (hread _).mpr ⟨hreadable, rfl⟩, fun x hx => ?_⟩
      cases hx
      refine ⟨⟨boundedOperationalCountSchema_of _, ?_, ?_⟩,
        Int.ediv_le_ediv (by norm_num) hobserved⟩
      · show run.status ∈ _
        rcases hstatus with hstatus | hstatus | hstatus <;> rw [hstatus] <;> decide
      · rw [boundedOperationalCount_empty_iff]
        exact hextraction.agrees run hlatest e he

/-- The expiring offers are some of the active ones. -/
theorem length_expiringOffers_le :
    (expiringOffers db observedAt sourceId).length ≤
      (activeOffers db observedAt sourceId).length :=
  List.length_filter_le _ _

/-- Every count of a row is read. -/
theorem counts_read (db : Database) (observedAt : ℤ) (source : DataSource) :
    let row := operationsDashboardRow db observedAt source
    count row.activePublishedOfferRows =
        some (boundedOperationalCount (activeOffers db observedAt source.id).length) ∧
      count row.expiredPublishedOfferRows =
        some (boundedOperationalCount (expiredOffers db observedAt source.id).length) ∧
      count row.expiringPublishedOfferRows =
        some (boundedOperationalCount (expiringOffers db observedAt source.id).length) ∧
      count row.pendingReviewRows =
        some (boundedOperationalCount (pendingCandidates db observedAt source.id).length) ∧
      count row.nonSuccessfulWorkerResults24h = some (boundedOperationalCount
        ((results24h db observedAt source.id).filter fun r => r.status ≠ .succeeded).length) ∧
      count row.workerResults24h =
        some (boundedOperationalCount (results24h db observedAt source.id).length) :=
  ⟨count_boundedCount _, count_boundedCount _, count_boundedCount _, count_boundedCount _,
    count_boundedCount _, count_boundedCount _⟩

/-- The source a row is read as. -/
def runtimeSource (db : Database) (observedAt : ℤ) (source : DataSource)
    (results : List RuntimeWorkerResult) (health : Option RuntimeHealth)
    (extraction : Option RuntimeExtraction) : RuntimeSource where
  activePublishedOffers := boundedOperationalCount (activeOffers db observedAt source.id).length
  expiredPublishedOffers := boundedOperationalCount (expiredOffers db observedAt source.id).length
  expiringPublishedOffers :=
    boundedOperationalCount (expiringOffers db observedAt source.id).length
  pendingReviewCandidates :=
    boundedOperationalCount (pendingCandidates db observedAt source.id).length
  governanceState := Operations.governanceState db observedAt source
  health := health
  latestExtraction := extraction
  latestWorkerResults := results
  newestOrdinaryPriceAt :=
    (newestOrdinaryPrice db observedAt source.id).map fun o => o.observedAt / 1000
  sourceId := source.id
  nonSuccessful := boundedOperationalCount
    ((results24h db observedAt source.id).filter fun r => r.status ≠ .succeeded).length
  total := boundedOperationalCount (results24h db observedAt source.id).length

theorem optionalTimestamp_newestOrdinaryPrice {source : DataSource} {out : Option ℤ} :
    optionalTimestamp (operationsDashboardRow db observedAt source).newestOrdinaryPriceAt
        (observedAt / 1000) = some out ↔
      out = (newestOrdinaryPrice db observedAt source.id).map (fun o => o.observedAt / 1000) ∧
        ∀ o ∈ newestOrdinaryPrice db observedAt source.id, Readable (o.observedAt / 1000) := by
  rw [optionalTimestamp_eq_some]
  show _ = Option.map _ (Option.map _ _) ∧ _ ↔ _
  rw [Option.map_map]
  refine and_congr_right fun _ => ⟨fun h o ho => (h _ (Option.mem_map_of_mem _ ho)).1,
    fun h t ht => ?_⟩
  obtain ⟨o, ho, rfl⟩ := Option.map_eq_some_iff.mp ht
  exact ⟨h o ho, Int.ediv_le_ediv (by norm_num) (newestOrdinaryPrice_spec ho)⟩

/-- What a row is read as. -/
theorem readSource_eq_some {source : DataSource} (hid : SourceIdentifier source.id)
    {out : RuntimeSource} :
    readSource (observedAt / 1000) (operationsDashboardRow db observedAt source) source.id =
        some out ↔ ∃ results health extraction,
      readWorkerResults (observedAt / 1000) (latestWorkerResults db observedAt source.id) =
        some results ∧
      readHealth (observedAt / 1000) (operationsDashboardRow db observedAt source) = some health ∧
      readExtraction (observedAt / 1000) (operationsDashboardRow db observedAt source) =
        some extraction ∧
      (∀ o ∈ newestOrdinaryPrice db observedAt source.id, Readable (o.observedAt / 1000)) ∧
      out = runtimeSource db observedAt source results health extraction := by
  have hrow : (operationsDashboardRow db observedAt source).sourceId = source.id := rfl
  obtain ⟨hactive, hexpired, hexpiring, hpending, hfailed, htotal⟩ :=
    counts_read db observedAt source
  rw [readSource, if_neg (by simp [hrow, hid])]
  simp only [Option.bind_eq_some_iff, Option.map_eq_some_iff, hactive, hexpired, hexpiring,
    hpending, hfailed, htotal, optionalTimestamp_newestOrdinaryPrice, Option.some.injEq]
  constructor
  · rintro ⟨results, hresults, health, hhealth, extraction, hextraction, _, rfl, _, rfl, _, rfl,
      _, rfl, _, ⟨rfl, hreadable⟩, _, rfl, _, rfl, rfl⟩
    exact ⟨results, health, extraction, hresults, hhealth, hextraction, hreadable, rfl⟩
  · rintro ⟨results, health, extraction, hresults, hhealth, hextraction, hreadable, rfl⟩
    exact ⟨results, hresults, health, hhealth, extraction, hextraction, _, rfl, _, rfl, _, rfl,
      _, rfl, _, ⟨rfl, hreadable⟩, _, rfl, _, rfl, rfl⟩

/-- **The row of a source is accepted** exactly when its facts are readable: it is read, its source
passes its schema, and no clock is after the observation.

**Proof sketch.** Every count is read, and its parts are bounded by their wholes; the worker
results, the health, the extraction and the price are then judged one by one. -/
theorem readSource_accepts_iff {source : DataSource} (hnow : Readable (observedAt / 1000))
    (hid : SourceIdentifier source.id) :
    (∃ out, readSource (observedAt / 1000) (operationsDashboardRow db observedAt source) source.id =
        some out ∧ RuntimeSourceSchema out ∧ ∀ t ∈ out.clocks, t ≤ observedAt / 1000) ↔
      SourceIsReadable db observedAt source.id := by
  constructor
  · rintro ⟨out, hout, hschema, hclocks⟩
    obtain ⟨results, health, extraction, hresults, hhealth, hextraction, hreadable, rfl⟩ :=
      (readSource_eq_some hid).mp hout
    obtain ⟨rfl, hresults'⟩ := (readWorkerResults_eq_some hnow).mp hresults
    refine ⟨hresults', (readHealth_accepts_iff hnow hresults').mp ⟨health, hhealth, fun h hh =>
        ⟨hschema.health h hh, hclocks _ ?_⟩⟩,
      readExtraction_accepts_iff.mp ⟨extraction, hextraction, fun e he =>
        ⟨hschema.extraction e he, hclocks _ ?_⟩⟩, hreadable⟩
    · obtain rfl := Option.mem_def.mp hh
      simp [RuntimeSource.clocks, runtimeSource]
    · obtain rfl := Option.mem_def.mp he
      simp [RuntimeSource.clocks, runtimeSource]
  · rintro ⟨hresults, hhealth, hextraction, hreadable⟩
    obtain ⟨health, hreadh, hhealth⟩ := (readHealth_accepts_iff hnow hresults).mpr hhealth
    obtain ⟨extraction, hreade, hextraction⟩ := readExtraction_accepts_iff.mpr hextraction
    obtain ⟨hshown, hbound, hunique, hsorted⟩ := resultsSchema hresults
    refine ⟨_, (readSource_eq_some hid).mpr ⟨_, health, extraction, (readWorkerResults_eq_some hnow).mpr
      ⟨rfl, hresults⟩, hreadh, hreade, hreadable, rfl⟩, ?_, ?_⟩
    · exact
        { counts := by
            simp only [runtimeSource, List.forall_mem_cons, boundedOperationalCountSchema_of,
              List.not_mem_nil, false_implies, implies_true, and_self]
          health := fun h hh => (hhealth h hh).1
          extraction := fun e he => (hextraction e he).1
          results := hshown
          resultsBound := hbound
          identifier := hid
          nonSuccessful := partOf_of_le (List.length_filter_le _ _)
          expiring := partOf_of_le length_expiringOffers_le
          unique := hunique
          sorted := hsorted }
    · intro t ht
      simp only [RuntimeSource.clocks, runtimeSource, List.mem_append, Option.mem_toList,
        Option.map_eq_some_iff, List.mem_flatMap, List.mem_map] at ht
      have hdiv : ∀ {a b : ℤ}, a ≤ b → a / 1000 ≤ b / 1000 := Int.ediv_le_ediv (by norm_num)
      obtain ((⟨h, hh, rfl⟩ | ⟨e, he, rfl⟩) | ⟨o, ho, rfl⟩) | ⟨r, ⟨item, hitem, rfl⟩, ht⟩ := ht
      · exact (hhealth h hh).2
      · exact (hextraction e he).2
      · exact hdiv (newestOrdinaryPrice_spec ho)
      · obtain ⟨hle, hobserved, -⟩ := clocks_latestWorkerResults hitem
        simp only [runtimeWorkerResult, List.mem_cons, List.not_mem_nil, or_false] at ht
        obtain rfl | rfl := ht
        · exact hdiv (hle.trans hobserved)
        · exact hdiv hobserved

/-! ### The reader -/

/-- The stored source of an identifier that is not created after the observation. -/
def StoredBy (db : Database) (observedAt : ℤ) (sourceId : JsString) (source : DataSource) : Prop :=
  db.source sourceId = some source ∧ source.createdAt ≤ observedAt

theorem id_of_source {source : DataSource} (h : db.source sourceId = some source) :
    source.id = sourceId := by
  simpa using List.find?_some h

/-- The rows of the projection, when every source of the roster is stored by the observation. -/
theorem operationsDashboardRows_eq_some {sourceIds : List JsString}
    {rows : List OperationsRuntimeRow} :
    (operationsDashboardRows db observedAt sourceIds = some rows ∧
        rows.length = sourceIds.length) ↔
      ∃ sources, List.Forall₂ (StoredBy db observedAt) sourceIds sources ∧
        rows = sources.map (operationsDashboardRow db observedAt) := by
  have hstored : ∀ {sourceId source}, ((db.source sourceId).filter fun source =>
      source.createdAt ≤ observedAt) = some source ↔ StoredBy db observedAt sourceId source := by
    intro sourceId source
    rw [Option.filter_eq_some_iff, decide_eq_true_eq]
    rfl
  have hrows : ∀ {sources}, List.Forall₂ (StoredBy db observedAt) sourceIds sources →
      (sourceIds.filterMap fun sourceId => ((db.source sourceId).filter fun source =>
        source.createdAt ≤ observedAt).map (operationsDashboardRow db observedAt)) =
        sources.map (operationsDashboardRow db observedAt) := fun hsources => by
    rw [← List.map_filterMap, Choices.filterMap_eq_of_forall₂ (hsources.imp fun _ _ => hstored.mpr)]
  constructor
  · rintro ⟨hsome, hlength⟩
    obtain ⟨-, hsome⟩ := Option.ite_none_right_eq_some.mp hsome
    rw [← Option.some.inj hsome, List.filterMap_length_eq_length] at hlength
    obtain ⟨sources, hsources⟩ := Choices.exists_forall₂ (R := StoredBy db observedAt) fun id hid =>
      (Option.isSome_iff_exists.mp (Option.isSome_map ▸ hlength id hid)).imp
        fun source hsource => hstored.mp hsource
    exact ⟨sources, hsources, (Option.some.inj hsome).symm.trans (hrows hsources)⟩
  · rintro ⟨sources, hsources, rfl⟩
    have hall : ∀ id ∈ sourceIds, (db.source id).isSome := fun id hid => by
      obtain ⟨source, -, hsource⟩ := Choices.exists_choice_of_forall₂ hsources hid
      exact Option.isSome_iff_exists.mpr ⟨source, hsource.1⟩
    refine ⟨?_, by rw [List.length_map, hsources.length_eq]⟩
    rw [operationsDashboardRows, if_pos hall, hrows hsources]

theorem sourceId_of_readSource {row : OperationsRuntimeRow} {now : ℤ} {out : RuntimeSource}
    (h : readSource now row sourceId = some out) : out.sourceId = sourceId := by
  obtain ⟨hid, h⟩ := Option.ite_none_left_eq_some.mp h
  simp only [Option.bind_eq_some_iff, Option.map_eq_some_iff] at h
  obtain ⟨_, -, _, -, _, -, _, -, _, -, _, -, _, -, _, -, _, -, _, -, rfl⟩ := h
  exact not_not.mp (not_or.mp hid).2

/-- The rows are read and parsed exactly when the observation is readable and each row is accepted
with its source.

**Proof sketch.** Every row has the observation clock, so the clocks that are read agree. The rows
are read source by source; the bounds of the snapshot are those of the roster. -/
theorem readRows_eq_some_iff {roster : OperationsSourceRoster} {sources : List DataSource}
    (hsources : List.Forall₂ (StoredBy db observedAt) roster.sourceIds sources) :
    (∃ snapshot, readRows roster (sources.map (operationsDashboardRow db observedAt)) =
        some snapshot) ↔
      Readable (observedAt / 1000) ∧ ∀ source ∈ sources, ∃ out,
        readSource (observedAt / 1000) (operationsDashboardRow db observedAt source) source.id =
          some out ∧ RuntimeSourceSchema out ∧ ∀ t ∈ out.clocks, t ≤ observedAt / 1000 := by
  have hids : roster.sourceIds = sources.map fun source => source.id :=
    List.map_id roster.sourceIds ▸ Choices.map_eq_map_of_forall₂ hsources fun id source h =>
      (id_of_source h.1).symm
  have hlength : sources.length ≠ 0 := by
    rw [← hsources.length_eq]
    exact fun h => roster.nonempty (List.length_eq_zero_iff.mp h)
  have hclocks : ∀ values, (sources.map (operationsDashboardRow db observedAt)).mapM
      (fun row => timestamp row.observedAt none) = some values ↔
        values = List.replicate sources.length (observedAt / 1000) ∧
          Readable (observedAt / 1000) := by
    intro values
    rw [List.mapM_map, Choices.mapM_eq_some_map_iff (g := fun _ => observedAt / 1000)
      (P := fun _ => Readable (observedAt / 1000)) fun source _ b => ?_, List.map_const']
    · refine and_congr_right fun _ => ⟨fun h => ?_, fun h _ _ => h⟩
      obtain ⟨source, hsource⟩ := List.exists_mem_of_length_pos (Nat.pos_of_ne_zero hlength)
      exact h source hsource
    · show timestamp observedAt none = _ ↔ _
      rw [timestamp_eq_some]
      exact ⟨fun h => ⟨h.1, h.1 ▸ h.2.1⟩, fun h => ⟨h.1, h.1 ▸ h.2, by simp⟩⟩
  have hread : ∀ outs, (((sources.map (operationsDashboardRow db observedAt)).zip
      roster.sourceIds).mapM fun entry => readSource (observedAt / 1000) entry.1 entry.2) =
        some outs ↔ List.Forall₂ (fun source out => readSource (observedAt / 1000)
          (operationsDashboardRow db observedAt source) source.id = some out) sources outs := by
    intro outs
    rw [hids, List.zip_map', Choices.mapM_eq_some_iff, List.forall₂_map_left_iff]
  unfold readRows
  simp only [Option.ite_none_left_eq_some, Option.ite_none_right_eq_some, Option.bind_eq_some_iff,
    hclocks]
  constructor
  · rintro ⟨snapshot, -, _, ⟨rfl, hreadable⟩, -, now, hnow, outs, houts, hschema, -⟩
    obtain rfl : observedAt / 1000 = now := by
      rw [List.head?_replicate, if_neg hlength] at hnow
      exact Option.some.inj hnow
    refine ⟨hreadable, fun source hsource => ?_⟩
    obtain ⟨out, hout, hsome⟩ := Choices.exists_choice_of_forall₂ ((hread outs).mp houts) hsource
    exact ⟨out, hsome, hschema.sources out hout, hschema.clocks out hout⟩
  · rintro ⟨hreadable, haccepted⟩
    obtain ⟨outs, houts⟩ := Choices.exists_forall₂ haccepted
    have hsome := houts.imp fun _ _ h => h.1
    have hout : ∀ out ∈ outs, RuntimeSourceSchema out ∧ ∀ t ∈ out.clocks, t ≤ observedAt / 1000 :=
      fun out hout => by
        obtain ⟨source, -, -, h⟩ := Choices.exists_mem_of_forall₂ houts hout
        exact h
    refine ⟨⟨observedAt / 1000, outs⟩, ?_, _, ⟨rfl, hreadable⟩, ?_, observedAt / 1000, ?_, outs,
      (hread outs).mpr hsome, ?_, rfl⟩
    · rw [List.length_map, hsources.length_eq]
      exact not_not.mpr rfl
    · rw [List.replicate_dedup hlength]
      exact not_not.mpr rfl
    · rw [List.head?_replicate, if_neg hlength]
    · exact
        { sources := fun out h => (hout out h).1
          sourcesBound := by
            show outs.length ≤ 100
            rw [← houts.length_eq, ← hsources.length_eq]
            exact roster.bounded
          roster := by
            rw [hids]
            exact (Choices.map_eq_map_of_forall₂ hsome fun source out h =>
              (sourceId_of_readSource h).symm).symm
          clocks := fun out h => (hout out h).2 }

/-- One source, one reconciliation of its offers, and one offer of a capture. -/
def reconciled (factPersistedAt : ℤ) : Database where
  sources := [⟨js "extra", .approved, some 1782800000000000, none, 1782800000000000,
    1782800000000000⟩]
  permissions := [⟨1, js "extra", .approved, 1782800000000000, none, 1782800000000000⟩]
  results := [⟨1, js "lifecycle-1", js "extra", .officialOfferLifecycleReconcile, .succeeded,
    1782907200000000, some 1782907200500000⟩]
  snapshots :=
    [{ id := 1
       sourceId := js "extra"
       geographicScopeId := none
       status := .healthy
       lastDiscoverySuccessAt := none
       lastCaptureSuccessAt := some 1782900000000000
       lastPublishSuccessAt := none
       newestEligibleEvidenceAt := none
       recordedAt := 1782907200000000
       workerJobId := some (js "lifecycle-1")
       persistedAt := some 1782907200500000
       notFuture := by decide }]
  facts :=
    [{ id := 1
       sourceId := js "extra"
       lastPublishSuccessAt := min factPersistedAt 1782907200000000
       newestEligibleEvidenceAt := min factPersistedAt 1782900000000000
       persistedAt := factPersistedAt
       clocks := by omega }]
  publications := [⟨1, js "extra", true⟩]
  captures := [⟨1, 1, some 1⟩]
  extractions :=
    [{ id := 1
       captureId := 1
       status := .completed
       completedAt := some 1782900100000000
       createdAt := 1782900100000000
       extractionPermissionId := some 1
       emptyResult := some .notEmpty
       fenced := by decide }]
  candidates := [⟨1, 1, .approved, 1782900100000000⟩]
  actions := [⟨1, 1, .approve, some 2, 1782903000000000⟩]
  offers := [⟨1, some 1, js "extra", .published, 1782900000000000, 1783500000000000,
    min factPersistedAt 1782907200000000⟩]
  observations := []

/-- The roster of that source. -/
def extraRoster : OperationsSourceRoster where
  sourceIds := [js "extra"]
  nonempty := by decide
  bounded := by decide
  identifiers := by decide +kernel
  unique := by decide
  sorted := by decide +kernel

-- a publication that is persisted before the health of its worker run is shown
example : (read (reconciled 1782907200000000) 1782907260000000 extraRoster).isOk = true := by
  decide +kernel

end Handleplan.Operations
