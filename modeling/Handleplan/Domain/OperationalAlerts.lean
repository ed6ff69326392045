import Handleplan.Db.AlertLedgerContracts

/-!
# The evaluation of operational alerts

A snapshot of operational evidence says of each source of a roster what has been seen of it: its
governance, its health, its jobs, its offers and its queue of reviews. `evaluateOperationalAlertsV1`
makes of it, and of the supplied states of eight components, one assessment for each alert.

## Main definitions

* `OperationalAlerts.OperationsEvidenceSnapshot` — the snapshot, with its schemas.
* `OperationalAlerts.expectedDerivedStates` — what the clocks and counts of a source say.
* `OperationalAlerts.evaluateOperationalAlertsV1` — the evaluation.

## Implementation notes

Clocks are numbers of milliseconds; the texts of clocks, the literal version of the contract and the
messages of the checks are left out. A call that throws answers `none`. Evidence of a worker job is
a function of its kind, of which only the nine kinds of the contract are read.
-/

namespace Handleplan.OperationalAlerts

open JsString Sorting Operations Workers AlertLedger

/-! ### The evidence -/

/-- `OPERATIONS_REVIEW_AGE_TARGET_SECONDS`. -/
def reviewAgeTargetSeconds : ℕ := 24 * 60 * 60

/-- `OPERATIONS_FRESHNESS_TARGET_SECONDS`. -/
def freshnessTargetSeconds : ℤ := 72 * 60 * 60

/-- `OPERATIONS_WORKER_LAG_TARGET_SECONDS`. -/
def workerLagTargetSeconds : ℤ := 6 * 60 * 60

/-- `freshnessSchema`. -/
inductive Freshness where
  | fresh | stale | unknown
  deriving DecidableEq

/-- `lagSchema`. -/
inductive Lag where
  | withinTarget | late | unknown
  deriving DecidableEq

/-- The states of `workerJobEvidenceSchema`. -/
inductive WorkerJobEvidenceState where
  | completed | degraded | failed | cancelled | unknown
  deriving DecidableEq

/-- The rates of rejection. -/
inductive RejectionRate where
  | none | low | high | unknown
  deriving DecidableEq

/-- What is known of a publication without offers. -/
inductive SilentZeroPublication where
  | clear | confirmedEmpty | detected | unknown
  deriving DecidableEq

/-- `latestExtractionSchema`, its type. -/
structure LatestExtraction where
  candidateCount : BoundedOperationalCount
  completedAt : ℤ
  emptyResult : EmptyResult
  eligiblePublishedOfferCount : BoundedOperationalCount
  state : ExtractionStatus

/-- `evidenceSignalSchema`, its type. -/
structure EvidenceSignal where
  freshness : Freshness
  newestEligibleAt : Option ℤ

/-- `workerJobEvidenceSchema`, its type. -/
structure WorkerJobEvidence where
  completedAt : Option ℤ
  lag : Lag
  state : WorkerJobEvidenceState
  terminalizedAt : Option ℤ

/-- `counts24h`. -/
structure Counts24h where
  failedIngestions : BoundedOperationalCount
  ingestions : BoundedOperationalCount
  rejectedReviews : BoundedOperationalCount
  reviewDecisions : BoundedOperationalCount

/-- `derived`. -/
structure DerivedStates where
  ordinaryPriceFreshness : Freshness
  rejectionRate : RejectionRate
  silentZeroPublication : SilentZeroPublication
  sourceFreshness : Freshness
  workerLag : Lag
  deriving DecidableEq

/-- `offers`. -/
structure OfferCounts where
  active : BoundedOperationalCount
  expiredButPublished : BoundedOperationalCount
  expiringWithin48h : BoundedOperationalCount

/-- `reviewQueue`. -/
structure ReviewQueueEvidence where
  count : BoundedOperationalCount
  oldestAgeSeconds : Option ℕ

/-- `SourceOperationalMetricsV1`. -/
structure SourceOperationalMetrics where
  counts24h : Counts24h
  derived : DerivedStates
  evidenceSignals : EvidenceSignalKind → EvidenceSignal
  governanceState : GovernanceState
  health : Option RuntimeHealth
  latestExtraction : Option LatestExtraction
  offers : OfferCounts
  reviewQueue : ReviewQueueEvidence
  sourceId : JsString
  workerJobs : WorkerJobKind → WorkerJobEvidence

/-- `OperationsEvidenceSnapshotV1`. -/
structure OperationsEvidenceSnapshot where
  hasMoreSources : Bool
  observedAt : ℤ
  sourceRoster : SourceRoster
  sources : List SourceOperationalMetrics
  windowStartedAt : ℤ

/-! ### The schemas of one source -/

/-- The clocks of `sourceHealthSchema`. -/
def healthClocks (health : RuntimeHealth) : List ℤ :=
  [health.recordedAt, health.persistedAt] ++ health.lastCaptureSuccessAt.toList ++
    health.lastDiscoverySuccessAt.toList ++ health.lastEligibleEvidenceAt.toList ++
    health.lastPublishSuccessAt.toList

/-- `latestExtractionSchema`. -/
@[mk_iff] structure LatestExtractionSchema (extraction : LatestExtraction) : Prop where
  candidateCount : BoundedOperationalCountSchema extraction.candidateCount
  completedAt : CanonicalTimestamp extraction.completedAt
  eligible : BoundedOperationalCountSchema extraction.eligiblePublishedOfferCount
  state : extraction.state ∈ [ExtractionStatus.completed, .degraded, .failed]
  agrees : EmptyResultAgrees extraction.emptyResult extraction.state
    (extraction.candidateCount.value = 0 ∧ extraction.candidateCount.capped = false)
  published : ¬ (extraction.emptyResult ≠ .notEmpty ∧
    0 < extraction.eligiblePublishedOfferCount.value)

instance : DecidablePred LatestExtractionSchema :=
  fun _ => decidable_of_iff' _ (latestExtractionSchema_iff _)

/-- `workerJobEvidenceSchema`. -/
@[mk_iff] structure WorkerJobEvidenceSchema (job : WorkerJobEvidence) : Prop where
  completedAt : ∀ t ∈ job.completedAt, CanonicalTimestamp t
  terminalizedAt : ∀ t ∈ job.terminalizedAt, CanonicalTimestamp t
  consistent : ¬ (¬ (job.state = .unknown ↔ job.completedAt = none) ∨
    ¬ (job.state = .unknown ↔ job.terminalizedAt = none) ∨
    (job.state = .unknown ∧ job.lag ≠ .unknown) ∨
    (job.state ≠ .unknown ∧ ∃ completed ∈ job.completedAt, ∃ terminalized ∈ job.terminalizedAt,
      terminalized < completed))

instance : DecidablePred WorkerJobEvidenceSchema :=
  fun _ => decidable_of_iff' _ (workerJobEvidenceSchema_iff _)

/-- The counts of a source. -/
def SourceOperationalMetrics.counts (source : SourceOperationalMetrics) :
    List BoundedOperationalCount :=
  [source.counts24h.failedIngestions, source.counts24h.ingestions,
    source.counts24h.rejectedReviews, source.counts24h.reviewDecisions, source.offers.active,
    source.offers.expiredButPublished, source.offers.expiringWithin48h, source.reviewQueue.count]

/-- `OPERATIONAL_EVIDENCE_SIGNAL_KINDS`. -/
def evidenceSignalKinds : List EvidenceSignalKind := [.officialOffer, .ordinaryPrice]

/-- `sourceOperationalMetricsV1Schema`. -/
@[mk_iff] structure SourceOperationalMetricsSchema (source : SourceOperationalMetrics) :
    Prop where
  counts : ∀ count ∈ source.counts, BoundedOperationalCountSchema count
  signals : ∀ kind ∈ evidenceSignalKinds, ∀ t ∈ (source.evidenceSignals kind).newestEligibleAt,
    CanonicalTimestamp t
  health : ∀ health ∈ source.health, health.workerJobKind ∈ operationalWorkerJobKinds ∧
    ∀ t ∈ healthClocks health, CanonicalTimestamp t
  extraction : ∀ extraction ∈ source.latestExtraction, LatestExtractionSchema extraction
  oldestAge : ∀ age ∈ source.reviewQueue.oldestAgeSeconds, NonNegativeSafeInteger age
  sourceId : SourceIdentifier source.sourceId
  workerJobs : ∀ kind ∈ operationalWorkerJobKinds, WorkerJobEvidenceSchema (source.workerJobs kind)

instance : DecidablePred SourceOperationalMetricsSchema :=
  fun _ => decidable_of_iff' _ (sourceOperationalMetricsSchema_iff _)

/-! ### What the clocks and counts say -/

/-- `freshnessFromClock`. -/
def freshnessFromClock (value : Option ℤ) (observedAt : ℤ) : Freshness :=
  match value with
  | none => .unknown
  | some t => if observedAt - t ≤ freshnessTargetSeconds * 1000 then .fresh else .stale

/-- `expectedLag`. -/
def expectedLag (job : WorkerJobEvidence) (observedAt : ℤ) : Lag :=
  match job.terminalizedAt with
  | none => .unknown
  | some t => if observedAt - t ≤ workerLagTargetSeconds * 1000 then .withinTarget else .late

/-- The freshness of a source, of the freshness of its required signals. -/
def requiredFreshness (requirement : RosterEntry) (source : SourceOperationalMetrics) : Freshness :=
  let freshness := requirement.requiredEvidenceSignals.map fun kind =>
    (source.evidenceSignals kind).freshness
  if Freshness.stale ∈ freshness then .stale
  else if Freshness.unknown ∈ freshness then .unknown
  else .fresh

/-- The lag of a source, of the lag of its required jobs. -/
def requiredLag (requirement : RosterEntry) (source : SourceOperationalMetrics) : Lag :=
  let lag := requirement.requiredWorkerJobKinds.map fun kind => (source.workerJobs kind).lag
  if Lag.late ∈ lag then .late else if Lag.unknown ∈ lag then .unknown else .withinTarget

/-- What the latest extraction says of a publication without offers. -/
def extractionState (extraction : Option LatestExtraction) : SilentZeroPublication :=
  match extraction with
  | none => .unknown
  | some extraction =>
    if extraction.emptyResult = .unexpectedEmpty then .detected
    else if extraction.emptyResult = .confirmedEmpty then .confirmedEmpty
    else if extraction.state = .completed ∧ 0 < extraction.eligiblePublishedOfferCount.value ∧
        extraction.eligiblePublishedOfferCount.capped = false then .clear
    else .unknown

/-- `expectedDerivedStates`. -/
def expectedDerivedStates (source : SourceOperationalMetrics) (requirement : RosterEntry) :
    DerivedStates where
  ordinaryPriceFreshness := (source.evidenceSignals .ordinaryPrice).freshness
  rejectionRate :=
    let reviewDecisions := source.counts24h.reviewDecisions
    let rejectedReviews := source.counts24h.rejectedReviews
    if reviewDecisions.capped = true ∨ rejectedReviews.capped = true then .unknown
    else if reviewDecisions.value = 0 then .none
    else if reviewDecisions.value ≤ rejectedReviews.value * 2 then .high
    else .low
  silentZeroPublication := extractionState source.latestExtraction
  sourceFreshness := requiredFreshness requirement source
  workerLag := requiredLag requirement source

/-! ### The schema of the snapshot -/

/-- The clocks of a source that must not be after the observation. -/
def SourceOperationalMetrics.clocks (source : SourceOperationalMetrics) : List ℤ :=
  source.health.toList.flatMap healthClocks ++
    (source.latestExtraction.map fun extraction => extraction.completedAt).toList ++
    (source.evidenceSignals .officialOffer).newestEligibleAt.toList ++
    (source.evidenceSignals .ordinaryPrice).newestEligibleAt.toList ++
    operationalWorkerJobKinds.flatMap fun kind =>
      (source.workerJobs kind).completedAt.toList ++ (source.workerJobs kind).terminalizedAt.toList

/-- The checks of one source of a snapshot. -/
@[mk_iff] structure SourceAgrees (observedAt : ℤ) (requirement : RosterEntry)
    (source : SourceOperationalMetrics) : Prop where
  clocks : ∀ t ∈ source.clocks, t ≤ observedAt
  healthPersisted : ∀ health ∈ source.health, health.recordedAt ≤ health.persistedAt
  healthSuccess : ∀ health ∈ source.health,
    ∀ clock ∈ [health.lastCaptureSuccessAt, health.lastDiscoverySuccessAt,
      health.lastEligibleEvidenceAt, health.lastPublishSuccessAt],
      ∀ t ∈ clock, t ≤ health.recordedAt
  freshness : ∀ kind ∈ evidenceSignalKinds, (source.evidenceSignals kind).freshness =
    freshnessFromClock (source.evidenceSignals kind).newestEligibleAt observedAt
  lag : ∀ kind ∈ operationalWorkerJobKinds, (source.workerJobs kind).lag =
    expectedLag (source.workerJobs kind) observedAt
  failed : PartOf source.counts24h.failedIngestions source.counts24h.ingestions
  rejected : PartOf source.counts24h.rejectedReviews source.counts24h.reviewDecisions
  expiring : PartOf source.offers.expiringWithin48h source.offers.active
  queue : source.reviewQueue.count.value = 0 ↔ source.reviewQueue.oldestAgeSeconds = none
  derived : source.derived = expectedDerivedStates source requirement

instance (observedAt : ℤ) (requirement : RosterEntry) :
    DecidablePred (SourceAgrees observedAt requirement) :=
  fun _ => decidable_of_iff' _ (sourceAgrees_iff _ _ _)

/-- The identifiers of the sources of a snapshot. -/
def OperationsEvidenceSnapshot.sourceIds (evidence : OperationsEvidenceSnapshot) :
    List JsString :=
  evidence.sources.map fun source => source.sourceId

/-- `operationsEvidenceSnapshotV1Schema`. -/
@[mk_iff] structure OperationsEvidenceSnapshotSchema (evidence : OperationsEvidenceSnapshot) :
    Prop where
  observedAt : CanonicalTimestamp evidence.observedAt
  sourceRoster : SourceRosterSchema evidence.sourceRoster
  sources : ∀ source ∈ evidence.sources, SourceOperationalMetricsSchema source
  sourcesBound : evidence.sources.length ≤ 100
  windowStartedAt : CanonicalTimestamp evidence.windowStartedAt
  window : evidence.observedAt - evidence.windowStartedAt = 24 * 60 * 60 * 1000
  unique : evidence.sourceIds.Nodup
  directory : evidence.sourceIds = evidence.sourceRoster.sourceIds
  agrees : ∀ entry ∈ evidence.sources.zip evidence.sourceRoster.entries,
    entry.2.sourceId = entry.1.sourceId → SourceAgrees evidence.observedAt entry.2 entry.1

instance : DecidablePred OperationsEvidenceSnapshotSchema :=
  fun _ => decidable_of_iff' _ (operationsEvidenceSnapshotSchema_iff _)

/-! ### The supplied states -/

/-- `apiCoordinator`. -/
inductive CoordinatorStatus where
  | healthy | outage | unknown
  deriving DecidableEq

/-- `apiErrorRate`. -/
inductive ErrorRateStatus where
  | normal | elevated | critical | unknown
  deriving DecidableEq

/-- `apiLatency`. -/
inductive LatencyStatus where
  | withinTarget | aboveTarget | unavailable | unknown
  deriving DecidableEq

/-- `apiSaturation` and `databaseSaturation`. -/
inductive SaturationStatus where
  | normal | high | critical | unknown
  deriving DecidableEq

/-- `backup`. -/
inductive BackupStatus where
  | current | stale | failed | unknown
  deriving DecidableEq

/-- `certificate`. -/
inductive CertificateStatus where
  | valid | expiring | expired | unknown
  deriving DecidableEq

/-- `disk`. -/
inductive DiskStatus where
  | healthy | low | critical | unknown
  deriving DecidableEq

/-- `SuppliedOperationalStatusesV1`. -/
structure SuppliedOperationalStatuses where
  apiCoordinator : CoordinatorStatus
  apiErrorRate : ErrorRateStatus
  apiLatency : LatencyStatus
  apiSaturation : SaturationStatus
  backup : BackupStatus
  certificate : CertificateStatus
  databaseSaturation : SaturationStatus
  disk : DiskStatus

/-! ### The evaluation -/

/-- `simpleOutcome`. -/
def simpleOutcome {α : Type} [DecidableEq α] (value : α) (ok warning critical : List α) :
    AlertOutcome :=
  if value ∈ ok then .ok
  else if value ∈ warning then .warning
  else if value ∈ critical then .critical
  else .unknown

/-- The severity of an outcome. -/
def severityOf (outcome : AlertOutcome) : AlertSeverity :=
  if outcome = .critical then .critical else if outcome = .ok then .info else .warning

/-- What `assessment` parses. -/
def assessed (alertKey : AlertKey) (sourceId : Option JsString) (outcome : AlertOutcome) :
    Assessment where
  alertKey := alertKey
  outcome := outcome
  severity := severityOf outcome
  sourceId := sourceId
  status := if outcome = .ok then .closed else .opened

/-- `assessment`. -/
def assessment (alertKey : AlertKey) (sourceId : Option JsString) (outcome : AlertOutcome) :
    Option Assessment :=
  if AssessmentSchema (assessed alertKey sourceId outcome) then
    some (assessed alertKey sourceId outcome)
  else none

/-- The outcomes of the alerts of the components. -/
def suppliedOutcomes (supplied : SuppliedOperationalStatuses) : List (AlertKey × AlertOutcome) :=
  [(.apiCoordinatorOutage, simpleOutcome supplied.apiCoordinator [.healthy] [] [.outage]),
    (.apiErrorRate, simpleOutcome supplied.apiErrorRate [.normal] [.elevated] [.critical]),
    (.apiLatency,
      simpleOutcome supplied.apiLatency [.withinTarget] [.aboveTarget] [.unavailable]),
    (.apiSaturation, simpleOutcome supplied.apiSaturation [.normal] [.high] [.critical]),
    (.backupStatus, simpleOutcome supplied.backup [.current] [.stale] [.failed]),
    (.certificateStatus, simpleOutcome supplied.certificate [.valid] [.expiring] [.expired]),
    (.databaseSaturation, simpleOutcome supplied.databaseSaturation [.normal] [.high] [.critical]),
    (.diskStatus, simpleOutcome supplied.disk [.healthy] [.low] [.critical])]

variable (requirement : RosterEntry)

variable (source : SourceOperationalMetrics)

/-- `requiredHealth`: the health of a source, when a required job wrote it. -/
def requiredHealth :
    Option RuntimeHealth :=
  source.health.filter fun health => health.workerJobKind ∈ requirement.requiredWorkerJobKinds

/-- The outcome of `source.freshness`. -/
def freshnessOutcome : AlertOutcome :=
  if source.governanceState ∈ [GovernanceState.contradictory, .expired, .revoked] then .critical
  else if source.governanceState ≠ .approvedCurrent then .warning
  else if source.derived.sourceFreshness = .fresh then .ok
  else if source.derived.sourceFreshness = .stale then .critical
  else .unknown

/-- The outcome of `source.silent-zero-publication`. -/
def silentZeroOutcome : AlertOutcome :=
  if source.derived.silentZeroPublication ∈
      [SilentZeroPublication.clear, .confirmedEmpty] then .ok
  else if source.derived.silentZeroPublication = .detected then .warning
  else .unknown

/-- The outcome of `worker.lag`. -/
def lagOutcome : AlertOutcome :=
  let states := requirement.requiredWorkerJobKinds.map fun kind => (source.workerJobs kind).state
  let health := requiredHealth requirement source
  if (∃ h ∈ health, h.state = .failed) ∨ WorkerJobEvidenceState.failed ∈ states then .critical
  else if (∃ h ∈ health, h.state ∈ [HealthState.degraded, .disabled]) ∨
      ∃ state ∈ states, state ∈ [WorkerJobEvidenceState.degraded, .cancelled] then .warning
  else if source.derived.workerLag = .late then .warning
  else if WorkerJobEvidenceState.unknown ∈ states then .unknown
  else if source.derived.workerLag = .withinTarget then .ok
  else .unknown

/-- The outcomes of the alerts of a source. -/
def sourceOutcomes :
    List (AlertKey × AlertOutcome) :=
  [(.offerExpired, if 0 < source.offers.expiredButPublished.value then .critical else .ok),
    (.offerExpiring, if 0 < source.offers.expiringWithin48h.value then .warning else .ok),
    (.reviewQueueAge, if source.reviewQueue.count.capped = true ∨
        reviewAgeTargetSeconds < source.reviewQueue.oldestAgeSeconds.getD 0 then .warning else .ok),
    (.sourceFreshness, freshnessOutcome source),
    (.sourceSilentZeroPublication, silentZeroOutcome source),
    (.workerLag, lagOutcome requirement source)]

/-- The assessments of a source: it is absent from the roster, or its alerts are assessed. -/
def sourceAssessments (roster : SourceRoster) (source : SourceOperationalMetrics) :
    Option (List Assessment) :=
  (roster.entries.find? fun entry => entry.sourceId = source.sourceId).bind fun requirement =>
    (sourceOutcomes requirement source).mapM fun entry =>
      assessment entry.1 (some source.sourceId) entry.2

/-- `evaluateOperationalAlertsV1`. -/
def evaluateOperationalAlertsV1 (evidence : OperationsEvidenceSnapshot)
    (supplied : SuppliedOperationalStatuses) : Option OperationalAlertEvaluation :=
  if ¬ OperationsEvidenceSnapshotSchema evidence then none
  else if evidence.hasMoreSources = true then none
  else
    ((suppliedOutcomes supplied).mapM fun entry => assessment entry.1 none entry.2).bind
      fun global =>
    ((sortBy (Sorting.on (fun source => source.sourceId) compareText) evidence.sources).mapM
      (sourceAssessments evidence.sourceRoster)).bind fun perSource =>
    let evaluation : OperationalAlertEvaluation :=
      { assessments := sortBy compareAssessments (global ++ perSource.flatten)
        evaluatedAt := evidence.observedAt
        sourceRoster := evidence.sourceRoster }
    if EvaluationSchema evaluation then some evaluation else none

end Handleplan.OperationalAlerts
