import Mathlib.Data.List.MinMax
import Mathlib.Data.Prod.Lex
import Handleplan.Worker.JobState

/-!
# The operations projection

`operations_dashboard_rows_v1` shows the private operations dashboard one row for each source of a
roster: the governance state, the latest source health merged with the latest publication fact, the
latest result of each job kind, bounded counts of administrative rows, the latest extraction and the
newest ordinary price.

## Main definitions

* `Operations.Database` — the tables the projection reads.
* `Operations.latestBy` — the row that comes last by a clock and its number.
* `Operations.operationsDashboardRows` — the projection.

## Main results

* `Operations.latestBy_eq_some` — the latest row is one of the rows, and no row has a
  later clock.
* `Operations.healthJob_visible` — the job of the latest health is a visible result of
  the source.

## Implementation notes

Database times are microseconds since the epoch. `operations_boundary_version` and `persisted_at`
are set together, so a row has crossed the boundary when it has a persistence clock. What the table
constraints promise of one row is a field of that row. The checks of the roster are those of
`operationsSourceRosterV1Schema` once more; only the comparison with the stored sources is new.
-/

namespace Handleplan.Operations

open Workers

/-! ### Tables -/

/-- The states of a source, and the decisions of a permission. -/
inductive RuntimeState where
  | approved | conditional | blocked | revoked
  deriving DecidableEq

/-- A row of `data_sources`. -/
structure DataSource where
  id : JsString
  runtimeState : RuntimeState
  permissionReviewedAt : Option ℤ
  permissionExpiresAt : Option ℤ
  publicStateChangedAt : ℤ
  createdAt : ℤ
  deriving DecidableEq

/-- A row of `source_permissions`. -/
structure SourcePermission where
  id : ℕ
  sourceId : JsString
  decision : RuntimeState
  reviewedAt : ℤ
  validUntil : Option ℤ
  createdAt : ℤ
  deriving DecidableEq

/-- A row of `worker_job_results`. -/
structure WorkerJobResult where
  id : ℕ
  jobId : JsString
  sourceId : JsString
  jobKind : WorkerJobKind
  status : WorkerJobStateStatus
  completedAt : ℤ
  persistedAt : Option ℤ

/-- The states of `source_health_snapshots`. -/
inductive HealthState where
  | healthy | degraded | failed | disabled
  deriving DecidableEq

/-- A row of `source_health_snapshots`; what a worker writes has no success clock after its own. -/
structure SourceHealthSnapshot where
  id : ℕ
  sourceId : JsString
  geographicScopeId : Option ℕ
  status : HealthState
  lastDiscoverySuccessAt : Option ℤ
  lastCaptureSuccessAt : Option ℤ
  lastPublishSuccessAt : Option ℤ
  newestEligibleEvidenceAt : Option ℤ
  recordedAt : ℤ
  workerJobId : Option JsString
  persistedAt : Option ℤ
  notFuture : workerJobId ≠ none →
    ∀ clock ∈ [lastDiscoverySuccessAt, lastCaptureSuccessAt, lastPublishSuccessAt,
      newestEligibleEvidenceAt], ∀ t ∈ clock, t ≤ recordedAt
  deriving DecidableEq

/-- A row of `official_offer_publication_health_facts`. -/
structure PublicationHealthFact where
  id : ℕ
  sourceId : JsString
  lastPublishSuccessAt : ℤ
  newestEligibleEvidenceAt : ℤ
  persistedAt : ℤ
  clocks : newestEligibleEvidenceAt ≤ lastPublishSuccessAt ∧ lastPublishSuccessAt ≤ persistedAt
  deriving DecidableEq

/-- A row of `publications`, with whether its identity fence is complete. -/
structure Publication where
  id : ℕ
  sourceId : JsString
  fenced : Bool

/-- A row of `publication_captures`. -/
structure PublicationCapture where
  id : ℕ
  publicationId : ℕ
  capturePermissionId : Option ℕ

/-- The states of `extraction_runs`. -/
inductive ExtractionStatus where
  | running | completed | degraded | failed
  deriving DecidableEq

/-- What an extraction says of having found nothing. -/
inductive EmptyResult where
  | notEmpty | confirmedEmpty | unexpectedEmpty
  deriving DecidableEq

/-- A row of `extraction_runs`; a run with a permission says whether it found nothing. -/
structure ExtractionRun where
  id : ℕ
  captureId : ℕ
  status : ExtractionStatus
  completedAt : Option ℤ
  createdAt : ℤ
  extractionPermissionId : Option ℕ
  emptyResult : Option EmptyResult
  fenced : extractionPermissionId ≠ none → emptyResult ≠ none

/-- The states of `extracted_offer_candidates`. -/
inductive CandidateStatus where
  | pending | approved | rejected | superseded
  deriving DecidableEq

/-- A row of `extracted_offer_candidates`. -/
structure ExtractedOfferCandidate where
  id : ℕ
  extractionRunId : ℕ
  status : CandidateStatus
  createdAt : ℤ

/-- The actions of a review. -/
inductive ReviewActionKind where
  | approve | correctAndApprove | reject | revoke
  deriving DecidableEq

/-- A row of `review_actions`. -/
structure ReviewAction where
  id : ℕ
  candidateId : ℕ
  action : ReviewActionKind
  decisionBoundaryVersion : Option ℕ
  createdAt : ℤ

/-- The states of `approved_offers`. -/
inductive OfferStatus where
  | approved | published | expired | revoked
  deriving DecidableEq

/-- A row of `approved_offers`. -/
structure ApprovedOffer where
  id : ℕ
  candidateId : Option ℕ
  sourceId : JsString
  status : OfferStatus
  validFrom : ℤ
  validUntil : ℤ
  updatedAt : ℤ

/-- A row of `price_observations` with its run, and whether the reference, the hash and the
confidence it needs are there. -/
structure PriceObservation where
  id : ℕ
  sourceId : JsString
  observedAt : ℤ
  fetchedAt : ℤ
  createdAt : ℤ
  complete : Bool
  /-- When its run of the same source terminalized as completed. -/
  runCompletedAt : Option ℤ

/-- The tables the projection reads. -/
structure Database where
  sources : List DataSource
  permissions : List SourcePermission
  results : List WorkerJobResult
  snapshots : List SourceHealthSnapshot
  facts : List PublicationHealthFact
  publications : List Publication
  captures : List PublicationCapture
  extractions : List ExtractionRun
  candidates : List ExtractedOfferCandidate
  actions : List ReviewAction
  offers : List ApprovedOffer
  observations : List PriceObservation

/-! ### The latest row -/

/-- Rows are ordered by their clock, and by their number where the clocks agree. -/
instance instLinearOrderClockNumber : LinearOrder (ℤ ×ₗ ℕ) := Prod.Lex.instLinearOrder ℤ ℕ

instance instPreorderClockNumber : Preorder (ℤ ×ₗ ℕ) :=
  instLinearOrderClockNumber.toPartialOrder.toPreorder

/-- `order by clock desc, id desc limit 1`. -/
def latestBy {α : Type} (clock : α → ℤ) (number : α → ℕ) (rows : List α) : Option α :=
  rows.argmax fun row => toLex (clock row, number row)

section latestBy

variable {α : Type} {clock : α → ℤ} {number : α → ℕ} {rows : List α} {row : α}

/-- The latest row is one of the rows, and no row has a later clock. -/
theorem latestBy_eq_some (h : latestBy clock number rows = some row) :
    row ∈ rows ∧ ∀ other ∈ rows, clock other ≤ clock row := by
  refine ⟨List.argmax_mem h, fun other hother => ?_⟩
  have hle := List.le_of_mem_argmax hother h
  rw [Prod.Lex.toLex_le_toLex] at hle
  obtain hlt | ⟨heq, -⟩ := hle
  · exact hlt.le
  · exact heq.le

/-- There is no latest row exactly when there is no row. -/
theorem latestBy_eq_none : latestBy clock number rows = none ↔ rows = [] :=
  List.argmax_eq_none

theorem isSome_latestBy : (latestBy clock number rows).isSome ↔ rows ≠ [] := by
  rw [Option.isSome_iff_ne_none, ne_eq, latestBy_eq_none]

end latestBy

/-! ### Governance -/

/-- The governance states of the projection. -/
inductive GovernanceState where
  | approvedCurrent | approvalIncomplete | blocked | conditional | contradictory | expired | revoked
  deriving DecidableEq

/-- The current permission of a source. -/
def currentPermission (db : Database) (observedAt : ℤ) (sourceId : JsString) :
    Option SourcePermission :=
  latestBy (fun p => p.createdAt) (fun p => p.id)
    (db.permissions.filter fun p => p.sourceId = sourceId ∧ p.createdAt ≤ observedAt)

/-- The governance state of a source. -/
def governanceState (db : Database) (observedAt : ℤ) (source : DataSource) : GovernanceState :=
  let permission := currentPermission db observedAt source.id
  if source.runtimeState = .revoked ∨ ∃ p ∈ permission, p.decision = .revoked then .revoked
  else if (permission = none ∧
        (source.permissionReviewedAt ≠ none ∨ source.permissionExpiresAt ≠ none)) ∨
      ∃ p ∈ permission, source.permissionReviewedAt ≠ some p.reviewedAt ∨
        source.permissionExpiresAt ≠ p.validUntil then .contradictory
  else if (∃ t ∈ source.permissionExpiresAt, t ≤ observedAt) ∨
      ∃ p ∈ permission, ∃ t ∈ p.validUntil, t ≤ observedAt then .expired
  else if source.runtimeState = .blocked then .blocked
  else if source.runtimeState = .conditional then .conditional
  else if source.publicStateChangedAt ≤ observedAt ∧
      (∃ t ∈ source.permissionReviewedAt, t ≤ observedAt) ∧
      ∃ p ∈ permission, source.permissionReviewedAt = some p.reviewedAt ∧
        source.permissionExpiresAt = p.validUntil ∧ p.decision = .approved ∧
        p.reviewedAt ≤ observedAt ∧ ∀ t ∈ p.validUntil, observedAt < t then .approvedCurrent
  else .approvalIncomplete

/-! ### Worker results and health -/

/-- Whether a result counts: it has crossed the boundary by the observation clock, and was completed
by then. -/
def WorkerJobResult.Visible (observedAt : ℤ) (sourceId : JsString) (r : WorkerJobResult) : Prop :=
  r.sourceId = sourceId ∧ ∃ t ∈ r.persistedAt, t ≤ observedAt ∧ r.completedAt ≤ t

instance (observedAt : ℤ) (sourceId : JsString) (r : WorkerJobResult) :
    Decidable (r.Visible observedAt sourceId) :=
  inferInstanceAs (Decidable (_ ∧ _))

/-- The visible results of a source. -/
def visibleResults (db : Database) (observedAt : ℤ) (sourceId : JsString) : List WorkerJobResult :=
  db.results.filter fun r => r.Visible observedAt sourceId

/-- The persistence clock of a row that has one. -/
def persisted (clock : Option ℤ) : ℤ := clock.getD 0

/-- `limit 10001` under `count(*)`. -/
def boundedCount {α : Type} (rows : List α) : ℕ := min rows.length 10001

/-- A day, in microseconds. -/
def day : ℤ := 24 * 60 * 60 * 1000000

/-- The results of the last day. -/
def results24h (db : Database) (observedAt : ℤ) (sourceId : JsString) : List WorkerJobResult :=
  (visibleResults db observedAt sourceId).filter fun r => observedAt - day < persisted r.persistedAt

/-- One of the latest results, as the projection shows it. -/
structure LatestWorkerResult where
  completedAt : ℤ
  jobKind : WorkerJobKind
  persistedAt : ℤ
  status : WorkerJobStateStatus

/-- The job kinds in the order of their names. -/
def jobKindsByName : List WorkerJobKind :=
  [.benchmarkPriceRefresh, .catalogRefresh, .historicalObservationCollection,
    .officialOfferDiscovery, .officialOfferFetch, .officialOfferIngestion,
    .officialOfferLifecycleReconcile, .openPricesBenchmarkRefresh, .physicalStoreSync,
    .storeCatalogPriceRefresh]

/-- The latest visible result of a job kind. -/
def latestOfKind (db : Database) (observedAt : ℤ) (sourceId : JsString) (kind : WorkerJobKind) :
    Option WorkerJobResult :=
  latestBy (fun r => persisted r.persistedAt) (fun r => r.id)
    ((visibleResults db observedAt sourceId).filter fun r => r.jobKind = kind)

/-- The latest result of each job kind, by the name of the kind. -/
def latestWorkerResults (db : Database) (observedAt : ℤ) (sourceId : JsString) :
    List LatestWorkerResult :=
  jobKindsByName.filterMap fun kind =>
    (latestOfKind db observedAt sourceId kind).map fun r =>
      { completedAt := r.completedAt
        jobKind := r.jobKind
        persistedAt := persisted r.persistedAt
        status := r.status }

/-- The latest health of a source. -/
def latestHealth (db : Database) (observedAt : ℤ) (sourceId : JsString) :
    Option SourceHealthSnapshot :=
  latestBy (fun s => persisted s.persistedAt) (fun s => s.id)
    (db.snapshots.filter fun s => s.sourceId = sourceId ∧ s.geographicScopeId = none ∧
      ∃ t ∈ s.persistedAt, t ≤ observedAt ∧ s.recordedAt ≤ t)

/-- The latest publication fact of a source. -/
def latestFact (db : Database) (observedAt : ℤ) (sourceId : JsString) :
    Option PublicationHealthFact :=
  latestBy (fun f => f.persistedAt) (fun f => f.id)
    (db.facts.filter fun f => f.sourceId = sourceId ∧ f.persistedAt ≤ observedAt)

/-- The result of the job that wrote a health snapshot. -/
def healthJob (db : Database) (observedAt : ℤ) (sourceId : JsString)
    (health : SourceHealthSnapshot) : Option WorkerJobResult :=
  (visibleResults db observedAt sourceId).find? fun r =>
    some r.jobId = health.workerJobId ∧ persisted r.persistedAt ≤ persisted health.persistedAt

/-- The later of two clocks that may be missing. -/
def laterClock : Option ℤ → Option ℤ → Option ℤ
  | none, b => b
  | a, none => a
  | some a, some b => if b ≤ a then some a else some b

/-- Whether a publication fact is newer than the latest health. -/
def FactIsNewer (health : Option SourceHealthSnapshot) (fact : PublicationHealthFact) : Prop :=
  ∀ h ∈ health, persisted h.persistedAt < fact.persistedAt

instance (health : Option SourceHealthSnapshot) (fact : PublicationHealthFact) :
    Decidable (FactIsNewer health fact) :=
  inferInstanceAs (Decidable (∀ h ∈ health, _))

/-! ### Offers, candidates, extractions and prices -/

/-- The current review action of a candidate. -/
def currentAction (db : Database) (observedAt : ℤ) (candidateId : ℕ) : Option ReviewAction :=
  latestBy (fun a => a.createdAt) (fun a => a.id)
    (db.actions.filter fun a => a.candidateId = candidateId ∧ a.createdAt ≤ observedAt)

/-- Whether a published offer still rests on an approval of the decision boundary. -/
def ApprovedOffer.Administered (db : Database) (observedAt : ℤ) (sourceId : JsString)
    (offer : ApprovedOffer) : Prop :=
  offer.sourceId = sourceId ∧ offer.status = .published ∧ offer.updatedAt ≤ observedAt ∧
    ∃ candidateId ∈ offer.candidateId, ∃ action ∈ currentAction db observedAt candidateId,
      (action.action = .approve ∨ action.action = .correctAndApprove) ∧
        action.decisionBoundaryVersion = some 2

instance (db : Database) (observedAt : ℤ) (sourceId : JsString) (offer : ApprovedOffer) :
    Decidable (offer.Administered db observedAt sourceId) :=
  inferInstanceAs (Decidable (_ ∧ _ ∧ _ ∧ _))

/-- The active published offers of a source. -/
def activeOffers (db : Database) (observedAt : ℤ) (sourceId : JsString) : List ApprovedOffer :=
  db.offers.filter fun offer => offer.Administered db observedAt sourceId ∧
    offer.validFrom ≤ observedAt ∧ observedAt < offer.validUntil

/-- The active published offers of a source that expire within 48 hours. -/
def expiringOffers (db : Database) (observedAt : ℤ) (sourceId : JsString) : List ApprovedOffer :=
  (activeOffers db observedAt sourceId).filter fun offer => offer.validUntil ≤ observedAt + 2 * day

/-- The published offers of a source whose validity is over. -/
def expiredOffers (db : Database) (observedAt : ℤ) (sourceId : JsString) : List ApprovedOffer :=
  db.offers.filter fun offer => offer.Administered db observedAt sourceId ∧
    offer.validUntil ≤ observedAt

/-- Whether an extraction rests on trusted provenance of a source. -/
def ExtractionRun.TrustedOf (db : Database) (sourceId : JsString) (run : ExtractionRun) : Prop :=
  run.extractionPermissionId ≠ none ∧
    ∃ capture ∈ db.captures, capture.id = run.captureId ∧ capture.capturePermissionId ≠ none ∧
      ∃ publication ∈ db.publications, publication.id = capture.publicationId ∧
        publication.sourceId = sourceId ∧ publication.fenced = true

instance (db : Database) (sourceId : JsString) (run : ExtractionRun) :
    Decidable (run.TrustedOf db sourceId) :=
  inferInstanceAs (Decidable (_ ∧ _))

/-- The candidates of a source that wait for review. -/
def pendingCandidates (db : Database) (observedAt : ℤ) (sourceId : JsString) :
    List ExtractedOfferCandidate :=
  db.candidates.filter fun candidate =>
    candidate.status = .pending ∧ candidate.createdAt ≤ observedAt ∧
      (∃ run ∈ db.extractions, run.id = candidate.extractionRunId ∧ run.TrustedOf db sourceId) ∧
      ¬ ∃ action ∈ db.actions, action.candidateId = candidate.id ∧ action.createdAt ≤ observedAt

/-- The latest extraction of a source that is over. -/
def latestExtraction (db : Database) (observedAt : ℤ) (sourceId : JsString) :
    Option ExtractionRun :=
  latestBy (fun run => run.completedAt.getD 0) (fun run => run.id)
    (db.extractions.filter fun run => run.TrustedOf db sourceId ∧
      (run.status = .completed ∨ run.status = .degraded ∨ run.status = .failed) ∧
      (∃ t ∈ run.completedAt, t ≤ observedAt) ∧ run.createdAt ≤ observedAt)

/-- The candidates of an extraction. -/
def candidatesOf (db : Database) (observedAt : ℤ) (run : ExtractionRun) :
    List ExtractedOfferCandidate :=
  db.candidates.filter fun candidate =>
    candidate.extractionRunId = run.id ∧ candidate.createdAt ≤ observedAt

/-- The newest ordinary price of a source. -/
def newestOrdinaryPrice (db : Database) (observedAt : ℤ) (sourceId : JsString) :
    Option PriceObservation :=
  latestBy (fun o => o.observedAt) (fun o => o.id)
    (db.observations.filter fun o => o.sourceId = sourceId ∧ o.createdAt ≤ observedAt ∧
      o.observedAt ≤ observedAt ∧ o.fetchedAt ≤ observedAt ∧ o.complete = true ∧
      ∃ t ∈ o.runCompletedAt, t ≤ observedAt)

/-! ### The projection -/

/-- `OperationsRuntimeRow`. -/
structure OperationsRuntimeRow where
  activePublishedOfferRows : ℕ
  expiredPublishedOfferRows : ℕ
  expiringPublishedOfferRows : ℕ
  governanceState : GovernanceState
  healthPersistedAt : Option ℤ
  healthRecordedAt : Option ℤ
  healthState : Option HealthState
  healthWorkerJobKind : Option WorkerJobKind
  lastCaptureSuccessAt : Option ℤ
  lastDiscoverySuccessAt : Option ℤ
  lastPublishSuccessAt : Option ℤ
  latestExtractionCandidateRows : Option ℕ
  latestExtractionCompletedAt : Option ℤ
  latestExtractionEmptyResult : Option EmptyResult
  latestExtractionState : Option ExtractionStatus
  latestWorkerResults : List LatestWorkerResult
  newestEligibleEvidenceAt : Option ℤ
  newestOrdinaryPriceAt : Option ℤ
  nonSuccessfulWorkerResults24h : ℕ
  observedAt : ℤ
  pendingReviewRows : ℕ
  sourceId : JsString
  workerResults24h : ℕ

/-- The row of one source. -/
def operationsDashboardRow (db : Database) (observedAt : ℤ) (source : DataSource) :
    OperationsRuntimeRow :=
  let health := latestHealth db observedAt source.id
  let fact := latestFact db observedAt source.id
  let newer := fact.filter fun f => FactIsNewer health f
  let extraction := latestExtraction db observedAt source.id
  { activePublishedOfferRows := boundedCount (activeOffers db observedAt source.id)
    expiredPublishedOfferRows := boundedCount (expiredOffers db observedAt source.id)
    expiringPublishedOfferRows := boundedCount (expiringOffers db observedAt source.id)
    governanceState := governanceState db observedAt source
    healthPersistedAt := match newer with
      | some f => some f.persistedAt
      | none => health.bind fun h => h.persistedAt
    healthRecordedAt := match newer with
      | some f => some f.lastPublishSuccessAt
      | none => health.map fun h => h.recordedAt
    healthState := match newer with
      | some _ => some .degraded
      | none => health.map fun h => h.status
    healthWorkerJobKind := match newer with
      | some _ => none
      | none => (health.bind (healthJob db observedAt source.id)).map fun r => r.jobKind
    lastCaptureSuccessAt := health.bind fun h => h.lastCaptureSuccessAt
    lastDiscoverySuccessAt := health.bind fun h => h.lastDiscoverySuccessAt
    lastPublishSuccessAt := laterClock (health.bind fun h => h.lastPublishSuccessAt)
      (fact.map fun f => f.lastPublishSuccessAt)
    latestExtractionCandidateRows :=
      extraction.map fun run => boundedCount (candidatesOf db observedAt run)
    latestExtractionCompletedAt := extraction.bind fun run => run.completedAt
    latestExtractionEmptyResult := extraction.bind fun run => run.emptyResult
    latestExtractionState := extraction.map fun run => run.status
    latestWorkerResults := latestWorkerResults db observedAt source.id
    newestEligibleEvidenceAt := laterClock (health.bind fun h => h.newestEligibleEvidenceAt)
      (fact.map fun f => f.newestEligibleEvidenceAt)
    newestOrdinaryPriceAt :=
      (newestOrdinaryPrice db observedAt source.id).map fun o => o.observedAt
    nonSuccessfulWorkerResults24h :=
      boundedCount ((results24h db observedAt source.id).filter fun r => r.status ≠ .succeeded)
    observedAt := observedAt
    pendingReviewRows := boundedCount (pendingCandidates db observedAt source.id)
    sourceId := source.id
    workerResults24h := boundedCount (results24h db observedAt source.id) }

/-- The stored source of an identifier. -/
def Database.source (db : Database) (sourceId : JsString) : Option DataSource :=
  db.sources.find? fun source => source.id = sourceId

/-- `operations_dashboard_rows_v1`, for the sources of a roster: it raises when one is not stored,
and leaves out those created after the observation clock. -/
def operationsDashboardRows (db : Database) (observedAt : ℤ) (sourceIds : List JsString) :
    Option (List OperationsRuntimeRow) :=
  if ∀ sourceId ∈ sourceIds, (db.source sourceId).isSome then
    some (sourceIds.filterMap fun sourceId =>
      ((db.source sourceId).filter fun source => source.createdAt ≤ observedAt).map
        (operationsDashboardRow db observedAt))
  else none

/-! ### What the projection selects -/

variable {db : Database} {observedAt : ℤ} {sourceId : JsString}

theorem visible_of_mem {r : WorkerJobResult} (h : r ∈ visibleResults db observedAt sourceId) :
    r.Visible observedAt sourceId :=
  of_decide_eq_true (List.mem_filter.mp h).2

/-- A visible result was completed before it was persisted, and persisted before it is observed. -/
theorem clocks_of_visible {r : WorkerJobResult} (h : r.Visible observedAt sourceId) :
    r.completedAt ≤ persisted r.persistedAt ∧ persisted r.persistedAt ≤ observedAt := by
  obtain ⟨-, t, ht, hobserved, hcompleted⟩ := h
  rw [Option.mem_def.mp ht]
  exact ⟨hcompleted, hobserved⟩

/-- The latest health has crossed the boundary by the observation clock. -/
theorem latestHealth_spec {health : SourceHealthSnapshot}
    (h : latestHealth db observedAt sourceId = some health) :
    ∃ t, health.persistedAt = some t ∧ t ≤ observedAt ∧ health.recordedAt ≤ t := by
  have hmem := (List.mem_filter.mp (latestBy_eq_some h).1).2
  simp only [decide_eq_true_eq] at hmem
  obtain ⟨-, -, t, ht, hobserved, hrecorded⟩ := hmem
  exact ⟨t, ht, hobserved, hrecorded⟩

/-- **The job of the latest health** is a visible result of the source, and a worker wrote that
health. -/
theorem healthJob_visible {health : SourceHealthSnapshot} {r : WorkerJobResult}
    (h : healthJob db observedAt sourceId health = some r) :
    r ∈ visibleResults db observedAt sourceId ∧ health.workerJobId ≠ none := by
  have hfound := List.find?_some h
  simp only [decide_eq_true_eq] at hfound
  refine ⟨List.mem_of_find?_eq_some h, ?_⟩
  rw [← hfound.1]
  exact Option.some_ne_none _

theorem latestExtraction_spec {run : ExtractionRun}
    (h : latestExtraction db observedAt sourceId = some run) :
    (∃ t, run.completedAt = some t ∧ t ≤ observedAt) ∧ (∃ e, run.emptyResult = some e) ∧
      (run.status = .completed ∨ run.status = .degraded ∨ run.status = .failed) := by
  have hmem := (List.mem_filter.mp (latestBy_eq_some h).1).2
  simp only [decide_eq_true_eq] at hmem
  obtain ⟨htrusted, hstatus, ⟨t, ht, hobserved⟩, -⟩ := hmem
  exact ⟨⟨t, ht, hobserved⟩, Option.ne_none_iff_exists'.mp (run.fenced htrusted.1), hstatus⟩

theorem newestOrdinaryPrice_spec {o : PriceObservation}
    (h : newestOrdinaryPrice db observedAt sourceId = some o) : o.observedAt ≤ observedAt := by
  have hmem := (List.mem_filter.mp (latestBy_eq_some h).1).2
  simp only [decide_eq_true_eq] at hmem
  exact hmem.2.2.1

/-- A shown result is a visible result of its kind. -/
theorem mem_latestWorkerResults {item : LatestWorkerResult}
    (h : item ∈ latestWorkerResults db observedAt sourceId) :
    ∃ r ∈ visibleResults db observedAt sourceId, item.jobKind = r.jobKind ∧
      item.completedAt = r.completedAt ∧ item.persistedAt = persisted r.persistedAt := by
  obtain ⟨kind, -, hitem⟩ := List.mem_filterMap.mp h
  obtain ⟨r, hr, rfl⟩ := Option.map_eq_some_iff.mp hitem
  exact ⟨r, (List.mem_filter.mp (latestBy_eq_some hr).1).1, rfl, rfl, rfl⟩

end Handleplan.Operations
