import Handleplan.Db.OperationsRuntime
import Handleplan.Domain.OfferIngestionContracts
import Handleplan.Lib.CivilTime
import Handleplan.Lib.JsonText
import Handleplan.Lib.Serial

/-!
# The ledger of operational alerts

`append_operations_alert_evaluation_v1` takes an evaluation of a roster of sources: one assessment
for each alert. It checks its arguments, takes the advisory lock of the ledger, and appends an event
for each alert whose assessment differs from the newest event of the alert, and then a checkpoint.
An evaluation that is the newest checkpoint already is a replay, which appends nothing.
`operations_alert_export_rows_v1` reads the events of alerts in pages.

## Main definitions

* `AlertLedger.OperationalAlertEvaluation` — evaluations, with the schemas of the
  contracts.
* `AlertLedger.ArgumentsAccepted` — the checks of the arguments in the database.
* `AlertLedger.append` — the function that appends.
* `AlertLedger.database` — the function over the ledger, in interleaved sessions.
* `AlertLedger.exportRows`, `readBatch` — the pages of the export.

## Implementation notes

Database times are microseconds since the epoch, and those of the contracts are milliseconds. Events
from before the operations boundary, which no statement selects, are left out. Arguments of another
shape, and texts outside the enumerations, are refused by the first checks, but for a status: the
function only asks whether it is `closed`, so the statuses are those of the table. `collate "C"`
compares texts whose pattern has been checked, so it is the order of their code units. Aborting a
transaction stands for a statement that fails or is cancelled.
-/

namespace Handleplan.AlertLedger

open JsString JsonText Sorting Operations Workers Interaction Sessions RowLocks

/-! ### Evaluations -/

/-- `operationalEvidenceSignalKindSchema`. -/
inductive EvidenceSignalKind where
  | officialOffer | ordinaryPrice
  deriving DecidableEq

/-- The name of a signal kind. -/
def EvidenceSignalKind.text : EvidenceSignalKind → JsString
  | .officialOffer => js "official-offer"
  | .ordinaryPrice => js "ordinary-price"

/-- `operationsSourceRosterEntryV1Schema`, its type. -/
structure RosterEntry where
  requiredEvidenceSignals : List EvidenceSignalKind
  requiredWorkerJobKinds : List WorkerJobKind
  sourceId : JsString
  deriving DecidableEq

/-- `OperationsSourceRosterV1`. -/
structure SourceRoster where
  contentSha256 : JsString
  entries : List RosterEntry
  version : JsString
  deriving DecidableEq

/-- The identifiers of the sources of a roster. -/
def SourceRoster.sourceIds (roster : SourceRoster) : List JsString :=
  roster.entries.map fun entry => entry.sourceId

/-- `operationalAlertKeySchema`. -/
inductive AlertKey where
  | apiCoordinatorOutage | apiErrorRate | apiLatency | apiSaturation | backupStatus
  | certificateStatus | databaseSaturation | diskStatus | offerExpired | offerExpiring
  | reviewQueueAge | sourceFreshness | sourceSilentZeroPublication | workerLag
  deriving DecidableEq

/-- The text of an alert key. -/
def AlertKey.text : AlertKey → JsString
  | .apiCoordinatorOutage => js "api.coordinator-outage"
  | .apiErrorRate => js "api.error-rate"
  | .apiLatency => js "api.latency"
  | .apiSaturation => js "api.saturation"
  | .backupStatus => js "backup.status"
  | .certificateStatus => js "certificate.status"
  | .databaseSaturation => js "database.saturation"
  | .diskStatus => js "disk.status"
  | .offerExpired => js "offer.expired"
  | .offerExpiring => js "offer.expiring"
  | .reviewQueueAge => js "review.queue-age"
  | .sourceFreshness => js "source.freshness"
  | .sourceSilentZeroPublication => js "source.silent-zero-publication"
  | .workerLag => js "worker.lag"

/-- `globalKeys`. -/
def globalKeys : List AlertKey :=
  [.apiCoordinatorOutage, .apiErrorRate, .apiLatency, .apiSaturation, .backupStatus,
    .certificateStatus, .databaseSaturation, .diskStatus]

/-- `sourceKeys`. -/
def sourceKeys : List AlertKey :=
  [.offerExpired, .offerExpiring, .reviewQueueAge, .sourceFreshness, .sourceSilentZeroPublication,
    .workerLag]

/-- `operationalAlertOutcomeSchema`. -/
inductive AlertOutcome where
  | ok | warning | critical | unknown
  deriving DecidableEq

/-- The severities of `alert_events`. -/
inductive AlertSeverity where
  | info | warning | critical
  deriving DecidableEq

/-- The statuses of `alert_events`. -/
inductive AlertStatus where
  | opened | acknowledged | closed
  deriving DecidableEq

/-- `operationalAlertAssessmentV1Schema`, its type. -/
structure Assessment where
  alertKey : AlertKey
  outcome : AlertOutcome
  severity : AlertSeverity
  sourceId : Option JsString
  status : AlertStatus
  deriving DecidableEq

/-- `OperationalAlertEvaluationV1`; its clock in milliseconds. -/
structure OperationalAlertEvaluation where
  assessments : List Assessment
  evaluatedAt : ℤ
  sourceRoster : SourceRoster

/-! ### The schemas of the contracts -/

/-- `OPERATIONAL_WORKER_JOB_KINDS`. -/
def operationalWorkerJobKinds : List WorkerJobKind :=
  [.benchmarkPriceRefresh, .catalogRefresh, .historicalObservationCollection,
    .officialOfferDiscovery, .officialOfferFetch, .officialOfferIngestion,
    .officialOfferLifecycleReconcile, .physicalStoreSync, .storeCatalogPriceRefresh]

/-- Texts that are unique, and canonically sorted. -/
def SortedTexts (texts : List JsString) : Prop :=
  texts.Nodup ∧ sortBy compareText texts = texts

instance : DecidablePred SortedTexts := fun _ => inferInstanceAs (Decidable (_ ∧ _))

/-- `operationsSourceRosterEntryV1Schema`. -/
@[mk_iff] structure RosterEntrySchema (entry : RosterEntry) : Prop where
  signalsBound : 1 ≤ entry.requiredEvidenceSignals.length ∧ entry.requiredEvidenceSignals.length ≤ 2
  kinds : ∀ kind ∈ entry.requiredWorkerJobKinds, kind ∈ operationalWorkerJobKinds
  kindsBound : 1 ≤ entry.requiredWorkerJobKinds.length ∧
    entry.requiredWorkerJobKinds.length ≤ operationalWorkerJobKinds.length
  sourceId : SourceIdentifier entry.sourceId
  signalsSorted : SortedTexts (entry.requiredEvidenceSignals.map EvidenceSignalKind.text)
  kindsSorted : SortedTexts (entry.requiredWorkerJobKinds.map WorkerJobKind.text)

instance : DecidablePred RosterEntrySchema := fun _ => decidable_of_iff' _ (rosterEntrySchema_iff _)

/-- Whether a code unit may follow the first of the version of a roster. -/
def IsVersionUnit (u : UInt16) : Prop :=
  (97 ≤ u ∧ u ≤ 122) ∨ (48 ≤ u ∧ u ≤ 57) ∨ u ∈ js "._:-"

instance : DecidablePred IsVersionUnit := fun _ => inferInstanceAs (Decidable (_ ∨ _ ∨ _))

/-- `/^[a-z0-9][a-z0-9._:-]*$/u` of at most 80 characters. -/
def RosterVersion (version : JsString) : Prop :=
  1 ≤ version.length ∧ version.length ≤ 80 ∧
    (∀ u ∈ version.head?, (97 ≤ u ∧ u ≤ 122) ∨ (48 ≤ u ∧ u ≤ 57)) ∧ ∀ u ∈ version, IsVersionUnit u

instance : DecidablePred RosterVersion := fun _ => inferInstanceAs (Decidable (_ ∧ _ ∧ _ ∧ _))

/-- `operationsSourceRosterV1Schema`. -/
@[mk_iff] structure SourceRosterSchema (roster : SourceRoster) : Prop where
  contentSha256 : Sha256Schema roster.contentSha256
  entries : ∀ entry ∈ roster.entries, RosterEntrySchema entry
  bound : 1 ≤ roster.entries.length ∧ roster.entries.length ≤ 100
  version : RosterVersion roster.version
  sorted : SortedTexts roster.sourceIds

instance : DecidablePred SourceRosterSchema := fun _ => decidable_of_iff' _ (sourceRosterSchema_iff _)

/-- Whether an alert is one of a source: `needsSource`. -/
def AlertKey.NeedsSource (key : AlertKey) : Prop :=
  js "source." <+: key.text ∨ js "offer." <+: key.text ∨ key = .reviewQueueAge ∨ key = .workerLag

instance : DecidablePred AlertKey.NeedsSource := fun _ => inferInstanceAs (Decidable (_ ∨ _ ∨ _ ∨ _))

/-- Whether outcome, severity and status agree. -/
def StateAgrees (outcome : AlertOutcome) (severity : AlertSeverity) (status : AlertStatus) : Prop :=
  ¬ (¬ (outcome = .ok ↔ status = .closed) ∨ (outcome = .ok ∧ severity ≠ .info) ∨
    (outcome = .critical ∧ severity ≠ .critical) ∨
    (outcome ∈ [AlertOutcome.warning, .unknown] ∧ severity ≠ .warning))

instance (outcome : AlertOutcome) (severity : AlertSeverity) (status : AlertStatus) :
    Decidable (StateAgrees outcome severity status) :=
  inferInstanceAs (Decidable (¬ (_ ∨ _ ∨ _ ∨ _)))

/-- `operationalAlertAssessmentV1Schema`. -/
@[mk_iff] structure AssessmentSchema (assessment : Assessment) : Prop where
  status : assessment.status ≠ .acknowledged
  sourceId : ∀ sourceId ∈ assessment.sourceId, SourceIdentifier sourceId
  scope : assessment.alertKey.NeedsSource ↔ assessment.sourceId ≠ none
  state : StateAgrees assessment.outcome assessment.severity assessment.status

instance : DecidablePred AssessmentSchema := fun _ => decidable_of_iff' _ (assessmentSchema_iff _)

/-- The identity of an assessment. -/
def Assessment.identity (assessment : Assessment) : JsString :=
  assessment.alertKey.text ++ 0 :: assessment.sourceId.getD []

/-- `expectedIdentities`, before they are sorted. -/
def SourceRoster.identities (roster : SourceRoster) : List JsString :=
  (globalKeys.map fun key => key.text ++ [0]) ++
    roster.sourceIds.flatMap fun sourceId => sourceKeys.map fun key => key.text ++ 0 :: sourceId

/-- `operationalAlertEvaluationV1Schema`. -/
@[mk_iff] structure EvaluationSchema (evaluation : OperationalAlertEvaluation) : Prop where
  assessments : ∀ assessment ∈ evaluation.assessments, AssessmentSchema assessment
  bound : evaluation.assessments.length ≤ 8 + 100 * 6
  evaluatedAt : CanonicalTimestamp evaluation.evaluatedAt
  sourceRoster : SourceRosterSchema evaluation.sourceRoster
  unique : (evaluation.assessments.map Assessment.identity).Nodup
  matrix : sortBy compareText (evaluation.assessments.map Assessment.identity) =
    sortBy compareText evaluation.sourceRoster.identities
  sorted : (evaluation.assessments.map Assessment.identity).IsChain fun a b =>
    compareText a b ≠ .gt

instance : DecidablePred EvaluationSchema := fun evaluation =>
  @decidable_of_iff' _ _ (evaluationSchema_iff evaluation)
    (inferInstanceAs (Decidable (_ ∧ _ ∧ _ ∧ _ ∧ _ ∧ _ ∧
      List.IsChain (fun a b => compareText a b ≠ .gt) _)))

/-- The JSON text of an entry of a roster, given how a text is written. -/
def entryText (write : JsString → JsString) (entry : RosterEntry) : JsString :=
  js "\x7b\"requiredEvidenceSignals\":" ++
    stringifyList (entry.requiredEvidenceSignals.map fun kind => write kind.text) ++
    js ",\"requiredWorkerJobKinds\":" ++
    stringifyList (entry.requiredWorkerJobKinds.map fun kind => write kind.text) ++
    js ",\"sourceId\":" ++ write entry.sourceId ++ js "\x7d"

/-- The JSON text of a roster without its digest. -/
def rosterText (write : JsString → JsString) (roster : SourceRoster) : JsString :=
  js "\x7b\"contractVersion\":1,\"entries\":" ++ stringifyList (roster.entries.map (entryText write)) ++
    js ",\"version\":" ++ write roster.version ++ js "\x7d"

/-- `canonicalizeOperationsSourceRosterV1`. -/
def canonicalizeOperationsSourceRosterV1 (roster : SourceRoster) : JsString :=
  rosterText stringify roster

/-! ### The checks of the arguments in the database -/

/-- The arguments of `append_operations_alert_evaluation_v1`; the clock in microseconds. -/
structure EvaluationArguments where
  evaluatedAt : ℤ
  sourceRoster : SourceRoster
  assessments : List Assessment
  deriving DecidableEq

/-- The arguments that `PostgresOperationalAlertAppender.append` passes. -/
def OperationalAlertEvaluation.arguments (evaluation : OperationalAlertEvaluation) :
    EvaluationArguments where
  evaluatedAt := evaluation.evaluatedAt * 1000
  sourceRoster := evaluation.sourceRoster
  assessments := evaluation.assessments

/-- The worker jobs that the function allows. -/
def allowedWorkerJobKinds : List WorkerJobKind :=
  [.benchmarkPriceRefresh, .catalogRefresh, .historicalObservationCollection,
    .officialOfferDiscovery, .officialOfferFetch, .officialOfferIngestion,
    .officialOfferLifecycleReconcile, .physicalStoreSync]

/-- Texts each of which is after the one before it, `collate "C"`. -/
def Ascending (texts : List JsString) : Prop := texts.IsChain fun a b => compareText a b = .lt

instance : DecidablePred Ascending :=
  fun texts => inferInstanceAs (Decidable (texts.IsChain fun a b => compareText a b = .lt))

/-- The check of a roster entry. -/
@[mk_iff] structure EntryAccepted (entry : RosterEntry) : Prop where
  sourceId : SourceIdentifier entry.sourceId
  signalsBound : 1 ≤ entry.requiredEvidenceSignals.length ∧ entry.requiredEvidenceSignals.length ≤ 2
  signalsSorted : SortedTexts (entry.requiredEvidenceSignals.map EvidenceSignalKind.text)
  kindsBound : 1 ≤ entry.requiredWorkerJobKinds.length ∧ entry.requiredWorkerJobKinds.length ≤ 8
  kinds : ∀ kind ∈ entry.requiredWorkerJobKinds, kind ∈ allowedWorkerJobKinds
  kindsSorted : SortedTexts (entry.requiredWorkerJobKinds.map WorkerJobKind.text)

instance : DecidablePred EntryAccepted := fun _ => decidable_of_iff' _ (entryAccepted_iff _)

/-- `v_canonical_roster`. -/
def canonicalRoster (roster : SourceRoster) : JsString := rosterText quote roster

/-- The checks of the clock and the roster. -/
@[mk_iff] structure RosterAccepted (sha256 : JsString → JsString) (call : EvaluationArguments) :
    Prop where
  evaluatedAt : call.evaluatedAt % 1000 = 0
  bound : 1 ≤ call.sourceRoster.entries.length ∧ call.sourceRoster.entries.length ≤ 100
  contentSha256 : Sha256Schema call.sourceRoster.contentSha256
  version : RosterVersion call.sourceRoster.version
  entries : ∀ entry ∈ call.sourceRoster.entries, EntryAccepted entry
  ascending : Ascending call.sourceRoster.sourceIds
  digest : sha256 (canonicalRoster call.sourceRoster) = call.sourceRoster.contentSha256

instance (sha256 : JsString → JsString) : DecidablePred (RosterAccepted sha256) :=
  fun _ => decidable_of_iff' _ (rosterAccepted_iff _ _)

/-- The scope of an assessment is a source of the roster, or none. -/
def ScopeAccepted (roster : SourceRoster) (assessment : Assessment) : Prop :=
  if assessment.alertKey ∈ sourceKeys then
    ∃ sourceId ∈ assessment.sourceId, sourceId ∈ roster.sourceIds
  else assessment.sourceId = none

instance (roster : SourceRoster) : DecidablePred (ScopeAccepted roster) := fun assessment =>
  inferInstanceAs (Decidable (if assessment.alertKey ∈ sourceKeys then
    ∃ sourceId ∈ assessment.sourceId, sourceId ∈ roster.sourceIds else assessment.sourceId = none))

/-- An assessment may follow another one, `collate "C"`. -/
def Follows (previous assessment : Assessment) : Prop :=
  ¬ (compareText previous.alertKey.text assessment.alertKey.text = .gt ∨
    (previous.alertKey = assessment.alertKey ∧
      compareText (previous.sourceId.getD []) (assessment.sourceId.getD []) ≠ .lt))

instance : DecidableRel Follows := fun _ _ => inferInstanceAs (Decidable (¬ (_ ∨ _)))

/-- How many assessments are of an alert. -/
def countOf (assessments : List Assessment) (key : AlertKey) (sourceId : Option JsString) : ℕ :=
  (assessments.filter fun a => a.alertKey = key ∧ a.sourceId = sourceId).length

/-- The checks of the assessments. -/
@[mk_iff] structure MatrixAccepted (call : EvaluationArguments) : Prop where
  length : call.assessments.length = 8 + 6 * call.sourceRoster.sourceIds.length
  states : ∀ a ∈ call.assessments, StateAgrees a.outcome a.severity a.status
  scopes : ∀ a ∈ call.assessments, ScopeAccepted call.sourceRoster a
  sorted : call.assessments.IsChain Follows
  globals : ∀ key ∈ globalKeys, countOf call.assessments key none = 1
  sources : ∀ sourceId ∈ call.sourceRoster.sourceIds, ∀ key ∈ sourceKeys,
    countOf call.assessments key (some sourceId) = 1

instance : DecidablePred MatrixAccepted := fun _ => decidable_of_iff' _ (matrixAccepted_iff _)

/-- **The checks of the arguments.** -/
def ArgumentsAccepted (sha256 : JsString → JsString) (call : EvaluationArguments) : Prop :=
  RosterAccepted sha256 call ∧ MatrixAccepted call

/-! ### Events -/

/-- `alert_key`: the checkpoint of an evaluation, or an alert. -/
inductive EventKey where
  | evaluationCheckpoint
  | alert (key : AlertKey)
  deriving DecidableEq

/-- `details`; a checkpoint has its kind in the place of an outcome. -/
structure EventDetails where
  evaluatedAt : JsString
  evaluationContentSha256 : JsString
  outcome : Option AlertOutcome
  sourceRosterContentSha256 : JsString
  sourceRosterVersion : JsString
  deriving DecidableEq

/-- What is inserted into `alert_events`. -/
structure NewAlertEvent where
  alertKey : EventKey
  severity : AlertSeverity
  status : AlertStatus
  sourceId : Option JsString
  openedAt : ℤ
  closedAt : Option ℤ
  details : EventDetails
  deriving DecidableEq

/-- What the database gives an event: its number, and the clock of its insertion. -/
structure Stamp where
  id : ℕ
  persistedAt : ℤ
  deriving DecidableEq

/-- A row of `alert_events`. -/
structure AlertEvent extends NewAlertEvent, Stamp
  deriving DecidableEq

variable (event : NewAlertEvent)

/-- The row of an event that is inserted. -/
def NewAlertEvent.stamped (stamp : Stamp) : AlertEvent :=
  { event with id := stamp.id, persistedAt := stamp.persistedAt }

/-- `alert_events_time_range`. -/
def NewAlertEvent.IsInRange : Prop :=
  ∀ closedAt ∈ event.closedAt, event.openedAt ≤ closedAt

instance : DecidablePred NewAlertEvent.IsInRange :=
  fun event => inferInstanceAs (Decidable (∀ closedAt ∈ event.closedAt, _))

/-- `(details ->> 'evaluatedAt')::timestamptz`, in microseconds; `none` for a text of another
form. -/
def NewAlertEvent.evaluatedAt? : Option ℤ :=
  (CivilTime.read event.details.evaluatedAt).map (· * 1000)

/-- The newest event of a kind: `order by id desc limit 1`. -/
def newest (rows : List AlertEvent) (key : EventKey) (sourceId : Option JsString) :
    Option AlertEvent :=
  (rows.filter fun event => event.alertKey = key ∧ event.sourceId = sourceId).argmax
    fun event => event.id

/-- The checks of the newest checkpoint. -/
@[mk_iff] structure CheckpointIsSound (event : AlertEvent) : Prop where
  status : event.status = .closed
  severity : event.severity = .info
  closedAt : event.closedAt = some event.openedAt
  openedAt : event.openedAt ≤ event.persistedAt
  outcome : event.details.outcome = none
  evaluation : Sha256Schema event.details.evaluationContentSha256
  roster : Sha256Schema event.details.sourceRosterContentSha256
  evaluatedAt : ∃ t ∈ event.evaluatedAt?, t ≤ event.openedAt

/-- The outcome of an event is there and agrees with its severity and status. -/
def OutcomeAgrees (event : AlertEvent) : Prop :=
  event.status ≠ .acknowledged ∧
    ∃ outcome ∈ event.details.outcome, StateAgrees outcome event.severity event.status

instance : DecidablePred OutcomeAgrees :=
  fun event => inferInstanceAs (Decidable (_ ∧ ∃ outcome ∈ event.details.outcome, _))

/-- The checks of the newest event of an alert, at the clock of a call. -/
@[mk_iff] structure TransitionIsSound (eventAt : ℤ) (event : AlertEvent) : Prop where
  closedAt : event.status = .closed ↔ event.closedAt ≠ none
  range : event.openedAt ≤ event.closedAt.getD eventAt
  openedAt : event.openedAt ≤ event.persistedAt
  evaluation : Sha256Schema event.details.evaluationContentSha256
  roster : Sha256Schema event.details.sourceRosterContentSha256
  evaluatedAt : ∃ t ∈ event.evaluatedAt?, t ≤ event.persistedAt
  outcome : OutcomeAgrees event

instance : DecidablePred CheckpointIsSound :=
  fun event => @decidable_of_iff' _ _ (checkpointIsSound_iff _)
    (inferInstanceAs (Decidable (_ ∧ _ ∧ _ ∧ _ ∧ _ ∧ _ ∧ _ ∧ ∃ t ∈ event.evaluatedAt?, _)))

instance (eventAt : ℤ) : DecidablePred (TransitionIsSound eventAt) :=
  fun event => @decidable_of_iff' _ _ (transitionIsSound_iff _ _)
    (inferInstanceAs (Decidable (_ ∧ _ ∧ _ ∧ _ ∧ _ ∧ (∃ t ∈ event.evaluatedAt?, _) ∧ _)))

/-! ### Statements -/

/-- What an advisory lock is of. -/
inductive LockName where
  | evaluation
  | alert (key : AlertKey) (sourceId : Option JsString)

/-- A statement of the function. -/
inductive Query where
  | countSources (sourceIds : List JsString)
  | advisoryLock (name : LockName)
  | clockTimestamp
  | selectNewest (key : EventKey) (sourceId : Option JsString)
  | insertEvent (event : NewAlertEvent)

/-- The answer of a statement. -/
def Answer : Query → Type
  | .countSources _ => ℕ
  | .advisoryLock _ => Unit
  | .clockTimestamp => ℤ
  | .selectNewest _ _ => Option AlertEvent
  | .insertEvent _ => Stamp

/-- The exceptions of the function. -/
inductive EvaluationError where
  | invalidArguments | unknownSource | futureDated | corruptCheckpoint | olderThanCheckpoint
  | replayConflicts | corruptTransition | transitionPostdates | transitionConflicts
  deriving DecidableEq

/-- What the function returns. -/
structure Receipt where
  appendedCount : ℕ
  checkpointEvaluatedAt : ℤ
  evaluationContentSha256 : JsString
  checkpointPersistedAt : ℤ
  sourceRosterContentSha256 : JsString
  sourceRosterVersion : JsString

/-- A program over the ledger. -/
abbrev LedgerProg := Prog Query Answer EvaluationError

/-- One statement. -/
def ask (query : Query) : LedgerProg (Answer query) := Prog.query query

/-! ### The function -/

/-- The details that a call writes. -/
def details (evaluationSha256 : EvaluationArguments → JsString) (call : EvaluationArguments)
    (outcome : Option AlertOutcome) : EventDetails where
  evaluatedAt := CivilTime.textOf (call.evaluatedAt / 1000)
  evaluationContentSha256 := evaluationSha256 call
  outcome := outcome
  sourceRosterContentSha256 := call.sourceRoster.contentSha256
  sourceRosterVersion := call.sourceRoster.version

/-- Whether details name a roster. -/
def EventDetails.IsOf (details : EventDetails) (roster : SourceRoster) : Prop :=
  details.sourceRosterContentSha256 = roster.contentSha256 ∧
    details.sourceRosterVersion = roster.version

instance (details : EventDetails) (roster : SourceRoster) : Decidable (details.IsOf roster) :=
  inferInstanceAs (Decidable (_ ∧ _))

/-- Whether an event carries an assessment under a roster. -/
def Carries (event : AlertEvent) (assessment : Assessment) (roster : SourceRoster) : Prop :=
  event.details.outcome = some assessment.outcome ∧ event.severity = assessment.severity ∧
    event.status = assessment.status ∧ event.details.IsOf roster

instance (event : AlertEvent) (assessment : Assessment) (roster : SourceRoster) :
    Decidable (Carries event assessment roster) :=
  inferInstanceAs (Decidable (_ ∧ _ ∧ _ ∧ _))

variable (evaluationSha256 : EvaluationArguments → JsString)

variable (call : EvaluationArguments)

/-- The event of an assessment. -/
def transition (eventAt openedAt : ℤ) (assessment : Assessment) :
    NewAlertEvent where
  alertKey := .alert assessment.alertKey
  severity := assessment.severity
  status := assessment.status
  sourceId := assessment.sourceId
  openedAt := openedAt
  closedAt := if assessment.status = .closed then some eventAt else none
  details := details evaluationSha256 call (some assessment.outcome)

/-- The event of the checkpoint. -/
def checkpoint (eventAt : ℤ) : NewAlertEvent where
  alertKey := .evaluationCheckpoint
  severity := .info
  status := .closed
  sourceId := none
  openedAt := eventAt
  closedAt := some eventAt
  details := details evaluationSha256 call none

/-- What the function returns after so many events, for a checkpoint of some clock. -/
def receipt (appended : ℕ) (persistedAt : ℤ) : Receipt where
  appendedCount := appended
  checkpointEvaluatedAt := call.evaluatedAt
  evaluationContentSha256 := evaluationSha256 call
  checkpointPersistedAt := persistedAt
  sourceRosterContentSha256 := call.sourceRoster.contentSha256
  sourceRosterVersion := call.sourceRoster.version

section Function

variable (sha256 : JsString → JsString) (evaluationSha256 : EvaluationArguments → JsString)
  (call : EvaluationArguments)

/-- The insertion of the event of an assessment. -/
def insertTransition (eventAt openedAt : ℤ) (appended : ℕ) (assessment : Assessment) :
    LedgerProg ℕ := do
  let _ ← ask (.insertEvent (transition evaluationSha256 call eventAt openedAt assessment))
  return appended + 1

/-- Whether the newest event of an alert, evaluated at the instant of a call, is one of that
call. -/
def IsOfCall (prior : AlertEvent) (assessment : Assessment) : Prop :=
  prior.details.evaluationContentSha256 = evaluationSha256 call ∧
    Carries prior assessment call.sourceRoster

instance (prior : AlertEvent) (assessment : Assessment) :
    Decidable (IsOfCall evaluationSha256 call prior assessment) :=
  inferInstanceAs (Decidable (_ ∧ _))

variable (eventAt : ℤ)

/-- What the newest event of an alert lets a call append. -/
def appendAfter (appended : ℕ) (assessment : Assessment) :
    Option AlertEvent → LedgerProg ℕ
  | none => insertTransition evaluationSha256 call eventAt eventAt appended assessment
  | some prior => do
    Prog.require (TransitionIsSound eventAt prior) .corruptTransition
    let evaluatedAt ← Prog.orFail .corruptTransition prior.evaluatedAt?
    Prog.require (evaluatedAt ≤ call.evaluatedAt) .transitionPostdates
    Prog.require (evaluatedAt = call.evaluatedAt → IsOfCall evaluationSha256 call prior assessment)
      .transitionConflicts
    if Carries prior assessment call.sourceRoster then return appended
    else
      let openedAt := if prior.status = .opened then prior.openedAt else eventAt
      insertTransition evaluationSha256 call eventAt openedAt appended assessment

/-- The loop over the assessments: its body. -/
def appendTransition (appended : ℕ) (assessment : Assessment) : LedgerProg ℕ := do
  ask (.advisoryLock (.alert assessment.alertKey assessment.sourceId))
  let prior ← ask (.selectNewest (.alert assessment.alertKey) assessment.sourceId)
  appendAfter evaluationSha256 call eventAt appended assessment prior

/-- The loop over the assessments, and the checkpoint after it. -/
def appendAll : LedgerProg Receipt := do
  let appended ← call.assessments.foldlM (appendTransition evaluationSha256 call eventAt) 0
  let stamp : Stamp ← ask (.insertEvent (checkpoint evaluationSha256 call eventAt))
  return receipt evaluationSha256 call appended stamp.persistedAt

/-- Whether a checkpoint is the one of a call. -/
def IsCheckpointOf (prior : AlertEvent) : Prop :=
  prior.details.evaluationContentSha256 = evaluationSha256 call ∧
    prior.details.IsOf call.sourceRoster

instance (prior : AlertEvent) : Decidable (IsCheckpointOf evaluationSha256 call prior) :=
  inferInstanceAs (Decidable (_ ∧ _))

/-- What the newest checkpoint lets a call do. -/
def evaluateAfter : Option AlertEvent → LedgerProg Receipt
  | none => appendAll evaluationSha256 call eventAt
  | some prior => do
    Prog.require (CheckpointIsSound prior) .corruptCheckpoint
    let evaluatedAt ← Prog.orFail .corruptCheckpoint prior.evaluatedAt?
    Prog.require (evaluatedAt ≤ call.evaluatedAt) .olderThanCheckpoint
    if evaluatedAt = call.evaluatedAt then
      Prog.require (IsCheckpointOf evaluationSha256 call prior) .replayConflicts
      return receipt evaluationSha256 call 0 prior.persistedAt
    else appendAll evaluationSha256 call eventAt

/-- What the function does under the lock, at the clock it has read. -/
def evaluate : LedgerProg Receipt := do
  Prog.require (call.evaluatedAt ≤ eventAt) .futureDated
  let prior ← ask (.selectNewest .evaluationCheckpoint none)
  evaluateAfter evaluationSha256 call eventAt prior

/-- `append_operations_alert_evaluation_v1`. -/
def append : LedgerProg Receipt := do
  Prog.require (RosterAccepted sha256 call) .invalidArguments
  let stored : ℕ ← ask (.countSources call.sourceRoster.sourceIds)
  Prog.require (stored = call.sourceRoster.sourceIds.length) .unknownSource
  Prog.require (MatrixAccepted call) .invalidArguments
  ask (.advisoryLock .evaluation)
  let eventAt : ℤ ← ask .clockTimestamp
  evaluate evaluationSha256 call eventAt

end Function

/-! ### The database -/

/-- The ledger: its events, and the last reading of the clock. -/
structure Ledger where
  rows : List AlertEvent
  readAt : Option ℤ

/-- The empty ledger. -/
def Ledger.empty : Ledger := ⟨[], none⟩

/-- What a statement does to the ledger. -/
def Ledger.apply (ledger : Ledger) : Event Query Answer → Ledger
  | ⟨.clockTimestamp, reading⟩ => { ledger with readAt := some reading }
  | ⟨.insertEvent event, stamp⟩ =>
    ⟨ledger.rows ++ [event.stamped stamp], some (Stamp.persistedAt stamp)⟩
  | _ => ledger

/-- Whether a clock is not before the last reading. -/
def Ledger.IsBy (ledger : Ledger) (clock : ℤ) : Prop := ∀ t ∈ ledger.readAt, t ≤ clock

instance (ledger : Ledger) (clock : ℤ) : Decidable (ledger.IsBy clock) :=
  inferInstanceAs (Decidable (∀ t ∈ ledger.readAt, _))

/-- Whether the ledger answers a statement so: the clock does not go back, numbers are new, and an
event keeps the constraint of the table. -/
def Ledger.Answers (ledger : Ledger) : Event Query Answer → Prop
  | ⟨.clockTimestamp, reading⟩ => ledger.IsBy reading
  | ⟨.selectNewest key sourceId, answer⟩ =>
    @Eq (Option AlertEvent) answer (newest ledger.rows key sourceId)
  | ⟨.insertEvent event, stamp⟩ => event.IsInRange ∧ ledger.IsBy (Stamp.persistedAt stamp) ∧
      1 ≤ Stamp.id stamp ∧ ∀ row ∈ ledger.rows, row.id < Stamp.id stamp
  | _ => True

instance (ledger : Ledger) : DecidablePred ledger.Answers
  | ⟨.clockTimestamp, reading⟩ => inferInstanceAs (Decidable (ledger.IsBy (show ℤ from reading)))
  | ⟨.selectNewest _ _, answer⟩ =>
    (inferInstance : DecidableEq (Option AlertEvent)) answer _
  | ⟨.insertEvent event, stamp⟩ => inferInstanceAs (Decidable (event.IsInRange ∧
      ledger.IsBy (Stamp.persistedAt stamp) ∧ 1 ≤ Stamp.id stamp ∧
        ∀ row ∈ ledger.rows, row.id < Stamp.id stamp))
  | ⟨.countSources _, _⟩ => .isTrue trivial
  | ⟨.advisoryLock _, _⟩ => .isTrue trivial

/-- The tables of the function. -/
def ledgerTables : Serial.Tables Query Answer Ledger where
  apply := Ledger.apply
  Answers := Ledger.Answers

/-- `hashtextextended`, of the text of a lock. -/
abbrev LockHash := LockName → ℤ

/-- The locks that a statement takes. -/
def locksOf (hash : LockHash) : Query → List (ℤ × Mode)
  | .advisoryLock name => [(hash name, .update)]
  | _ => []

/-- The advisory locks of the statements. -/
def access (hash : LockHash) : Access Query Answer ℤ Unit where
  locks event := locksOf hash event.query
  writes _ := []
  locked _ _ hw := nomatch hw

/-- A state of the sessions. -/
abbrev LedgerState := State ℕ EvaluationArguments Query Answer EvaluationError Receipt

/-- A committed call. -/
abbrev CommittedCall := Committed EvaluationArguments Query Answer Receipt

/-- The ledger that committed calls have left. -/
def ledgerOf (committed : List CommittedCall) : Ledger :=
  ledgerTables.after .empty (Serial.logOf committed)

/-- What a session has asked so far. -/
def historyOf (st : LedgerState) (session : ℕ) : History Query Answer :=
  ((st.transaction session).map fun t => t.history).getD []

/-- The ledger that a session sees. -/
def ledgerSeen (st : LedgerState) (session : ℕ) : Ledger :=
  ledgerTables.after .empty (Serial.logOf st.committed ++ historyOf st session)

/-- Whether the clock gives a statement its answer. -/
def IsNow (clock : ℤ) : (query : Query) → Answer query → Prop
  | .clockTimestamp, reading => @Eq ℤ reading clock
  | .insertEvent _, stamp => Stamp.persistedAt stamp = clock
  | _, _ => True

instance (clock : ℤ) (query : Query) (answer : Answer query) : Decidable (IsNow clock query answer) :=
  match query, answer with
  | .clockTimestamp, reading => (inferInstance : DecidableEq ℤ) reading _
  | .insertEvent _, stamp => (inferInstance : DecidableEq ℤ) (Stamp.persistedAt stamp) _
  | .countSources _, _ => .isTrue trivial
  | .advisoryLock _, _ => .isTrue trivial
  | .selectNewest _ _, _ => .isTrue trivial

/-- Whether a statement of a session gets an answer: the locks it takes are free, and the clock and
what the session sees of the ledger give it. -/
def Admits (hash : LockHash) (st : LedgerState) (session : ℕ) (query : Query)
    (answer : Answer query) : Prop :=
  (∀ lock ∈ locksOf hash query, (access hash).IsFree st session lock.1 lock.2) ∧
    IsNow st.clock query answer ∧ (ledgerSeen st session).Answers ⟨query, answer⟩

/-- The database, with the function over it. -/
def database (sha256 : JsString → JsString) (evaluationSha256 : EvaluationArguments → JsString)
    (hash : LockHash) :
    Database ℕ EvaluationArguments Query Answer EvaluationError Receipt where
  program call := append sha256 evaluationSha256 call
  Admits := Admits hash
  decidableAdmits := fun _ _ _ _ => inferInstanceAs (Decidable ((∀ lock ∈ _, _) ∧ _ ∧ _))

/-! ### The export -/

/-- The checks of an exported event. -/
@[mk_iff] structure ExportIsSound (event : AlertEvent) : Prop where
  closedAt : event.status = .closed ↔ event.closedAt ≠ none
  evaluation : Sha256Schema event.details.evaluationContentSha256
  roster : Sha256Schema event.details.sourceRosterContentSha256
  version : RosterVersion event.details.sourceRosterVersion
  evaluatedAt : ∃ t ∈ event.evaluatedAt?, t ≤ event.persistedAt
  outcome : OutcomeAgrees event
  scope : (∃ key ∈ sourceKeys, event.alertKey = .alert key) ↔ event.sourceId ≠ none

instance : DecidablePred ExportIsSound :=
  fun event => @decidable_of_iff' _ _ (exportIsSound_iff _)
    (inferInstanceAs (Decidable (_ ∧ _ ∧ _ ∧ _ ∧ (∃ t ∈ event.evaluatedAt?, _) ∧ _ ∧
      ((∃ key ∈ sourceKeys, _) ↔ _))))

variable (rows : List AlertEvent)

/-- The transitions after an event, in order. -/
def transitionsAfter (afterEventId : ℕ) : List AlertEvent :=
  (rows.filter fun event => afterEventId < event.id ∧ event.alertKey ≠ .evaluationCheckpoint)
    |> sortBy (compareOn fun event => event.id)

/-- `operations_alert_export_rows_v1`; `none` where it raises an exception. -/
def exportRows (afterEventId limit : ℕ) : Option (List AlertEvent) :=
  if ¬ (1 ≤ limit ∧ limit ≤ 100) then none
  else
    let page := (transitionsAfter rows afterEventId).take (limit + 1)
    if ∀ event ∈ page, ExportIsSound event then some page else none

/-- `OperationalAlertExportBatchV1`. -/
structure ExportBatch where
  events : List AlertEvent
  hasMore : Bool
  nextEventId : Option ℕ

/-- `PostgresOperationsAlertExporter.readBatch`, where the rows are mapped one by one. -/
def readBatch (afterEventId limit : ℕ) : Option ExportBatch :=
  (exportRows rows afterEventId limit).map fun page =>
    { events := page.take limit
      hasMore := limit < page.length
      nextEventId := (page.take limit).getLast?.map fun event => event.id }

end Handleplan.AlertLedger
