import Handleplan.Db.OperationsRuntime
import Handleplan.Domain.OfferIngestionContracts

/-!
# The public source-status reader

`PostgresPublicSourceStatusReader.read` shows the sources with the latest health of each of their
scopes. The health a worker has recorded is merged, column by column, with the latest fact of a
publication; the merged columns are then parsed by `publicSourceStatusEntrySchema`, and one row that
does not parse makes the whole directory unavailable.

## Main definitions

* `SourceStatus.StatusDatabase` — the tables the query reads.
* `SourceStatus.directoryRows` — the joined rows, and `statusRow` the columns of one.
* `SourceStatus.IsAnswer` — the rows the database answers with, under any collation.
* `SourceStatus.entryFromRow`, `read` — the reader.

## Implementation notes

Database times are microseconds since the epoch. An instant of another year than 1 to 9999 has no
text that the database reads as a time.
-/

namespace Handleplan.SourceStatus

open JsString Sorting Operations

/-! ### Tables -/

/-- The kinds of a source. -/
inductive SourceKind where
  | catalog | ordinaryPrice | offer | store | geocoder | routing | legacy
  deriving DecidableEq

/-- A row of `data_sources`. -/
structure PublicSource extends DataSource where
  displayName : JsString
  kind : SourceKind
  deriving DecidableEq

/-- The kinds of a geographic scope. -/
inductive ScopeKind where
  | national | region | postalSet | storeSet
  deriving DecidableEq

/-- The states of a geographic scope. -/
inductive ScopeState where
  | active | retired
  deriving DecidableEq

/-- A row of `geographic_scopes`. -/
structure GeographicScopeRow where
  id : ℕ
  kind : ScopeKind
  label : JsString
  countryCode : JsString
  state : ScopeState
  createdAt : ℤ
  publicStateChangedAt : ℤ
  identifier : 1 ≤ id ∧ id < 9223372036854775808
  country : CountryCodeSchema countryCode
  deriving DecidableEq

/-- The states of `ingestion_runs`. -/
inductive RunStatus where
  | running | completed | degraded | failed | cancelled
  deriving DecidableEq

/-- A row of `ingestion_runs`. -/
structure IngestionRunRow where
  id : ℕ
  sourceId : JsString
  status : RunStatus
  startedAt : ℤ
  completedAt : Option ℤ
  createdAt : ℤ
  terminalizedAt : Option ℤ
  range : ∀ t ∈ completedAt, startedAt ≤ t
  deriving DecidableEq

/-- The tables the query reads, with their primary keys. -/
structure StatusDatabase where
  sources : List PublicSource
  permissions : List SourcePermission
  snapshots : List SourceHealthSnapshot
  facts : List PublicationHealthFact
  scopes : List GeographicScopeRow
  runs : List IngestionRunRow
  sourceIds : (sources.map fun source => source.id).Nodup
  scopeIds : (scopes.map fun scope => scope.id).Nodup

/-! ### The joined rows -/

variable (db : StatusDatabase)

variable (now : ℤ)

variable (sourceId : JsString)

/-- `latest_permissions`. -/
def latestPermission :
    Option SourcePermission :=
  latestBy (fun p => p.createdAt) (fun p => p.id)
    (db.permissions.filter fun p => p.sourceId = sourceId ∧ p.createdAt ≤ now)

/-- The health of a source that is persisted by now. -/
def visibleHealth :
    List SourceHealthSnapshot :=
  db.snapshots.filter fun s => s.sourceId = sourceId ∧ ∃ t ∈ s.persistedAt, t ≤ now ∧ s.recordedAt ≤ t

/-- `latest_health`, of one source and scope. -/
def latestHealthOf (scopeId : Option ℕ) :
    Option SourceHealthSnapshot :=
  latestBy (fun s => persisted s.persistedAt) (fun s => s.id)
    ((visibleHealth db now sourceId).filter fun s => s.geographicScopeId = scopeId)

/-- `latest_health`, of one source: one row for each scope. -/
def latestHealthRows :
    List SourceHealthSnapshot :=
  ((visibleHealth db now sourceId).map fun s => s.geographicScopeId).dedup.filterMap
    (latestHealthOf db now sourceId)

/-- `latest_publication_health`. -/
def latestPublication :
    Option PublicationHealthFact :=
  latestBy (fun f => f.persistedAt) (fun f => f.id)
    (db.facts.filter fun f => f.sourceId = sourceId ∧ f.persistedAt ≤ now)

/-- `latest_terminal_ingestion`. -/
def latestRun : Option IngestionRunRow :=
  latestBy (fun run => run.terminalizedAt.getD 0) (fun run => run.id)
    (db.runs.filter fun run => run.sourceId = sourceId ∧ run.status ≠ .running ∧
      run.createdAt ≤ now ∧ run.startedAt ≤ now ∧ (∃ t ∈ run.completedAt, t ≤ now) ∧
      ∃ t ∈ run.terminalizedAt, t ≤ now)

/-- A scope by its number, when it is there and unchanged by now. -/
def scopeById (scopeId : ℕ) : Option GeographicScopeRow :=
  db.scopes.find? fun scope =>
    scope.id = scopeId ∧ scope.createdAt ≤ now ∧ scope.publicStateChangedAt ≤ now

/-- A joined row. -/
structure DirectoryRow where
  source : PublicSource
  permission : Option SourcePermission
  health : Option SourceHealthSnapshot
  fact : Option PublicationHealthFact
  scope : Option GeographicScopeRow
  run : Option IngestionRunRow
  deriving DecidableEq

/-- The scope of which a joined row shows the health. -/
def DirectoryRow.healthScope (row : DirectoryRow) : Option ℕ :=
  row.health.bind fun s => s.geographicScopeId

variable (source : PublicSource)

/-- The row of a source joined with one health, or with none. -/
def joined (health : Option SourceHealthSnapshot) :
    DirectoryRow where
  source := source
  permission := latestPermission db now source.id
  health := health
  fact :=
    if (health.bind fun s => s.geographicScopeId) = none then latestPublication db now source.id
    else none
  scope := (health.bind fun s => s.geographicScopeId).bind (scopeById db now)
  run := latestRun db now source.id

/-- The rows of a source. -/
def rowsOf : List DirectoryRow :=
  if latestHealthRows db now source.id = [] then [joined db now source none]
  else (latestHealthRows db now source.id).map fun s => joined db now source (some s)

/-- The joined rows of all sources that are there and unchanged by now. -/
def directoryRows : List DirectoryRow :=
  (db.sources.filter fun source =>
    source.createdAt ≤ now ∧ source.publicStateChangedAt ≤ now).flatMap (rowsOf db now)

/-- `order by source.display_name, source.id, scope.id nulls first`; the numbers of scopes are
positive. -/
def orderRows (collation : Collation) : DirectoryRow → DirectoryRow → Ordering :=
  compareLex (Sorting.on (fun row => row.source.displayName) collation.compare)
    (compareLex (Sorting.on (fun row => row.source.id) collation.compare)
      (compareOn fun row => row.scope.elim 0 fun scope => scope.id))

/-- The rows the database answers with: the first ones in their order; rows that the order cannot
separate may come either way. -/
def IsAnswer (collation : Collation) (db : StatusDatabase) (now : ℤ) (count : ℕ)
    (rows : List DirectoryRow) : Prop :=
  ∃ all : List DirectoryRow, all.Perm (directoryRows db now) ∧
    (all.Pairwise fun a b => (orderRows collation a b).isLE = true) ∧ rows = all.take count

/-! ### The columns -/

/-- `governance_approved`. -/
def GovernanceApproved (permission : Option SourcePermission) :
    Prop :=
  source.runtimeState = .approved ∧ (∃ t ∈ source.permissionReviewedAt, t ≤ now) ∧
    (∀ t ∈ source.permissionExpiresAt, now < t) ∧ ∃ p ∈ permission, p.decision = .approved ∧
      p.reviewedAt ≤ now ∧ source.permissionReviewedAt = some p.reviewedAt ∧
      source.permissionExpiresAt = p.validUntil ∧ ∀ t ∈ p.validUntil, now < t

instance (now : ℤ) (source : PublicSource) (permission : Option SourcePermission) :
    Decidable (GovernanceApproved now source permission) :=
  inferInstanceAs (Decidable (_ ∧ (∃ t ∈ source.permissionReviewedAt, _) ∧
    (∀ t ∈ source.permissionExpiresAt, _) ∧ ∃ p ∈ permission, _))

/-- `SourceStatusRow`. -/
structure SourceStatusRow where
  governanceApproved : Bool
  healthLastCaptureSuccessAt : Option ℤ
  healthLastDiscoverySuccessAt : Option ℤ
  healthLastPublishSuccessAt : Option ℤ
  healthNewestEligibleEvidenceAt : Option ℤ
  healthRecordedAt : Option ℤ
  healthStatus : Option HealthState
  ingestionCompletedAt : Option ℤ
  ingestionStartedAt : Option ℤ
  ingestionStatus : Option RunStatus
  runtimeState : RuntimeState
  scopeCountryCode : Option JsString
  scopeDatabaseId : Option ℕ
  scopeKind : Option ScopeKind
  scopeLabel : Option JsString
  scopeState : Option ScopeState
  sourceDisplayName : JsString
  sourceId : JsString
  sourceKind : SourceKind

/-- The fact of a joined row, if it is newer than the health. -/
def DirectoryRow.newerFact (row : DirectoryRow) : Option PublicationHealthFact :=
  row.fact.filter fun fact => FactIsNewer row.health fact

/-- The columns of a joined row. -/
def statusRow (row : DirectoryRow) : SourceStatusRow where
  governanceApproved := GovernanceApproved now row.source row.permission
  healthLastCaptureSuccessAt := row.health.bind fun s => s.lastCaptureSuccessAt
  healthLastDiscoverySuccessAt := row.health.bind fun s => s.lastDiscoverySuccessAt
  healthLastPublishSuccessAt :=
    laterClock (row.health.bind fun s => s.lastPublishSuccessAt)
      (row.fact.map fun f => f.lastPublishSuccessAt)
  healthNewestEligibleEvidenceAt :=
    laterClock (row.health.bind fun s => s.newestEligibleEvidenceAt)
      (row.fact.map fun f => f.newestEligibleEvidenceAt)
  healthRecordedAt :=
    (row.newerFact.map fun f => f.lastPublishSuccessAt).or (row.health.map fun s => s.recordedAt)
  healthStatus := (row.newerFact.map fun _ => .degraded).or (row.health.map fun s => s.status)
  ingestionCompletedAt := row.run.bind fun run => run.completedAt
  ingestionStartedAt := row.run.map fun run => run.startedAt
  ingestionStatus := row.run.map fun run => run.status
  runtimeState := row.source.runtimeState
  scopeCountryCode := row.scope.map fun scope => scope.countryCode
  scopeDatabaseId := row.scope.map fun scope => scope.id
  scopeKind := row.scope.map fun scope => scope.kind
  scopeLabel := row.scope.map fun scope => scope.label
  scopeState := row.scope.map fun scope => scope.state
  sourceDisplayName := row.source.displayName
  sourceId := row.source.id
  sourceKind := row.source.kind

/-! ### Entries -/

/-- `publicSourceStatusScopeSchema`, the record. -/
structure StatusScope where
  countryCode : JsString
  id : JsString
  kind : ScopeKind
  label : JsString
  state : ScopeState
  deriving DecidableEq

/-- The freshness of a health. -/
inductive HealthFreshness where
  | current | stale
  deriving DecidableEq

/-- `publicSourceStatusHealthSchema`, the record. -/
structure StatusHealth where
  freshness : HealthFreshness
  captureAt : Option ℤ
  discoveryAt : Option ℤ
  eligibleEvidenceAt : Option ℤ
  publishAt : Option ℤ
  recordedAt : ℤ
  state : HealthState
  deriving DecidableEq

/-- `publicSourceTerminalIngestionSchema`, the record. -/
structure TerminalIngestion where
  completedAt : ℤ
  startedAt : ℤ
  state : RunStatus
  deriving DecidableEq

/-- `PublicSourceStatusEntry`. -/
structure StatusEntry where
  governanceApproved : Bool
  health : Option StatusHealth
  latestTerminalIngestion : Option TerminalIngestion
  scope : Option StatusScope
  displayName : JsString
  id : JsString
  kind : SourceKind
  runtimeState : RuntimeState
  deriving DecidableEq

/-- `scopeIdSchema`, the pattern `/^scope:[0-9a-f]{64}$/u`. -/
def ScopeIdSchema (s : JsString) : Prop :=
  s.take 6 = js "scope:" ∧ Sha256Schema (s.drop 6)

/-- `lastSuccess`. -/
def StatusHealth.lastSuccess (health : StatusHealth) : List (Option ℤ) :=
  [health.captureAt, health.discoveryAt, health.eligibleEvidenceAt, health.publishAt]

/-- `publicSourceStatusScopeSchema`. -/
@[mk_iff] structure StatusScopeSchema (scope : StatusScope) : Prop where
  countryCode : CountryCodeSchema scope.countryCode
  id : ScopeIdSchema scope.id
  label : NonEmptyStringSchema scope.label

/-- `publicSourceStatusHealthSchema`. -/
@[mk_iff] structure StatusHealthSchema (health : StatusHealth) : Prop where
  lastSuccess : ∀ clock ∈ health.lastSuccess, ∀ t ∈ clock, CanonicalTimestamp t
  recordedAt : CanonicalTimestamp health.recordedAt
  ordered : ∀ clock ∈ health.lastSuccess, ∀ t ∈ clock, t ≤ health.recordedAt

/-- `publicSourceTerminalIngestionSchema`. -/
@[mk_iff] structure TerminalIngestionSchema (ingestion : TerminalIngestion) : Prop where
  completedAt : CanonicalTimestamp ingestion.completedAt
  startedAt : CanonicalTimestamp ingestion.startedAt
  state : ingestion.state ≠ .running
  ordered : ingestion.startedAt ≤ ingestion.completedAt

instance : DecidablePred ScopeIdSchema := fun _ => inferInstanceAs (Decidable (_ ∧ _))

instance : DecidablePred StatusScopeSchema :=
  fun _ => decidable_of_iff' _ (statusScopeSchema_iff _)

instance : DecidablePred StatusHealthSchema :=
  fun _ => decidable_of_iff' _ (statusHealthSchema_iff _)

instance : DecidablePred TerminalIngestionSchema :=
  fun _ => decidable_of_iff' _ (terminalIngestionSchema_iff _)

/-- `publicSourceStatusEntrySchema`. -/
@[mk_iff] structure StatusEntrySchema (entry : StatusEntry) : Prop where
  health : ∀ health ∈ entry.health, StatusHealthSchema health
  latestTerminalIngestion :
    ∀ ingestion ∈ entry.latestTerminalIngestion, TerminalIngestionSchema ingestion
  scope : ∀ scope ∈ entry.scope, StatusScopeSchema scope
  displayName : NonEmptyStringSchema entry.displayName
  id : IdentifierSchema entry.id
  governance : entry.governanceApproved = true → entry.runtimeState = .approved

instance : DecidablePred StatusEntrySchema :=
  fun _ => decidable_of_iff' _ (statusEntrySchema_iff _)

/-! ### The reader -/

/-- `PUBLIC_SOURCE_HEALTH_MAX_AGE_MS`. -/
def publicSourceHealthMaxAgeMs : ℤ := 26 * 60 * 60 * 1000

/-- `MAX_PUBLIC_SOURCE_STATUS_ROWS`. -/
def maxPublicSourceStatusRows : ℕ := 100

/-- `boundedString`. -/
def BoundedString (value : JsString) (maximum : ℕ) : Prop :=
  1 ≤ value.length ∧ value.length ≤ maximum ∧ trim value = value

instance (value : JsString) (maximum : ℕ) : Decidable (BoundedString value maximum) :=
  inferInstanceAs (Decidable (_ ∧ _ ∧ _))

/-- `databaseIdentifier`, the pattern `/^[1-9][0-9]{0,18}$/u`. -/
def DatabaseIdentifier (id : ℕ) : Prop := 1 ≤ id ∧ id < 10000000000000000000

instance : DecidablePred DatabaseIdentifier := fun _ => inferInstanceAs (Decidable (_ ∧ _))

/-- The number of bytes of a code unit by itself. -/
def unitByteLength (u : UInt16) : ℕ := if u < 0x80 then 1 else if u < 0x800 then 2 else 3

/-- `Buffer.byteLength(text, "utf8")`. -/
def byteLength : JsString → ℕ
  | [] => 0
  | [u] => unitByteLength u
  | u :: v :: rest =>
    if 0xD800 ≤ u ∧ u < 0xDC00 ∧ 0xDC00 ≤ v ∧ v < 0xE000 then 4 + byteLength rest
    else unitByteLength u + byteLength (v :: rest)

/-- What the public identifier of a scope is the digest of. -/
def scopeText (sourceId : JsString) (scopeId : ℕ) : JsString :=
  JsString.ofNat (byteLength sourceId) ++ js ":" ++ sourceId ++ js ":" ++ JsString.ofNat scopeId

variable (sha256 : JsString → JsString)

/-- `publicScopeId`. -/
def publicScopeId (sourceId : JsString) (scopeId : ℕ) : JsString :=
  js "scope:" ++ sha256 (scopeText sourceId scopeId)

/-- The scope of a row; `none` where the row is refused. -/
def scopeFromRow (row : SourceStatusRow) :
    Option (Option StatusScope) :=
  match row.scopeDatabaseId with
  | none =>
    if row.scopeCountryCode ≠ none ∨ row.scopeKind ≠ none ∨ row.scopeLabel ≠ none ∨
        row.scopeState ≠ none then none
    else some none
  | some scopeId =>
    row.scopeKind.bind fun kind =>
    row.scopeLabel.bind fun label =>
    row.scopeCountryCode.bind fun countryCode =>
    row.scopeState.bind fun state =>
      if ¬ DatabaseIdentifier scopeId ∨ ¬ BoundedString label 200 ∨
          ¬ CountryCodeSchema countryCode then none
      else
        some (some
          { countryCode := countryCode
            id := publicScopeId sha256 row.sourceId scopeId
            kind := kind
            label := label
            state := state })

/-- The health of a row; `none` where the row is refused. -/
def healthFromRow (instant : ℤ) (row : SourceStatusRow) (scope : Option StatusScope) :
    Option (Option StatusHealth) :=
  match row.healthRecordedAt with
  | none =>
    if row.healthStatus ≠ none ∨ row.healthLastDiscoverySuccessAt ≠ none ∨
        row.healthLastCaptureSuccessAt ≠ none ∨ row.healthLastPublishSuccessAt ≠ none ∨
        row.healthNewestEligibleEvidenceAt ≠ none ∨ scope ≠ none then none
    else some none
  | some recorded =>
    (timestamp recorded (some instant)).bind fun recordedAt =>
    row.healthStatus.bind fun state =>
    (optionalTimestamp row.healthLastDiscoverySuccessAt instant).bind fun discoveryAt =>
    (optionalTimestamp row.healthLastCaptureSuccessAt instant).bind fun captureAt =>
    (optionalTimestamp row.healthLastPublishSuccessAt instant).bind fun publishAt =>
    (optionalTimestamp row.healthNewestEligibleEvidenceAt instant).map fun eligibleEvidenceAt =>
      some
        { freshness := if instant - recordedAt ≤ publicSourceHealthMaxAgeMs then .current else .stale
          captureAt := captureAt
          discoveryAt := discoveryAt
          eligibleEvidenceAt := eligibleEvidenceAt
          publishAt := publishAt
          recordedAt := recordedAt
          state := state }

/-- The latest ingestion of a row; `none` where the row is refused. -/
def ingestionFromRow (instant : ℤ) (row : SourceStatusRow) : Option (Option TerminalIngestion) :=
  match row.ingestionCompletedAt with
  | none => if row.ingestionStartedAt ≠ none ∨ row.ingestionStatus ≠ none then none else some none
  | some completed =>
    (timestamp completed (some instant)).bind fun completedAt =>
    (row.ingestionStartedAt.bind fun t => timestamp t (some instant)).bind fun startedAt =>
    (textState row.ingestionStatus [.completed, .degraded, .failed, .cancelled]).map fun state =>
      some { completedAt := completedAt, startedAt := startedAt, state := state }

/-- `entryFromRow`, with the final parse. -/
def entryFromRow (instant : ℤ) (row : SourceStatusRow) :
    Option StatusEntry :=
  if ¬ BoundedString row.sourceId 64 ∨ ¬ BoundedString row.sourceDisplayName 160 then none
  else
    (scopeFromRow sha256 row).bind fun scope =>
    (healthFromRow instant row scope).bind fun health =>
    (ingestionFromRow instant row).bind fun latestTerminalIngestion =>
      let entry : StatusEntry :=
        { governanceApproved := row.governanceApproved
          health := health
          latestTerminalIngestion := latestTerminalIngestion
          scope := scope
          displayName := row.sourceDisplayName
          id := row.sourceId
          kind := row.sourceKind
          runtimeState := row.runtimeState }
      if StatusEntrySchema entry then some entry else none

/-- `scope?.id ?? ""`. -/
def StatusEntry.scopeId (entry : StatusEntry) : JsString := entry.scope.elim [] fun scope => scope.id

/-- `compareEntries`. -/
def compareEntries : StatusEntry → StatusEntry → Ordering :=
  compareLex (Sorting.on (fun entry => entry.displayName) compareText)
    (compareLex (Sorting.on (fun entry => entry.id) compareText)
      (Sorting.on StatusEntry.scopeId compareText))

/-- The key of an entry: its source and its scope, around a null character. -/
def StatusEntry.key (entry : StatusEntry) : JsString := entry.id ++ 0 :: entry.scopeId

/-- `PublicSourceStatusDirectory`. -/
structure PublicSourceStatusDirectory where
  entries : List StatusEntry
  hasMore : Bool
  deriving DecidableEq

/-- `PublicSourceStatusReaderErrorCode`, the codes of a read that is not cancelled. -/
inductive ReaderErrorCode where
  | invalidRequest | unavailable
  deriving DecidableEq

/-- Whether a read is asked for as it has to be: a bounded limit, and a date. -/
def ValidRequest (limit : ℕ) (instant : ℤ) : Prop :=
  (1 ≤ limit ∧ limit ≤ maxPublicSourceStatusRows) ∧ instant.natAbs ≤ 8640000000000000

instance (limit : ℕ) (instant : ℤ) : Decidable (ValidRequest limit instant) :=
  inferInstanceAs (Decidable ((_ ∧ _) ∧ _))

/-- What the query answers: the columns of the rows, unless the instant has no text that the
database reads. -/
def query (instant : ℤ) (rows : List DirectoryRow) : Option (List SourceStatusRow) :=
  if Readable instant then some (rows.map (statusRow (instant * 1000))) else none

/-- `PostgresPublicSourceStatusReader.read`, on the answer of the query. -/
def read (sha256 : JsString → JsString) (limit : ℕ) (instant : ℤ)
    (answer : Option (List SourceStatusRow)) :
    Except ReaderErrorCode PublicSourceStatusDirectory :=
  if ¬ ValidRequest limit instant then .error .invalidRequest
  else
    match answer.bind fun rows => (rows.take limit).mapM (entryFromRow sha256 instant) with
    | none => .error .unavailable
    | some entries =>
      let canonical := sortBy compareEntries entries
      if ¬ (canonical.map StatusEntry.key).Nodup then .error .unavailable
      else .ok ⟨canonical, answer.any fun rows => limit < rows.length⟩

end Handleplan.SourceStatus
