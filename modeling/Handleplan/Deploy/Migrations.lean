import Handleplan.Lib.JsString
import Handleplan.Lib.Sorting

/-!
# Database migrations

The migration runner applies the files of the repository in their order and keeps a ledger of them.
An empty database gets an artifact instead of the first forty files, and a baseline row that stands
for them. Before it changes anything the runner compares the ledger and the baseline with the
repository.

## Main definitions

* `Migrations.Runner` — the repository and the reviewed baseline, as they are loaded.
* `Migrations.Database` — what the runner reads and writes.
* `Migrations.checkStart` — the checks before anything is changed.
* `Migrations.migrate` — a run: the states it commits, and how it ends.

## Implementation notes

A run that crashes, or whose SQL fails, leaves the last state it has committed. The SQL of a
migration is known by the identifier of the file, and by whether it ends the transaction of the
runner by itself, which commits it before its ledger row; such SQL can be executed again (it inserts
`on conflict do nothing`). Roles and their grants are left out, and
so are the checks of the taxonomy at the end. The baseline row is read with its JSON parsed; one
that does not parse is one that is no baseline row of the manifest.
-/

namespace Handleplan.Migrations

open JsString Sorting

/-! ### The repository -/

/-- A migration file. -/
structure MigrationFile where
  id : JsString
  checksum : JsString
  endsTransaction : Bool := false

/-- An entry of `covered_migrations`. -/
structure CoveredMigration where
  id : JsString
  sha256 : JsString
  deriving DecidableEq

/-- A row of `handleplan_schema_baselines`. -/
structure BaselineRow where
  baselineId : JsString
  manifestSha256 : JsString
  artifactSha256 : JsString
  coveredMigrations : List CoveredMigration
  resultingSchemaSha256 : JsString
  provenance : JsString
  deriving DecidableEq

/-- The entry of a file that is covered. -/
def MigrationFile.covered (file : MigrationFile) : CoveredMigration := ⟨file.id, file.checksum⟩

/-- The number of migrations that the baseline covers. -/
def coveredCount : ℕ := 40

/-- What the runner has loaded: the files in the order of their names, the baseline row of its
manifest, and `CI_MAX_MIGRATION_ID`. -/
structure Runner where
  repositoryMigrationFiles : List MigrationFile
  baseline : BaselineRow
  ciMaxMigrationId : Option JsString
  sorted : repositoryMigrationFiles.Pairwise fun a b => compareText a.id b.id = .lt
  covers : baseline.coveredMigrations =
    (repositoryMigrationFiles.take coveredCount).map MigrationFile.covered
  enough : coveredCount ≤ repositoryMigrationFiles.length
  capped : ∀ max ∈ ciMaxMigrationId, max ∈ repositoryMigrationFiles.map MigrationFile.id

/-- `migrationFiles`. -/
def Runner.migrationFiles (runner : Runner) : List MigrationFile :=
  match runner.ciMaxMigrationId with
  | none => runner.repositoryMigrationFiles
  | some max =>
    runner.repositoryMigrationFiles.filter fun file => (compareText file.id max).isLE

/-- The identifiers that the baseline covers. -/
def Runner.coveredIds (runner : Runner) : List JsString :=
  runner.baseline.coveredMigrations.map CoveredMigration.id

/-- `expectedForwardIds`, their files. -/
def Runner.forwardFiles (runner : Runner) : List MigrationFile :=
  runner.repositoryMigrationFiles.filter fun file => file.id ∉ runner.coveredIds

/-! ### The database -/

/-- A row of `handleplan_schema_migrations`. -/
structure LedgerRow where
  id : JsString
  checksum : JsString
  deriving DecidableEq

/-- What the runner reads and writes: the two tables, if they exist, whether there is anything else,
and the migrations whose SQL has been committed. -/
structure Database where
  ledger : Option (List LedgerRow)
  baselines : Option (List BaselineRow)
  catalogIsEmpty : Bool
  executed : List JsString
  deriving DecidableEq

variable (db : Database)

/-- The rows of the ledger. -/
def Database.rows : List LedgerRow := db.ledger.getD []

/-- `baselineRows`. -/
def Database.baselineRows : List BaselineRow := db.baselines.getD []

variable (file : MigrationFile)

/-- The row of a file. -/
def MigrationFile.row : LedgerRow := ⟨file.id, file.checksum⟩

/-- The database after the SQL of a migration. -/
def Database.execute : Database :=
  { db with catalogIsEmpty := false, executed := db.executed ++ [file.id] }

/-- The database after the ledger row of a migration. -/
def Database.record : Database :=
  { db with ledger := some (db.rows ++ [file.row]) }

/-- The errors of a run. -/
inductive MigrationError where
  | absentFromRepository | checksumChanged | notPrefix | notSuffix | incomplete038 | cappedBaseline
  | manyBaselines | baselineMismatch | missingProvenance | targetNotEmpty | coveredInLedger
  deriving DecidableEq

/-- A run: the states that are committed, in order, and how it ends. -/
structure MigrationRun where
  commits : List Database
  outcome : Except MigrationError Unit

/-- The identifier of the migration that a run without a cap does not go on from. -/
def id038 : JsString := js "038_tjek_function_grants.sql"

section Runs

variable (collation : Collation) (runner : Runner)

variable (db : Database)

/-- `appliedMigrations`. -/
def appliedMigrations : List LedgerRow :=
  sortBy (on LedgerRow.id collation.compare) db.rows

/-- Fail unless a condition holds. -/
def require (p : Prop) [Decidable p] (error : MigrationError) : Except MigrationError Unit :=
  if p then .ok () else .error error

/-- The files whose ledger rows a database is expected to have, in order. -/
def expectedFiles : List MigrationFile :=
  if db.baselineRows = [] then runner.repositoryMigrationFiles else runner.forwardFiles

/-- `baselineEligible`. -/
def BaselineEligible : Prop :=
  runner.ciMaxMigrationId = none ∧ db.ledger = none ∧ db.baselines = none ∧ db.catalogIsEmpty = true

instance (db : Database) : Decidable (BaselineEligible runner db) :=
  inferInstanceAs (Decidable (_ ∧ _ ∧ _ ∧ _))

/-- The check of the baseline rows. -/
def checkBaseline : Except MigrationError Unit :=
  match db.baselineRows with
  | [] => require (db.baselines = none) .missingProvenance
  | [row] => require (row = runner.baseline ∧ ∀ applied ∈ db.rows, applied.id ∉ runner.coveredIds)
      .baselineMismatch
  | _ => .error .manyBaselines

/-- The checks before anything is changed. -/
def checkStart : Except MigrationError Unit := do
  let applied := appliedMigrations collation db
  require (∀ row ∈ applied, row.id ∈ runner.repositoryMigrationFiles.map MigrationFile.id)
    .absentFromRepository
  require (∀ row ∈ applied, ∀ file ∈ runner.repositoryMigrationFiles, file.id = row.id →
    row.checksum = file.checksum) .checksumChanged
  require (applied.map LedgerRow.id <+: (expectedFiles runner db).map MigrationFile.id)
    (if db.baselineRows = [] then .notPrefix else .notSuffix)
  require (runner.ciMaxMigrationId = none → (applied.map LedgerRow.id).getLast? ≠ some id038)
    .incomplete038
  require (runner.ciMaxMigrationId ≠ none → db.baselineRows = []) .cappedBaseline
  checkBaseline runner db
  require (runner.ciMaxMigrationId = none → db.ledger = none → db.baselines = none →
    BaselineEligible runner db) .targetNotEmpty

/-- The database after the bootstrap transaction. -/
def bootstrap : Database where
  ledger := some []
  baselines := some [runner.baseline]
  catalogIsEmpty := false
  executed := db.executed ++ runner.coveredIds

/-- The database with its two tables prepared. -/
def prepare : Database :=
  if BaselineEligible runner db then bootstrap runner db
  else { db with ledger := some db.rows }

/-- `coveredBaselineIds`, of a database that is prepared. -/
def coveredBaselineIds : List JsString :=
  if db.baselineRows = [] then [] else runner.coveredIds

/-- The loop over the migration files. -/
def migrateFiles (covered : List JsString) : Database → List MigrationFile → MigrationRun
  | _, [] => ⟨[], .ok ()⟩
  | db, file :: files =>
    match db.rows.find? fun row => row.id = file.id with
    | some existing =>
      if file.id ∈ covered then ⟨[], .error .coveredInLedger⟩
      else if existing.checksum ≠ file.checksum then ⟨[], .error .checksumChanged⟩
      else migrateFiles covered db files
    | none =>
      if file.id ∈ covered then migrateFiles covered db files
      else
        let done := (db.execute file).record file
        let rest := migrateFiles covered done files
        ⟨(if file.endsTransaction then [db.execute file, done] else [done]) ++ rest.commits,
          rest.outcome⟩

/-- A run of the migration runner. -/
def migrate : MigrationRun :=
  match checkStart collation runner db with
  | .error error => ⟨[], .error error⟩
  | .ok () =>
    let prepared := prepare runner db
    let rest := migrateFiles (coveredBaselineIds runner prepared) prepared runner.migrationFiles
    ⟨(if db.ledger = none then [prepared] else []) ++ rest.commits, rest.outcome⟩

/-- The database when a run is over. -/
def migrated : Database := (migrate collation runner db).commits.getLast?.getD db

/-- One database becomes another by a run that is interrupted, at any of its commits. -/
def Interrupted (db db' : Database) : Prop := db' ∈ (migrate collation runner db).commits

end Runs

end Handleplan.Migrations
