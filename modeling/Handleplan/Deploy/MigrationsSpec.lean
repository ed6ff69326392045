import Mathlib.Logic.Relation
import Handleplan.Deploy.Migrations

/-!
# Interrupted migrations

A run of the migration runner can be interrupted at any of its commits, and so can the runs after
it. The ledger is always a prefix of the files that the database is expected to have, no migration
whose SQL is committed with its ledger row is executed twice, and the next run goes on to the ledger
that a run without interruption reaches.

One state is refused, and it can be the state that an interruption leaves: a run without a cap does
not go on from the migration 038. A file that ends the transaction of the runner by itself is
executed again when the run is interrupted before its ledger row.

## Main definitions

* `Migrations.HasPrefix` — a database whose ledger has the first files that are expected.
* `Migrations.Executed` — that the ledger and the baseline tell what has been executed.
* `Migrations.Intact` — what holds of each state.
* `Migrations.pendingFiles` — the files that a run applies.

## Main results

* `Migrations.checkStart_eq_ok_iff` — the databases that the runner accepts.
* `Migrations.migrateFiles_eq` — what the loop commits.
* `Migrations.stage_of_interrupted` — what any number of interruptions leaves.
* `Migrations.migrate_spec` — runs are safe under interruption, and can be resumed.
-/

namespace Handleplan.Migrations

open JsString Sorting

variable {collation : Collation} {runner : Runner} {db s : Database} {n k : ℕ}

/-! ### The files -/

theorem pairwise_ids (runner : Runner) :
    (runner.repositoryMigrationFiles.map MigrationFile.id).Pairwise
    fun a b => compareText a b = .lt :=
  List.pairwise_map.mpr runner.sorted

theorem nodup_ids (runner : Runner) : (runner.repositoryMigrationFiles.map MigrationFile.id).Nodup :=
  (pairwise_ids runner).imp fun {a b} hlt heq => by
    rw [heq, (Std.ReflCmp.compare_self : compareText b b = .eq)] at hlt
    cases hlt

theorem expectedFiles_sublist (runner : Runner) (db : Database) :
    List.Sublist (expectedFiles runner db) runner.repositoryMigrationFiles := by
  unfold expectedFiles
  split_ifs
  · exact List.Sublist.refl _
  · exact List.filter_sublist

theorem nodup_expectedIds (runner : Runner) (db : Database) :
    ((expectedFiles runner db).map MigrationFile.id).Nodup :=
  (nodup_ids runner).sublist ((expectedFiles_sublist runner db).map _)

/-- Files with the same identifier are the same file. -/
theorem eq_of_id_eq {file file' : MigrationFile} (h : file ∈ runner.repositoryMigrationFiles)
    (h' : file' ∈ runner.repositoryMigrationFiles) (heq : file.id = file'.id) : file = file' :=
  List.inj_on_of_nodup_map (nodup_ids runner) h h' heq

theorem coveredIds_eq (runner : Runner) :
    runner.coveredIds = (runner.repositoryMigrationFiles.take coveredCount).map MigrationFile.id := by
  rw [Runner.coveredIds, runner.covers, List.map_map]
  rfl

/-! ### Ledgers -/

/-- A database sorts the names of the files as the repository does. -/
def AgreesOnFiles (collation : Collation) (runner : Runner) : Prop :=
  ∀ file ∈ runner.repositoryMigrationFiles, ∀ file' ∈ runner.repositoryMigrationFiles,
    collation.compare file.id file'.id = compareText file.id file'.id

/-- **A ledger with the first files** that the database is expected to have. -/
def HasPrefix (runner : Runner) (db : Database) (n : ℕ) : Prop :=
  db.rows.Perm (((expectedFiles runner db).take n).map MigrationFile.row)

/-- The rows of such a ledger are read in the order of the files. -/
theorem HasPrefix.appliedMigrations_eq (hcollation : AgreesOnFiles collation runner)
    (h : HasPrefix runner db n) : appliedMigrations collation db =
      ((expectedFiles runner db).take n).map MigrationFile.row := by
  have hsublist : List.Sublist ((expectedFiles runner db).take n) runner.repositoryMigrationFiles :=
    (List.take_sublist n _).trans (expectedFiles_sublist runner db)
  refine sortBy_eq_of_perm_of_pairwise h ?_ ?_
  · intro row hrow row' hrow' heq
    obtain ⟨file, hfile, rfl⟩ := List.mem_map.mp (h.mem_iff.mp hrow)
    obtain ⟨file', hfile', rfl⟩ := List.mem_map.mp (h.mem_iff.mp hrow')
    have hid : file.id = file'.id := Std.LawfulEqCmp.eq_of_compare heq
    rw [eq_of_id_eq (hsublist.subset hfile) (hsublist.subset hfile') hid]
  · rw [List.pairwise_map]
    refine (runner.sorted.sublist hsublist).imp_of_mem fun {file file'} hfile hfile' hlt => ?_
    show (collation.compare file.id file'.id).isLE = true
    rw [hcollation file (hsublist.subset hfile) file' (hsublist.subset hfile'), hlt]
    rfl

theorem map_id_row (files : List MigrationFile) :
    (files.map MigrationFile.row).map LedgerRow.id = files.map MigrationFile.id := by
  rw [List.map_map]
  rfl

/-- A ledger that passes the first checks has the first files that are expected. -/
theorem hasPrefix_of_checks
    (hchecksums : ∀ row ∈ appliedMigrations collation db, ∀ file ∈ runner.repositoryMigrationFiles,
      file.id = row.id → row.checksum = file.checksum)
    (hbegin : (appliedMigrations collation db).map LedgerRow.id <+:
      (expectedFiles runner db).map MigrationFile.id) :
    HasPrefix runner db (appliedMigrations collation db).length := by
  have hrows : appliedMigrations collation db =
      ((expectedFiles runner db).take (appliedMigrations collation db).length).map
        MigrationFile.row := by
    have hids := List.prefix_iff_eq_take.mp hbegin
    rw [List.length_map, ← List.map_take] at hids
    refine List.ext_getElem ?_ fun i hi hi' => ?_
    · have hlength := congrArg List.length hids
      rwa [List.length_map, List.length_map, ← List.length_map (f := MigrationFile.row)] at hlength
    · have hi'' : i < ((expectedFiles runner db).take
          (appliedMigrations collation db).length).length := by
        rwa [List.length_map] at hi'
      have hid : (appliedMigrations collation db)[i].id = (((expectedFiles runner db).take
          (appliedMigrations collation db).length)[i]).id := by
        have hget := List.getElem_of_eq hids (i := i) (by rwa [List.length_map])
        rwa [List.getElem_map, List.getElem_map] at hget
      have hfile := (expectedFiles_sublist runner db).subset
        (List.mem_of_mem_take (List.getElem_mem hi''))
      have hchecksum := hchecksums _ (List.getElem_mem hi) _ hfile hid.symm
      rw [List.getElem_map]
      exact (LedgerRow.mk.injEq ..).mpr ⟨hid, hchecksum⟩
  exact (sortBy_perm _ _).symm.trans (.of_eq hrows)

/-! ### Databases that are accepted -/

theorem require_eq_ok_iff {p : Prop} [Decidable p] {error : MigrationError} :
    require p error = .ok () ↔ p := by
  unfold require
  split_ifs with hp
  · exact iff_of_true rfl hp
  · exact iff_of_false (by simp) hp

theorem bind_eq_ok_iff {check : Except MigrationError Unit}
    {next : Unit → Except MigrationError Unit} :
    (check >>= next) = .ok () ↔ check = .ok () ∧ next () = .ok () := by
  cases check with
  | error error => exact iff_of_false (by simp [bind, Except.bind]) fun h => by simp at h
  | ok value => exact (and_iff_right rfl).symm

theorem require_bind_eq_ok_iff {p : Prop} [Decidable p] {error : MigrationError}
    {next : Unit → Except MigrationError Unit} :
    (require p error >>= next) = .ok () ↔ p ∧ next () = .ok () := by
  rw [bind_eq_ok_iff, require_eq_ok_iff]

/-- The baseline of a database fits the manifest: there is none, or it is the row of the
manifest. -/
def BaselineFits (runner : Runner) (db : Database) : Prop :=
  db.baselines = none ∨ db.baselineRows = [runner.baseline]

theorem baselineRows_of_none (h : db.baselines = none) : db.baselineRows = [] := by
  rw [Database.baselineRows, h]
  rfl

/-- Files that are expected after a baseline are not covered. -/
theorem notMem_coveredIds_of_hasPrefix (h : HasPrefix runner db n) (hrows : db.baselineRows ≠ []) :
    ∀ applied ∈ db.rows, applied.id ∉ runner.coveredIds := by
  intro applied happlied
  obtain ⟨file, hfile, rfl⟩ := List.mem_map.mp (h.mem_iff.mp happlied)
  have hmem := List.mem_of_mem_take hfile
  rw [expectedFiles, if_neg hrows] at hmem
  exact of_decide_eq_true (List.mem_filter.mp hmem).2

/-- When the check of the baseline passes. -/
theorem checkBaseline_eq_ok_iff (h : HasPrefix runner db n) :
    checkBaseline runner db = .ok () ↔ BaselineFits runner db := by
  have hcovered := notMem_coveredIds_of_hasPrefix h
  unfold checkBaseline BaselineFits
  cases hrows : db.baselineRows with
  | nil =>
    dsimp only
    rw [require_eq_ok_iff, or_iff_left]
    simp
  | cons row rest =>
    have hsome : db.baselines ≠ none := fun hnone => by
      rw [baselineRows_of_none hnone] at hrows
      cases hrows
    cases rest with
    | nil =>
      dsimp only
      rw [require_eq_ok_iff, or_iff_right hsome, List.singleton_inj]
      exact and_iff_left (hcovered (by rw [hrows]; exact List.cons_ne_nil _ _))
    | cons row' rest =>
      refine iff_of_false (by simp) fun hfits => ?_
      rcases hfits with hnone | hone
      · exact hsome hnone
      · simp at hone

/-- Whether a run without a cap does not go on: the last of the migrations that have been applied is
the migration 038. -/
def StopsAt038 (collation : Collation) (runner : Runner) (db : Database) : Prop :=
  runner.ciMaxMigrationId = none ∧
    ((appliedMigrations collation db).map LedgerRow.id).getLast? = some id038

/-- What the runner asks of a database, beside its ledger and the migration 038. -/
structure Fits (runner : Runner) (db : Database) : Prop where
  baseline : BaselineFits runner db
  cap : runner.ciMaxMigrationId ≠ none → db.baselineRows = []
  target : runner.ciMaxMigrationId = none → db.ledger = none → db.baselines = none →
    BaselineEligible runner db

section

variable (hcollation : AgreesOnFiles collation runner)

include hcollation

/-- A database with the first files that are expected passes the first checks. -/
theorem HasPrefix.checkStart_eq (h : HasPrefix runner db n) : checkStart collation runner db = (do
      require (runner.ciMaxMigrationId = none →
        ((appliedMigrations collation db).map LedgerRow.id).getLast? ≠ some id038) .incomplete038
      require (runner.ciMaxMigrationId ≠ none → db.baselineRows = []) .cappedBaseline
      checkBaseline runner db
      require (runner.ciMaxMigrationId = none → db.ledger = none → db.baselines = none →
        BaselineEligible runner db) .targetNotEmpty) := by
  have happlied := h.appliedMigrations_eq hcollation
  have hsublist : List.Sublist ((expectedFiles runner db).take n) runner.repositoryMigrationFiles :=
    (List.take_sublist n _).trans (expectedFiles_sublist runner db)
  have hpresent : ∀ row ∈ appliedMigrations collation db,
      row.id ∈ runner.repositoryMigrationFiles.map MigrationFile.id := by
    intro row hrow
    rw [happlied] at hrow
    obtain ⟨file, hfile, rfl⟩ := List.mem_map.mp hrow
    exact List.mem_map_of_mem (hsublist.subset hfile)
  have hchecksums : ∀ row ∈ appliedMigrations collation db,
      ∀ file ∈ runner.repositoryMigrationFiles, file.id = row.id → row.checksum = file.checksum := by
    intro row hrow file hfile hid
    rw [happlied] at hrow
    obtain ⟨other, hother, rfl⟩ := List.mem_map.mp hrow
    rw [eq_of_id_eq hfile (hsublist.subset hother) hid]
    rfl
  have hbegin : (appliedMigrations collation db).map LedgerRow.id <+:
      (expectedFiles runner db).map MigrationFile.id := by
    rw [happlied, map_id_row]
    exact (List.take_prefix n _).map _
  unfold checkStart
  dsimp only
  rw [require_eq_ok_iff.mpr hpresent, require_eq_ok_iff.mpr hchecksums, require_eq_ok_iff.mpr hbegin]
  rfl

/-- Such a database is accepted if it fits, and if the run goes on. -/
theorem checkStart_eq_ok_iff (h : HasPrefix runner db n) : checkStart collation runner db = .ok () ↔
      ¬ StopsAt038 collation runner db ∧ Fits runner db := by
  rw [h.checkStart_eq hcollation, require_bind_eq_ok_iff, require_bind_eq_ok_iff, bind_eq_ok_iff,
    require_eq_ok_iff, checkBaseline_eq_ok_iff h]
  constructor
  · rintro ⟨h038, hcap, hbaseline, htarget⟩
    exact ⟨fun hstops => h038 hstops.1 hstops.2, hbaseline, hcap, htarget⟩
  · rintro ⟨h038, hfits⟩
    exact ⟨fun hnone hlast => h038 ⟨hnone, hlast⟩, hfits.cap, hfits.baseline, hfits.target⟩

/-- The migration 038 is refused before anything is changed. -/
theorem migrate_of_stopsAt038 (h : HasPrefix runner db n) (hstops : StopsAt038 collation runner db) :
    migrate collation runner db = ⟨[], .error .incomplete038⟩ := by
  have hcheck : checkStart collation runner db = .error .incomplete038 := by
    rw [h.checkStart_eq hcollation, require, if_neg fun hgoes => hgoes hstops.1 hstops.2]
    rfl
  rw [migrate, hcheck]

end

/-- The ledger of a database that is accepted. -/
theorem exists_hasPrefix (h : checkStart collation runner db = .ok ()) :
    ∃ n, HasPrefix runner db n ∧ n ≤ (expectedFiles runner db).length := by
  unfold checkStart at h
  rw [require_bind_eq_ok_iff, require_bind_eq_ok_iff, require_bind_eq_ok_iff] at h
  obtain ⟨-, hchecksums, hbegin, -⟩ := h
  refine ⟨_, hasPrefix_of_checks hchecksums hbegin, ?_⟩
  have hlength := hbegin.length_le
  rwa [List.length_map, List.length_map] at hlength

/-- **A database that is damaged** has a row with another checksum than its file, or a ledger that
is no beginning of the files that are expected. -/
def Damaged (runner : Runner) (db : Database) : Prop :=
  (∃ row ∈ db.rows, ∃ file ∈ runner.repositoryMigrationFiles, file.id = row.id ∧
    row.checksum ≠ file.checksum) ∨
  ∀ n, ¬ (db.rows.map LedgerRow.id).Perm
    (((expectedFiles runner db).take n).map MigrationFile.id)

/-- **A damaged database is refused** before anything is changed. -/
theorem exists_error_of_damaged (h : Damaged runner db) :
    ∃ error, migrate collation runner db = ⟨[], .error error⟩ := by
  cases hcheck : checkStart collation runner db with
  | error error => exact ⟨error, by rw [migrate, hcheck]⟩
  | ok value =>
    exfalso
    unfold checkStart at hcheck
    rw [require_bind_eq_ok_iff, require_bind_eq_ok_iff, require_bind_eq_ok_iff] at hcheck
    obtain ⟨-, hchecksums, hbegin, -⟩ := hcheck
    rcases h with ⟨row, hrow, file, hfile, hid, hne⟩ | hgap
    · exact hne (hchecksums row (mem_sortBy.mpr hrow) file hfile hid)
    · have hids := (hasPrefix_of_checks hchecksums hbegin).map LedgerRow.id
      rw [map_id_row] at hids
      exact hgap _ hids

/-! ### The loop -/

/-- The identifiers that the baseline and the ledger of a database record. -/
def recordedIds (runner : Runner) (db : Database) : List JsString :=
  coveredBaselineIds runner db ++ db.rows.map LedgerRow.id

/-- **The files that a run applies**: those that the baseline does not cover, and that are not in
the ledger. -/
def pendingFiles (runner : Runner) (db : Database) : List MigrationFile :=
  runner.migrationFiles.filter fun file => file.id ∉ recordedIds runner db

/-- The database after some files have been applied. -/
def advance (db : Database) (files : List MigrationFile) : Database :=
  files.foldl (fun db file => (db.execute file).record file) db

/-- The states that are committed when files are applied. -/
def stages : Database → List MigrationFile → List Database
  | _, [] => []
  | db, file :: files =>
    let done := (db.execute file).record file
    (if file.endsTransaction then [db.execute file, done] else [done]) ++ stages done files

section

variable (files : List MigrationFile)

@[simp]
theorem advance_rows : ∀ db : Database,
    (advance db files).rows = db.rows ++ files.map MigrationFile.row := by
  induction files with
  | nil => exact fun db => (List.append_nil _).symm
  | cons file files ih =>
    intro db
    show (advance ((db.execute file).record file) files).rows = _
    rw [ih, List.map_cons, List.append_cons]
    rfl

@[simp]
theorem advance_baselines : ∀ db : Database,
    (advance db files).baselines = db.baselines := by
  induction files with
  | nil => exact fun db => rfl
  | cons file files ih => exact fun db => ih ((db.execute file).record file)

@[simp]
theorem advance_executed : ∀ db : Database,
    (advance db files).executed = db.executed ++ files.map MigrationFile.id := by
  induction files with
  | nil => exact fun db => (List.append_nil _).symm
  | cons file files ih =>
    intro db
    show (advance ((db.execute file).record file) files).executed = _
    rw [ih, List.map_cons, List.append_cons]
    rfl

theorem advance_ledger_ne_none : ∀ db : Database, db.ledger ≠ none →
    (advance db files).ledger ≠ none := by
  induction files with
  | nil => exact fun db h => h
  | cons file files ih =>
    exact fun db _ => ih ((db.execute file).record file) (Option.some_ne_none _)

theorem advance_append (db : Database) (files files' : List MigrationFile) :
    advance db (files ++ files') = advance (advance db files) files' :=
  List.foldl_append

/-- The states on the way are those after the first files, or after the SQL of one more that ends
the transaction by itself. -/
theorem exists_eq_of_mem_stages : ∀ db : Database,
    ∀ s ∈ stages db files, ∃ k, s = advance db (files.take k) ∨
      ∃ file ∈ files, file.endsTransaction = true ∧ s = (advance db (files.take k)).execute file := by
  induction files with
  | nil => exact fun db s hs => absurd hs List.not_mem_nil
  | cons file files ih =>
    intro db s hs
    rcases List.mem_append.mp hs with hhere | hrest
    · split_ifs at hhere with hends
      · rcases List.mem_pair.mp hhere with rfl | rfl
        · exact ⟨0, .inr ⟨file, List.mem_cons_self, hends, rfl⟩⟩
        · exact ⟨1, .inl rfl⟩
      · exact ⟨1, .inl (List.mem_singleton.mp hhere)⟩
    · obtain ⟨k, rfl | ⟨other, hother, hends, rfl⟩⟩ := ih _ s hrest
      · exact ⟨k + 1, .inl rfl⟩
      · exact ⟨k + 1, .inr ⟨other, List.mem_cons_of_mem _ hother, hends, rfl⟩⟩

/-- The last of them is the state after all files. -/
theorem getLast?_stages : ∀ db : Database,
    (stages db files).getLast?.getD db = advance db files := by
  induction files with
  | nil => exact fun db => rfl
  | cons file files ih =>
    intro db
    have hhere : (if file.endsTransaction then [db.execute file, (db.execute file).record file]
        else [(db.execute file).record file]).getLast? = some ((db.execute file).record file) := by
      split_ifs <;> rfl
    show ((_ ++ stages _ files).getLast?).getD db = advance ((db.execute file).record file) files
    rw [List.getLast?_append, hhere, ← ih]
    cases (stages ((db.execute file).record file) files).getLast? <;> rfl

/-- **What the loop commits**: each file that is pending, with its ledger row.

**Proof sketch.** By induction on the files. A file that is covered or in the ledger is passed over.
The others have other identifiers than a file that is applied, so what the ledger says of them
stays. -/
theorem migrateFiles_eq (covered : List JsString) :
    ∀ db : Database, (files.map MigrationFile.id).Nodup →
      (∀ row ∈ db.rows, ∀ file ∈ files, row.id = file.id →
        row.checksum = file.checksum ∧ file.id ∉ covered) →
      migrateFiles covered db files =
        ⟨stages db (files.filter fun file => file.id ∉ covered ++ db.rows.map LedgerRow.id), .ok ()⟩ := by
  induction files with
  | nil => exact fun db _ _ => rfl
  | cons file files ih =>
    intro db hnodup hrows
    rw [List.map_cons, List.nodup_cons] at hnodup
    have hrest := ih db hnodup.2 fun row hrow other hother =>
      hrows row hrow other (List.mem_cons_of_mem _ hother)
    unfold migrateFiles
    cases hfind : db.rows.find? fun row => row.id = file.id with
    | some existing =>
      have hmem := List.mem_of_find?_eq_some hfind
      have hid := List.find?_some hfind
      rw [decide_eq_true_eq] at hid
      obtain ⟨hchecksum, hcovered⟩ := hrows existing hmem file List.mem_cons_self hid
      dsimp only
      rw [if_neg hcovered, if_neg (not_not_intro hchecksum), hrest, List.filter_cons_of_neg]
      rw [decide_eq_true_eq, not_not, List.mem_append]
      exact .inr (List.mem_map.mpr ⟨existing, hmem, hid⟩)
    | none =>
      have hnew : file.id ∉ db.rows.map LedgerRow.id := fun hmem => by
        obtain ⟨row, hrow, hid⟩ := List.mem_map.mp hmem
        exact absurd hid (by simpa using List.find?_eq_none.mp hfind row hrow)
      dsimp only
      by_cases hcovered : file.id ∈ covered
      · rw [if_pos hcovered, hrest, List.filter_cons_of_neg]
        rw [decide_eq_true_eq, not_not]
        exact List.mem_append_left _ hcovered
      · have hdone : ((db.execute file).record file).rows = db.rows ++ [file.row] := rfl
        have hnext := ih ((db.execute file).record file) hnodup.2 fun row hrow other hother hid => by
          rw [hdone, List.mem_append, List.mem_singleton] at hrow
          rcases hrow with hrow | rfl
          · exact hrows row hrow other (List.mem_cons_of_mem _ hother) hid
          · exact absurd (List.mem_map.mpr ⟨other, hother, hid.symm⟩) hnodup.1
        have hsame : files.filter (fun other =>
              other.id ∉ covered ++ ((db.execute file).record file).rows.map LedgerRow.id) =
            files.filter fun other => other.id ∉ covered ++ db.rows.map LedgerRow.id := by
          refine List.filter_congr fun other hother => ?_
          have hne : other.id ≠ file.id := fun hid => hnodup.1 (hid ▸ List.mem_map_of_mem hother)
          rw [hdone, List.map_append, decide_eq_decide, ← List.append_assoc, List.mem_append,
            List.map_singleton, List.mem_singleton]
          exact not_congr (or_iff_left hne)
        rw [if_neg hcovered, hnext, hsame, List.filter_cons_of_pos]
        · rfl
        · rw [decide_eq_true_eq, List.mem_append]
          exact not_or_intro hcovered hnew

end

/-! ### What is pending -/

/-- A filter that keeps the beginning of a list. -/
theorem filter_prefix_of_pairwise {α : Type*} {p : α → Bool} :
    ∀ {l : List α}, (l.Pairwise fun a b => p b = true → p a = true) → l.filter p <+: l
  | [], _ => List.prefix_rfl
  | a :: l, h => by
    rw [List.pairwise_cons] at h
    by_cases ha : p a = true
    · rw [List.filter_cons_of_pos ha]
      exact (List.prefix_cons_inj a).mpr (filter_prefix_of_pairwise h.2)
    · rw [List.filter_cons_of_neg ha, List.filter_eq_nil_iff.mpr fun b hb hpb => ha (h.1 b hb hpb)]
      exact List.nil_prefix

/-- What is left of the files without the first of them. -/
theorem filter_notMem_take {files : List MigrationFile} (h : (files.map MigrationFile.id).Nodup)
    (k : ℕ) : files.filter (fun file => file.id ∉ (files.take k).map MigrationFile.id) =
      files.drop k := by
  have hsplit : files.filter (fun file => file.id ∉ (files.take k).map MigrationFile.id) =
      (files.take k ++ files.drop k).filter fun file =>
        file.id ∉ (files.take k).map MigrationFile.id := by
    rw [List.take_append_drop]
  rw [hsplit, List.filter_append, List.filter_eq_nil_iff.mpr, List.nil_append,
    List.filter_eq_self.mpr]
  · intro file hfile
    rw [decide_eq_true_eq]
    rw [← List.take_append_drop k files, List.map_append, List.nodup_append'] at h
    exact fun hmem => h.2.2 hmem (List.mem_map_of_mem hfile)
  · intro file hfile hnotMem
    exact of_decide_eq_true hnotMem (List.mem_map_of_mem hfile)

/-- The files after those that are covered. -/
theorem forwardFiles_eq (runner : Runner) :
    runner.forwardFiles = runner.repositoryMigrationFiles.drop coveredCount := by
  rw [Runner.forwardFiles, coveredIds_eq]
  exact filter_notMem_take (nodup_ids runner) coveredCount

theorem expectedFiles_eq_filter (runner : Runner) (db : Database) : expectedFiles runner db =
    runner.repositoryMigrationFiles.filter fun file => file.id ∉ coveredBaselineIds runner db := by
  unfold expectedFiles coveredBaselineIds
  split_ifs with hrows
  · exact (List.filter_eq_self.mpr fun file _ => decide_eq_true List.not_mem_nil).symm
  · rfl

/-- The migration files are the beginning of the repository. -/
theorem exists_migrationFiles_eq (runner : Runner) : ∃ p : MigrationFile → Bool,
    runner.migrationFiles = runner.repositoryMigrationFiles.filter p ∧
      runner.repositoryMigrationFiles.Pairwise fun a b => p b = true → p a = true := by
  unfold Runner.migrationFiles
  cases runner.ciMaxMigrationId with
  | none =>
    refine ⟨fun _ => true, ?_, List.pairwise_of_forall fun _ _ _ => rfl⟩
    exact (List.filter_eq_self.mpr fun file _ => rfl).symm
  | some max =>
    refine ⟨_, rfl, runner.sorted.imp fun {a b} hlt hle => ?_⟩
    have hab : (compareText a.id b.id).isLE := by rw [hlt]; rfl
    exact Std.TransCmp.isLE_trans hab hle

/-- The identifiers in the ledger, when it has the first files. -/
theorem HasPrefix.mem_ids_iff (h : HasPrefix runner db n) (id : JsString) :
    id ∈ db.rows.map LedgerRow.id ↔ id ∈ ((expectedFiles runner db).take n).map MigrationFile.id := by
  rw [(h.map LedgerRow.id).mem_iff, map_id_row]

/-- **What is pending** is the beginning of the files that are expected and not yet in the
ledger. -/
theorem HasPrefix.pendingFiles_prefix (h : HasPrefix runner db n) :
    pendingFiles runner db <+: (expectedFiles runner db).drop n := by
  obtain ⟨p, hfiles, hpairwise⟩ := exists_migrationFiles_eq runner
  have hpending : pendingFiles runner db = ((expectedFiles runner db).drop n).filter p := by
    rw [← filter_notMem_take (nodup_expectedIds runner db) n, expectedFiles_eq_filter, pendingFiles,
      hfiles, List.filter_filter, List.filter_filter, List.filter_filter, ← expectedFiles_eq_filter]
    refine List.filter_congr fun file _ => ?_
    rw [recordedIds, Bool.eq_iff_iff]
    simp only [Bool.and_eq_true, decide_eq_true_eq, List.mem_append, not_or, h.mem_ids_iff]
    tauto
  rw [hpending]
  refine filter_prefix_of_pairwise (hpairwise.sublist ?_)
  exact (List.drop_sublist n _).trans (expectedFiles_sublist runner db)

theorem nodup_pendingIds (runner : Runner) (db : Database) :
    ((pendingFiles runner db).map MigrationFile.id).Nodup := by
  obtain ⟨p, hfiles, -⟩ := exists_migrationFiles_eq runner
  refine (nodup_ids runner).sublist (List.Sublist.map _ ?_)
  rw [pendingFiles, hfiles]
  exact List.filter_sublist.trans List.filter_sublist

theorem expectedFiles_advance (files : List MigrationFile) :
    expectedFiles runner (advance db files) = expectedFiles runner db := by
  rw [expectedFiles, Database.baselineRows, advance_baselines]
  rfl

theorem coveredBaselineIds_advance (files : List MigrationFile) :
    coveredBaselineIds runner (advance db files) = coveredBaselineIds runner db := by
  rw [coveredBaselineIds, Database.baselineRows, advance_baselines]
  rfl

/-- A file that is applied is recorded. -/
theorem recordedIds_advance (files : List MigrationFile) :
    recordedIds runner (advance db files) = recordedIds runner db ++ files.map MigrationFile.id := by
  rw [recordedIds, coveredBaselineIds_advance, advance_rows, List.map_append, map_id_row,
    ← List.append_assoc]
  rfl

/-- **A ledger keeps the first files** when files that are pending are applied in their order. -/
theorem HasPrefix.advance (h : HasPrefix runner db n) (k : ℕ) :
    ∃ m, HasPrefix runner (advance db ((pendingFiles runner db).take k)) m := by
  have hprefix := (List.take_prefix k (pendingFiles runner db)).trans h.pendingFiles_prefix
  refine ⟨n + ((pendingFiles runner db).take k).length, ?_⟩
  rw [HasPrefix, expectedFiles_advance, advance_rows, List.take_add, List.map_append,
    ← List.prefix_iff_eq_take.mp hprefix]
  exact h.append_right _

/-- After files have been applied the others are pending. -/
theorem pendingFiles_advance (k : ℕ) :
    pendingFiles runner (advance db ((pendingFiles runner db).take k)) =
      (pendingFiles runner db).drop k := by
  rw [← filter_notMem_take (nodup_pendingIds runner db) k, pendingFiles, recordedIds_advance]
  rw [pendingFiles, List.filter_filter]
  refine List.filter_congr fun file _ => ?_
  rw [Bool.eq_iff_iff]
  simp only [Bool.and_eq_true, decide_eq_true_eq, List.mem_append, not_or]
  tauto

/-- The identifiers that are recorded are different. -/
theorem HasPrefix.nodup_recordedIds (h : HasPrefix runner db n) : (recordedIds runner db).Nodup := by
  have hrows : (db.rows.map LedgerRow.id).Perm
      (((expectedFiles runner db).take n).map MigrationFile.id) := by
    have hmap := h.map LedgerRow.id
    rwa [map_id_row] at hmap
  refine List.nodup_append'.mpr ⟨?_, ?_, ?_⟩
  · unfold coveredBaselineIds
    split_ifs
    · exact List.nodup_nil
    · rw [coveredIds_eq]
      exact (nodup_ids runner).sublist ((List.take_sublist _ _).map _)
  · exact hrows.nodup_iff.mpr ((nodup_expectedIds runner db).sublist ((List.take_sublist _ _).map _))
  · intro id hcovered hmem
    obtain ⟨file, hfile, rfl⟩ := List.mem_map.mp (hrows.mem_iff.mp hmem)
    have hexpected := List.mem_of_mem_take hfile
    rw [expectedFiles_eq_filter] at hexpected
    exact of_decide_eq_true (List.mem_filter.mp hexpected).2 hcovered

/-! ### Databases that are prepared -/

theorem prepare_of_ledger (h : db.ledger ≠ none) : prepare runner db = db := by
  have hnot : ¬ BaselineEligible runner db := fun heligible => h heligible.2.1
  rw [prepare, if_neg hnot]
  cases hledger : db.ledger with
  | none => exact absurd hledger h
  | some rows => rw [Database.rows, hledger, Option.getD_some, ← hledger]

/-- A database whose tables are prepared, with the first files that are expected. -/
structure Prepared (runner : Runner) (db : Database) : Prop where
  ledger : db.ledger ≠ none
  files : ∃ n, HasPrefix runner db n
  baseline : BaselineFits runner db
  cap : runner.ciMaxMigrationId ≠ none → db.baselineRows = []

theorem Prepared.fits (h : Prepared runner db) : Fits runner db :=
  ⟨h.baseline, h.cap, fun _ hledger => absurd hledger h.ledger⟩

/-- The tables of a database that is accepted are prepared. -/
theorem prepared_prepare (hcollation : AgreesOnFiles collation runner)
    (h : checkStart collation runner db = .ok ()) : Prepared runner (prepare runner db) := by
  obtain ⟨n, hfiles, -⟩ := exists_hasPrefix h
  obtain ⟨-, hfits⟩ := (checkStart_eq_ok_iff hcollation hfiles).mp h
  unfold prepare
  split_ifs with heligible
  · exact ⟨Option.some_ne_none _, ⟨0, List.Perm.nil⟩, .inr rfl, fun hcap => absurd heligible.1 hcap⟩
  · exact ⟨Option.some_ne_none _, ⟨n, hfiles⟩, hfits.baseline, hfits.cap⟩

/-- It stays so while files that are pending are applied. -/
theorem Prepared.advance (h : Prepared runner db) (k : ℕ) :
    Prepared runner (advance db ((pendingFiles runner db).take k)) := by
  obtain ⟨n, hfiles⟩ := h.files
  refine ⟨advance_ledger_ne_none _ _ h.ledger, hfiles.advance k, ?_, fun hcap => ?_⟩
  · rw [BaselineFits, Database.baselineRows, advance_baselines]
    exact h.baseline
  · rw [Database.baselineRows, advance_baselines]
    exact h.cap hcap

/-- The loop applies what is pending. -/
theorem Prepared.migrateFiles_eq (h : Prepared runner db) :
    migrateFiles (coveredBaselineIds runner db) db runner.migrationFiles =
      ⟨stages db (pendingFiles runner db), .ok ()⟩ := by
  obtain ⟨n, hfiles⟩ := h.files
  obtain ⟨p, hmigration, -⟩ := exists_migrationFiles_eq runner
  have hsublist : List.Sublist runner.migrationFiles runner.repositoryMigrationFiles := by
    rw [hmigration]
    exact List.filter_sublist
  refine Migrations.migrateFiles_eq _ _ db ((nodup_ids runner).sublist (hsublist.map _))
    fun row hrow file hfile hid => ?_
  obtain ⟨other, hother, rfl⟩ := List.mem_map.mp (hfiles.mem_iff.mp hrow)
  have hexpected := List.mem_of_mem_take hother
  obtain rfl : other = file := eq_of_id_eq ((expectedFiles_sublist runner db).subset hexpected)
    (hsublist.subset hfile) hid
  rw [expectedFiles_eq_filter] at hexpected
  exact ⟨rfl, of_decide_eq_true (List.mem_filter.mp hexpected).2⟩

/-- **What a run commits**: the tables, if there is no ledger, and then each file that is
pending. -/
theorem migrate_eq (hcollation : AgreesOnFiles collation runner)
    (h : checkStart collation runner db = .ok ()) : migrate collation runner db =
      ⟨(if db.ledger = none then [prepare runner db] else []) ++
        stages (prepare runner db) (pendingFiles runner (prepare runner db)), .ok ()⟩ := by
  rw [migrate, h]
  dsimp only
  rw [(prepared_prepare hcollation h).migrateFiles_eq]

/-- The state in which such a run ends. -/
theorem migrated_eq (hcollation : AgreesOnFiles collation runner)
    (h : checkStart collation runner db = .ok ()) : migrated collation runner db =
      advance (prepare runner db) (pendingFiles runner (prepare runner db)) := by
  rw [migrated, migrate_eq hcollation h, ← getLast?_stages]
  by_cases hledger : db.ledger = none
  · rw [if_pos hledger, List.singleton_append, List.getLast?_cons]
    rfl
  · rw [if_neg hledger, List.nil_append, prepare_of_ledger hledger]

/-! ### What is executed -/

/-- The SQL of a migration is committed with its ledger row. -/
def Atomic (runner : Runner) (id : JsString) : Prop :=
  ∀ file ∈ runner.repositoryMigrationFiles, file.id = id → file.endsTransaction = false

/-- **What has been executed since is recorded**, each migration as often as it has been executed,
if its SQL is committed with its ledger row. -/
def Executed (runner : Runner) (db s : Database) : Prop :=
  ∃ ids, s.executed = db.executed ++ ids ∧ ∀ id,
    (recordedIds runner s).count id ≤ (recordedIds runner db).count id + ids.count id ∧
    (Atomic runner id →
      (recordedIds runner s).count id = (recordedIds runner db).count id + ids.count id)

theorem executed_self (runner : Runner) (db : Database) : Executed runner db db :=
  ⟨[], (List.append_nil _).symm, fun _ => ⟨Nat.le_add_right _ _, fun _ => rfl⟩⟩

/-- The tables are prepared. -/
theorem executed_prepare (runner : Runner) (db : Database) :
    Executed runner db (prepare runner db) := by
  unfold prepare
  split_ifs with heligible
  · have hnone : recordedIds runner db = [] := by
      rw [recordedIds, coveredBaselineIds, if_pos (baselineRows_of_none heligible.2.2.1),
        Database.rows, heligible.2.1]
      rfl
    have hall : recordedIds runner (bootstrap runner db) = runner.coveredIds := List.append_nil _
    refine ⟨runner.coveredIds, rfl, fun id => ?_⟩
    rw [hnone, hall, List.count_nil, Nat.zero_add]
    exact ⟨le_rfl, fun _ => rfl⟩
  · exact executed_self runner db

/-- Files are applied. -/
theorem Executed.advance (h : Executed runner db s) (files : List MigrationFile) :
    Executed runner db (advance s files) := by
  obtain ⟨ids, hids, hcount⟩ := h
  refine ⟨ids ++ files.map MigrationFile.id, ?_, fun id => ?_⟩
  · rw [advance_executed, hids, List.append_assoc]
  · rw [recordedIds_advance, List.count_append, List.count_append]
    obtain ⟨hle, heq⟩ := hcount id
    exact ⟨by omega, fun hatomic => by rw [heq hatomic, Nat.add_assoc]⟩

/-- The SQL of a file that ends the transaction by itself is committed alone. -/
theorem Executed.execute (h : Executed runner db s) {file : MigrationFile}
    (hfile : file ∈ runner.repositoryMigrationFiles) (hends : file.endsTransaction = true) :
    Executed runner db (s.execute file) := by
  obtain ⟨ids, hids, hcount⟩ := h
  refine ⟨ids ++ [file.id], ?_, fun id => ?_⟩
  · rw [← List.append_assoc, ← hids]
    rfl
  · show (recordedIds runner s).count id ≤ _ ∧ (_ → (recordedIds runner s).count id = _)
    obtain ⟨hle, heq⟩ := hcount id
    rw [List.count_append]
    refine ⟨by omega, fun hatomic => ?_⟩
    have hne : file.id ≠ id := fun hid => Bool.false_ne_true ((hatomic file hfile hid).symm.trans hends)
    rw [heq hatomic, List.count_singleton, if_neg (by simpa using hne), Nat.add_zero]

/-! ### Interruptions -/

/-- A database with the same tables, after other SQL. -/
def Database.after (db : Database) (catalogIsEmpty : Bool) (executed : List JsString) : Database :=
  { db with catalogIsEmpty := catalogIsEmpty, executed := executed }

/-- Where the tables are the same, they stay so while files are applied. -/
theorem exists_advance_after (files : List MigrationFile) : ∀ (db : Database) (c : Bool)
    (e : List JsString), ∃ c' e', advance (db.after c e) files = (advance db files).after c' e' := by
  induction files with
  | nil => exact fun db c e => ⟨c, e, rfl⟩
  | cons file files ih => exact fun db c e => ih ((db.execute file).record file) false (e ++ [file.id])

/-- A database with the tables of a run after some of the files that are pending. -/
def IsStage (runner : Runner) (db s : Database) : Prop :=
  ∃ k c e, s = (advance (prepare runner db)
    ((pendingFiles runner (prepare runner db)).take k)).after c e

theorem IsStage.prepared (hcollation : AgreesOnFiles collation runner)
    (hstart : checkStart collation runner db = .ok ()) (h : IsStage runner db s) :
    Prepared runner s := by
  obtain ⟨k, c, e, rfl⟩ := h
  have hprepared := (prepared_prepare hcollation hstart).advance k
  exact ⟨hprepared.ledger, hprepared.files, hprepared.baseline, hprepared.cap⟩

/-- A run that is interrupted after some more files, or after the SQL of one more. -/
theorem IsStage.of_mem_stages {s' : Database} (h : IsStage runner db s)
    (hs' : s' ∈ stages s (pendingFiles runner s)) (hexecuted : Executed runner db s) :
    IsStage runner db s' ∧ Executed runner db s' := by
  obtain ⟨k, c, e, rfl⟩ := h
  obtain ⟨j, hstage⟩ := exists_eq_of_mem_stages _ _ _ hs'
  have hpending : pendingFiles runner ((advance (prepare runner db)
      ((pendingFiles runner (prepare runner db)).take k)).after c e) =
        (pendingFiles runner (prepare runner db)).drop k := pendingFiles_advance k
  have hmem : ∀ file ∈ pendingFiles runner ((advance (prepare runner db)
      ((pendingFiles runner (prepare runner db)).take k)).after c e),
        file ∈ runner.repositoryMigrationFiles := by
    obtain ⟨p, hfiles, -⟩ := exists_migrationFiles_eq runner
    intro file hfile
    have hmigration := List.mem_of_mem_filter hfile
    rw [hfiles] at hmigration
    exact List.mem_of_mem_filter hmigration
  rw [hpending] at hstage hmem
  obtain ⟨c', e', hadvance⟩ := exists_advance_after
    (((pendingFiles runner (prepare runner db)).drop k).take j) (advance (prepare runner db)
      ((pendingFiles runner (prepare runner db)).take k)) c e
  have hnext := hexecuted.advance (((pendingFiles runner (prepare runner db)).drop k).take j)
  rw [hadvance, ← advance_append, ← List.take_add] at hnext hstage
  rcases hstage with rfl | ⟨file, hfile, hends, rfl⟩
  · exact ⟨⟨_, c', e', rfl⟩, hnext⟩
  · exact ⟨⟨_, false, _, rfl⟩, hnext.execute (hmem file hfile) hends⟩

/-- **The state that interruptions leave**: the database itself, or the tables of a run after some
of the files that are pending. -/
theorem stage_of_interrupted (hcollation : AgreesOnFiles collation runner)
    (hstart : checkStart collation runner db = .ok ())
    (h : Relation.ReflTransGen (Interrupted collation runner) db s) :
    s = db ∨ IsStage runner db s ∧ Executed runner db s := by
  have hfirst : IsStage runner db (prepare runner db) := ⟨0, _, _, rfl⟩
  induction h with
  | refl => exact .inl rfl
  | @tail s s' _ hnext ih =>
    refine .inr ?_
    rcases ih with rfl | ⟨hstage, hexecuted⟩
    · rw [Interrupted, migrate_eq hcollation hstart] at hnext
      rcases List.mem_append.mp hnext with htables | hstage
      · split_ifs at htables
        · rw [List.mem_singleton.mp htables]
          exact ⟨hfirst, executed_prepare runner s⟩
        · exact absurd htables List.not_mem_nil
      · exact hfirst.of_mem_stages hstage (executed_prepare runner s)
    · have hprepared := hstage.prepared hcollation hstart
      -- a run that is refused commits nothing
      cases hcheck : checkStart collation runner s with
      | error error =>
        rw [Interrupted, migrate, hcheck] at hnext
        exact absurd hnext List.not_mem_nil
      | ok value =>
        rw [Interrupted, migrate_eq hcollation hcheck, if_neg hprepared.ledger,
          prepare_of_ledger hprepared.ledger] at hnext
        exact hstage.of_mem_stages hnext hexecuted

/-- **What holds of each state** that interruptions leave. -/
structure Intact (collation : Collation) (runner : Runner) (db s : Database) : Prop where
  ordered : appliedMigrations collation s <+:
    (if s.baselineRows = [] then runner.repositoryMigrationFiles
      else runner.repositoryMigrationFiles.drop coveredCount).map MigrationFile.row
  recorded : (recordedIds runner s).Nodup
  executed : Executed runner db s

theorem HasPrefix.ordered (hcollation : AgreesOnFiles collation runner) (h : HasPrefix runner s n) :
    appliedMigrations collation s <+:
      (if s.baselineRows = [] then runner.repositoryMigrationFiles
        else runner.repositoryMigrationFiles.drop coveredCount).map MigrationFile.row := by
  have hexpected : expectedFiles runner s = if s.baselineRows = [] then
      runner.repositoryMigrationFiles else runner.repositoryMigrationFiles.drop coveredCount := by
    rw [expectedFiles, forwardFiles_eq]
  rw [h.appliedMigrations_eq hcollation, ← hexpected]
  exact (List.take_prefix n _).map _

/-- **Migrations can be interrupted and resumed.** A damaged database is refused before anything is
changed. From a database that is accepted, any number of interruptions leaves a ledger with the first
files, no migration whose SQL is committed with its ledger row has been executed that was recorded
before, and the next run ends with the tables of one without interruptions. A run without a cap that
finds the migration 038 as the last one is refused, before anything is changed.

**Proof sketch.** The states that interruptions leave have the tables of a stage of the run
(`stage_of_interrupted`). At each of them the files that are pending are the others of the same
list, and what is committed goes to the ledger together, or is the SQL of a file that ends the
transaction by itself. -/
theorem migrate_spec (hcollation : AgreesOnFiles collation runner) :
    (∀ db, Damaged runner db → ∃ error, migrate collation runner db = ⟨[], .error error⟩) ∧
    ∀ db, checkStart collation runner db = .ok () →
      ∀ s, Relation.ReflTransGen (Interrupted collation runner) db s →
        Intact collation runner db s ∧
        (StopsAt038 collation runner s →
          migrate collation runner s = ⟨[], .error .incomplete038⟩) ∧
        (¬ StopsAt038 collation runner s → checkStart collation runner s = .ok () ∧
          (migrate collation runner s).outcome = .ok () ∧
          (migrated collation runner s).ledger = (migrated collation runner db).ledger ∧
          (migrated collation runner s).baselines = (migrated collation runner db).baselines) := by
  refine ⟨fun db hdamaged => exists_error_of_damaged hdamaged, fun db hstart s hs => ?_⟩
  rcases stage_of_interrupted hcollation hstart hs with rfl | ⟨hstage, hexecuted⟩
  · obtain ⟨n, hfiles, -⟩ := exists_hasPrefix hstart
    refine ⟨⟨hfiles.ordered hcollation, hfiles.nodup_recordedIds, executed_self runner s⟩,
      fun hstops => ?_, fun _ => ⟨hstart, ?_, rfl, rfl⟩⟩
    · exact migrate_of_stopsAt038 hcollation hfiles hstops
    · rw [migrate_eq hcollation hstart]
  · have hprepared := hstage.prepared hcollation hstart
    obtain ⟨n, hfiles⟩ := hprepared.files
    refine ⟨⟨hfiles.ordered hcollation, hfiles.nodup_recordedIds, hexecuted⟩,
      migrate_of_stopsAt038 hcollation hfiles, fun hgoes => ?_⟩
    have hcheck := (checkStart_eq_ok_iff hcollation hfiles).mpr ⟨hgoes, hprepared.fits⟩
    refine ⟨hcheck, by rw [migrate_eq hcollation hcheck], ?_⟩
    obtain ⟨k, c, e, rfl⟩ := hstage
    have hpending : pendingFiles runner ((advance (prepare runner db)
        ((pendingFiles runner (prepare runner db)).take k)).after c e) =
          (pendingFiles runner (prepare runner db)).drop k := pendingFiles_advance k
    obtain ⟨c', e', hadvance⟩ := exists_advance_after
      ((pendingFiles runner (prepare runner db)).drop k) (advance (prepare runner db)
        ((pendingFiles runner (prepare runner db)).take k)) c e
    rw [migrated_eq hcollation hcheck, migrated_eq hcollation hstart,
      prepare_of_ledger hprepared.ledger, hpending, hadvance, ← advance_append,
      List.take_append_drop]
    exact ⟨rfl, rfl⟩

namespace Example

/-- The name of the migration with a number. -/
def fileName (number : ℕ) : JsString :=
  if number = 38 then id038
  else [number / 100, number / 10 % 10, number % 10].map (fun d => (48 + d).toUInt16) ++ js ".sql"

/-- Forty-one migrations, of which the last one ends the transaction by itself. -/
def files : List MigrationFile :=
  (List.range 41).map fun i =>
    { id := fileName (i + 1), checksum := js "a1", endsTransaction := i == 40 }

theorem sorted_files : files.Pairwise fun a b => compareText a.id b.id = .lt := by decide +kernel

theorem enough_files : coveredCount ≤ files.length := by decide

/-- A runner without a cap, with its baseline. -/
def repository : Runner where
  repositoryMigrationFiles := files
  baseline :=
    { baselineId := js "baseline", manifestSha256 := js "b2", artifactSha256 := js "c3",
      coveredMigrations := (files.take coveredCount).map MigrationFile.covered,
      resultingSchemaSha256 := js "d4", provenance := js "\x7b\x7d" }
  ciMaxMigrationId := none
  sorted := sorted_files
  covers := rfl
  enough := enough_files
  capped := fun _ h => absurd h (Option.not_mem_none _)

/-- An empty database. -/
def empty : Database := { ledger := none, baselines := none, catalogIsEmpty := true, executed := [] }

/-- A database to which the first migrations have been applied. -/
def through (count : ℕ) : Database where
  ledger := some ((files.take count).map MigrationFile.row)
  baselines := none
  catalogIsEmpty := false
  executed := (files.take count).map MigrationFile.id

end Example

/-- A run on an empty database that is interrupted after its bootstrap ends with the ledger of one
that is not. -/
theorem migrate_spec_bootstrap :
    (migrated .codeUnits Example.repository (bootstrap Example.repository Example.empty)).ledger =
      (migrated .codeUnits Example.repository Example.empty).ledger := by
  have hstart : checkStart .codeUnits Example.repository Example.empty = .ok () := by decide +kernel
  have hnext : Interrupted .codeUnits Example.repository Example.empty
      (bootstrap Example.repository Example.empty) := by
    unfold Interrupted
    decide +kernel
  have hgoes : ¬ StopsAt038 .codeUnits Example.repository (bootstrap Example.repository Example.empty) := by
    unfold StopsAt038
    decide +kernel
  exact (((migrate_spec fun _ _ _ _ => rfl).2 _ hstart _ (.single hnext)).2.2 hgoes).2.2.1

/-- Not every state that an interruption leaves is accepted: after the migration 038 the next run is
refused. And a migration that ends the transaction by itself is executed twice when the run is
interrupted before its ledger row. -/
theorem not_resumes_or_executes_once :
    (¬ ∀ db, checkStart .codeUnits Example.repository db = .ok () →
      ∀ s, Relation.ReflTransGen (Interrupted .codeUnits Example.repository) db s →
        checkStart .codeUnits Example.repository s = .ok ()) ∧
    ¬ ∀ db, checkStart .codeUnits Example.repository db = .ok () → db.executed.Nodup →
      ∀ s, Relation.ReflTransGen (Interrupted .codeUnits Example.repository) db s →
        s.executed.Nodup := by
  refine ⟨fun h => ?_, fun h => ?_⟩
  · have hstart : checkStart .codeUnits Example.repository (Example.through 37) = .ok () := by
      decide +kernel
    have hnext : Interrupted .codeUnits Example.repository (Example.through 37)
        (Example.through 38) := by
      unfold Interrupted
      decide +kernel
    have hrefused : checkStart .codeUnits Example.repository (Example.through 38) ≠ .ok () := by
      decide +kernel
    exact hrefused (h _ hstart _ (.single hnext))
  · let last : MigrationFile := { id := Example.fileName 41, checksum := js "a1" }
    have hstart : checkStart .codeUnits Example.repository (Example.through 40) = .ok () := by
      decide +kernel
    have hnext : ∀ db ∈ [Example.through 40, (Example.through 40).execute last],
        Interrupted .codeUnits Example.repository db (db.execute last) := by
      unfold Interrupted
      decide +kernel
    have htwice := h _ hstart (by decide +kernel) _
      ((Relation.ReflTransGen.single (hnext _ (by simp))).tail (hnext _ (by simp)))
    exact absurd htwice (by decide +kernel)

end Handleplan.Migrations
