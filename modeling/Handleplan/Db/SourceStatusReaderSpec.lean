import Handleplan.Db.SourceStatusReader
import Handleplan.Lib.Delimited

/-!
# Reading the source-status directory

The directory is read exactly when every row of it can be shown and no source has two rows without
scope. A row that merges the health of a worker with the fact of a publication can be shown only
when neither has a success after the clock the merged health is recorded at.

## Main definitions

* `SourceStatus.SuccessesPrecede` — the successes of a row precede its recording.
* `SourceStatus.RowIsShown` — a row can be shown.
* `SourceStatus.ReadsDirectory` — the reader answers with well-formed, different entries.

## Main results

* `SourceStatus.entryFromRow_accepts_iff` — when a row is accepted.
* `SourceStatus.readsDirectory_iff` — when the directory is read.
-/

namespace Handleplan.SourceStatus

open JsString Sorting Operations

/-! ### The joined rows -/

section Joined

variable {db : StatusDatabase} {now : ℤ} {source : PublicSource}

/-- A health that is persisted by now, and recorded before that. -/
def IsVisible (now : ℤ) (s : SourceHealthSnapshot) : Prop :=
  ∃ t ∈ s.persistedAt, t ≤ now ∧ s.recordedAt ≤ t

/-- The latest health of a scope is of that scope and visible. -/
theorem latestHealthOf_spec {sourceId : JsString} {scopeId : Option ℕ} {s : SourceHealthSnapshot}
    (h : latestHealthOf db now sourceId scopeId = some s) :
    s.geographicScopeId = scopeId ∧ IsVisible now s := by
  obtain ⟨hmem, -⟩ := latestBy_eq_some h
  obtain ⟨hvisible, hscope⟩ := List.mem_filter.mp hmem
  exact ⟨of_decide_eq_true hscope, (of_decide_eq_true (List.mem_filter.mp hvisible).2).2⟩

/-- The latest health has one row for each scope. -/
theorem pairwise_latestHealthRows (db : StatusDatabase) (now : ℤ) (sourceId : JsString) :
    (latestHealthRows db now sourceId).Pairwise fun s s' =>
      s.geographicScopeId ≠ s'.geographicScopeId := by
  unfold latestHealthRows
  rw [List.pairwise_filterMap]
  refine (List.nodup_dedup _).imp fun hne s hs s' hs' => ?_
  rw [(latestHealthOf_spec hs).1, (latestHealthOf_spec hs').1]
  exact hne

/-- What the joins promise of a row. -/
structure IsJoined (db : StatusDatabase) (now : ℤ) (row : DirectoryRow) : Prop where
  source : row.source ∈ db.sources
  health : ∀ s ∈ row.health, IsVisible now s
  fact : ∀ f ∈ row.fact, f.persistedAt ≤ now
  scope : ∀ scope ∈ row.scope, scope ∈ db.scopes ∧ row.healthScope = some scope.id
  run : ∀ run ∈ row.run, run.status ≠ .running ∧ run.startedAt ≤ now ∧
    ∃ t ∈ run.completedAt, t ≤ now

theorem scopeById_spec {scopeId : ℕ} {scope : GeographicScopeRow}
    (h : scopeById db now scopeId = some scope) : scope ∈ db.scopes ∧ scope.id = scopeId := by
  unfold scopeById at h
  have hfound := List.find?_some h
  exact ⟨List.mem_of_find?_eq_some h, (of_decide_eq_true hfound).1⟩

/-- The rows of a source are joined to it. -/
theorem isJoined_joined {health : Option SourceHealthSnapshot} (hsource : source ∈ db.sources)
    (hhealth : ∀ s ∈ health, IsVisible now s) : IsJoined db now (joined db now source health) where
  source := hsource
  health := hhealth
  fact := by
    intro f hf
    unfold joined at hf
    dsimp only at hf
    split_ifs at hf
    · exact (of_decide_eq_true (List.mem_filter.mp (latestBy_eq_some hf).1).2).2
    · cases hf
  scope := by
    intro scope hscope
    obtain ⟨scopeId, hid, hfind⟩ := Option.bind_eq_some_iff.mp hscope
    obtain ⟨hmem, rfl⟩ := scopeById_spec hfind
    exact ⟨hmem, hid⟩
  run := by
    intro run hrun
    have hfilter := of_decide_eq_true (List.mem_filter.mp (latestBy_eq_some hrun).1).2
    exact ⟨hfilter.2.1, hfilter.2.2.2.1, hfilter.2.2.2.2.1⟩

/-- The rows of a source are it, joined with its visible health. -/
theorem exists_joined_of_mem {row : DirectoryRow} (h : row ∈ rowsOf db now source) :
    ∃ health, row = joined db now source health ∧ ∀ s ∈ health, IsVisible now s := by
  unfold rowsOf at h
  split_ifs at h
  · exact ⟨none, List.mem_singleton.mp h, fun s hs => by cases hs⟩
  · obtain ⟨s, hs, rfl⟩ := List.mem_map.mp h
    obtain ⟨scopeId, -, hlatest⟩ := List.mem_filterMap.mp hs
    refine ⟨some s, rfl, fun s' hs' => ?_⟩
    cases hs'
    exact (latestHealthOf_spec hlatest).2

theorem isJoined_of_mem {row : DirectoryRow} (h : row ∈ directoryRows db now) :
    IsJoined db now row := by
  obtain ⟨source, hsource, hrow⟩ := List.mem_flatMap.mp h
  obtain ⟨health, rfl, hhealth⟩ := exists_joined_of_mem hrow
  exact isJoined_joined (List.mem_of_mem_filter hsource) hhealth

/-- Rows that show the same source show the health of different scopes. -/
def AreApart (a b : DirectoryRow) : Prop :=
  a.source.id = b.source.id → a.healthScope ≠ b.healthScope

theorem AreApart.symm {a b : DirectoryRow} (h : AreApart a b) : AreApart b a :=
  fun hid heq => h hid.symm heq.symm

/-- **No scope of a source is shown twice.** -/
theorem pairwise_directoryRows (db : StatusDatabase) (now : ℤ) :
    (directoryRows db now).Pairwise AreApart := by
  unfold directoryRows
  rw [List.pairwise_flatMap]
  constructor
  · intro source _
    unfold rowsOf
    split_ifs
    · exact List.pairwise_singleton _ _
    · rw [List.pairwise_map]
      refine (pairwise_latestHealthRows db now source.id).imp fun hne hid => ?_
      exact hne
  · have hids : db.sources.Pairwise fun a b => a.id ≠ b.id := List.pairwise_map.mp db.sourceIds
    refine (hids.filter _).imp fun hne row hrow row' hrow' hid => ?_
    obtain ⟨health, rfl, -⟩ := exists_joined_of_mem hrow
    obtain ⟨health', rfl, -⟩ := exists_joined_of_mem hrow'
    exact absurd hid hne

/-- The rows of an answer are joined rows, and apart. -/
theorem IsAnswer.spec {collation : Collation} {count : ℕ} {rows : List DirectoryRow}
    (h : IsAnswer collation db now count rows) :
    (∀ row ∈ rows, IsJoined db now row) ∧ rows.Pairwise AreApart := by
  obtain ⟨all, hperm, -, rfl⟩ := h
  have hapart : all.Pairwise AreApart :=
    (hperm.pairwise_iff AreApart.symm).mpr (pairwise_directoryRows db now)
  exact ⟨fun row hrow => isJoined_of_mem (hperm.mem_iff.mp (List.mem_of_mem_take hrow)),
    hapart.sublist (List.take_sublist _ _)⟩

end Joined

/-! ### The scope of a row -/

section Row

variable {db : StatusDatabase} {now : ℤ} {row : DirectoryRow} {sha256 : JsString → JsString}

/-- The scope an entry shows. -/
def statusScope (sha256 : JsString → JsString) (sourceId : JsString) (scope : GeographicScopeRow) :
    StatusScope where
  countryCode := scope.countryCode
  id := publicScopeId sha256 sourceId scope.id
  kind := scope.kind
  label := scope.label
  state := scope.state

/-- The scope that is read from a row. -/
theorem scopeFromRow_eq_some {out : Option StatusScope} :
    scopeFromRow sha256 (statusRow now row) = some out ↔
      (∀ scope ∈ row.scope, BoundedString scope.label 200) ∧
        out = row.scope.map (statusScope sha256 row.source.id) := by
  unfold scopeFromRow statusRow
  cases row.scope with
  | none => simp [eq_comm]
  | some scope =>
    have hidentifier : DatabaseIdentifier scope.id :=
      ⟨scope.identifier.1, scope.identifier.2.trans (by norm_num)⟩
    simp only [Option.map_some, Option.bind_some, Option.mem_def, Option.some.injEq, forall_eq']
    by_cases hlabel : BoundedString scope.label 200
    · rw [if_neg (by simp only [hidentifier, hlabel, scope.country, not_true, or_self,
        not_false_eq_true])]
      simp [hlabel, statusScope, eq_comm]
    · rw [if_pos (.inr (.inl hlabel))]
      simp [hlabel]

theorem scopeIdSchema_publicScopeId (hsha : ∀ text, Sha256Schema (sha256 text))
    (sourceId : JsString) (scopeId : ℕ) : ScopeIdSchema (publicScopeId sha256 sourceId scopeId) := by
  have hlength : (js "scope:").length = 6 := by decide
  refine ⟨List.take_left' hlength, ?_⟩
  rw [publicScopeId, List.drop_left' hlength]
  exact hsha _

theorem statusScopeSchema_statusScope (hsha : ∀ text, Sha256Schema (sha256 text))
    (sourceId : JsString) {scope : GeographicScopeRow} (hlabel : BoundedString scope.label 200) :
    StatusScopeSchema (statusScope sha256 sourceId scope) where
  countryCode := scope.country
  id := scopeIdSchema_publicScopeId hsha sourceId scope.id
  label := ⟨hlabel.2.2, hlabel.1, hlabel.2.1.trans (by decide)⟩

/-! ### The health of a row -/

/-- The clock the health of a row is recorded at. -/
def DirectoryRow.recordedAt (row : DirectoryRow) : Option ℤ :=
  (row.newerFact.map fun f => f.lastPublishSuccessAt).or (row.health.map fun s => s.recordedAt)

/-- The successes the health of a row shows. -/
def DirectoryRow.lastSuccess (row : DirectoryRow) : List (Option ℤ) :=
  [row.health.bind fun s => s.lastDiscoverySuccessAt,
    row.health.bind fun s => s.lastCaptureSuccessAt,
    laterClock (row.health.bind fun s => s.lastPublishSuccessAt)
      (row.fact.map fun f => f.lastPublishSuccessAt),
    laterClock (row.health.bind fun s => s.newestEligibleEvidenceAt)
      (row.fact.map fun f => f.newestEligibleEvidenceAt)]

/-- The successes of a health snapshot. -/
def successes (s : SourceHealthSnapshot) : List (Option ℤ) :=
  [s.lastDiscoverySuccessAt, s.lastCaptureSuccessAt, s.lastPublishSuccessAt,
    s.newestEligibleEvidenceAt]

/-- **The successes of a row precede its recording**, in milliseconds: those of the worker precede
the publication if the fact of the publication is the newer one, and those of the worker and the
publication precede the clock of the worker otherwise. -/
structure SuccessesPrecede (row : DirectoryRow) : Prop where
  newer : ∀ f ∈ row.newerFact, ∀ s ∈ row.health, ∀ clock ∈ successes s, ∀ t ∈ clock,
    t / 1000 ≤ f.lastPublishSuccessAt / 1000
  older : row.newerFact = none → ∀ s ∈ row.health,
    (∀ clock ∈ successes s, ∀ t ∈ clock, t / 1000 ≤ s.recordedAt / 1000) ∧
      ∀ f ∈ row.fact, f.lastPublishSuccessAt / 1000 ≤ s.recordedAt / 1000

/-- No success that a row shows comes after the clock it is recorded at. -/
def IsOrdered (row : DirectoryRow) : Prop :=
  ∀ r ∈ row.recordedAt, ∀ clock ∈ row.lastSuccess, ∀ t ∈ clock, t / 1000 ≤ r / 1000

theorem ediv_mono {a b : ℤ} (h : a ≤ b) : a / 1000 ≤ b / 1000 :=
  Int.ediv_le_ediv (by norm_num) h

theorem le_laterClock_left {a b : Option ℤ} {t : ℤ} (h : t ∈ a) : ∃ u ∈ laterClock a b, t ≤ u := by
  obtain rfl := Option.mem_def.mp h
  cases b with
  | none => exact ⟨t, rfl, le_rfl⟩
  | some b =>
    simp only [laterClock]
    split_ifs with hle
    · exact ⟨t, rfl, le_rfl⟩
    · exact ⟨b, rfl, (not_le.mp hle).le⟩

/-- What a row shows of its successes is bounded exactly when the successes of its health and the
publication of its fact are. -/
theorem lastSuccess_le_iff {bound : ℤ} :
    (∀ clock ∈ row.lastSuccess, ∀ t ∈ clock, t / 1000 ≤ bound) ↔
      (∀ s ∈ row.health, ∀ clock ∈ successes s, ∀ t ∈ clock, t / 1000 ≤ bound) ∧
        ∀ f ∈ row.fact, f.lastPublishSuccessAt / 1000 ≤ bound := by
  constructor
  · intro h
    have hshown : ∀ clock ∈ row.lastSuccess, ∀ u ∈ clock, ∀ t ≤ u, t / 1000 ≤ bound :=
      fun clock hclock u hu t htu => (ediv_mono htu).trans (h clock hclock u hu)
    constructor
    · intro s hs clock hclock t ht
      have hbind : ∀ g : SourceHealthSnapshot → Option ℤ, t ∈ g s → t ∈ row.health.bind g :=
        fun g hg => Option.mem_bind_iff.mpr ⟨s, hs, hg⟩
      simp only [successes, List.mem_cons, List.not_mem_nil, or_false] at hclock
      rcases hclock with rfl | rfl | rfl | rfl
      · exact h _ List.mem_cons_self t (hbind _ ht)
      · exact h _ (by simp [DirectoryRow.lastSuccess]) t (hbind _ ht)
      · obtain ⟨u, hu, htu⟩ := le_laterClock_left (b := row.fact.map fun f =>
          f.lastPublishSuccessAt) (hbind (fun s => s.lastPublishSuccessAt) ht)
        exact hshown _ (by simp [DirectoryRow.lastSuccess]) u hu t htu
      · obtain ⟨u, hu, htu⟩ := le_laterClock_left (b := row.fact.map fun f =>
          f.newestEligibleEvidenceAt) (hbind (fun s => s.newestEligibleEvidenceAt) ht)
        exact hshown _ (by simp [DirectoryRow.lastSuccess]) u hu t htu
    · intro f hf
      obtain ⟨u, hu, htu⟩ := le_laterClock (a := row.health.bind fun s => s.lastPublishSuccessAt)
        (Option.mem_map_of_mem (fun f : PublicationHealthFact => f.lastPublishSuccessAt) hf)
      exact hshown _ (by simp [DirectoryRow.lastSuccess]) u hu _ htu
  · rintro ⟨hhealth, hfact⟩ clock hclock t ht
    have hbind : ∀ g : SourceHealthSnapshot → Option ℤ, (∀ s, g s ∈ successes s) →
        t ∈ row.health.bind g → t / 1000 ≤ bound := by
      intro g hg hmem
      obtain ⟨s, hs, hgs⟩ := Option.mem_bind_iff.mp hmem
      exact hhealth s hs _ (hg s) t hgs
    simp only [DirectoryRow.lastSuccess, List.mem_cons, List.not_mem_nil, or_false] at hclock
    rcases hclock with rfl | rfl | rfl | rfl
    · exact hbind _ (fun s => by simp [successes]) ht
    · exact hbind _ (fun s => by simp [successes]) ht
    · rcases mem_laterClock ht with ht | ht
      · exact hbind _ (fun s => by simp [successes]) ht
      · obtain ⟨f, hf, rfl⟩ := Option.map_eq_some_iff.mp ht
        exact hfact f hf
    · rcases mem_laterClock ht with ht | ht
      · exact hbind _ (fun s => by simp [successes]) ht
      · obtain ⟨f, hf, rfl⟩ := Option.map_eq_some_iff.mp ht
        exact (ediv_mono f.clocks.1).trans (hfact f hf)

/-- A newer fact is the fact. -/
theorem fact_of_newerFact {f : PublicationHealthFact} (h : row.newerFact = some f) :
    row.fact = some f :=
  (Option.filter_eq_some_iff.mp h).1

/-- **The successes of a row precede its recording** exactly when those it shows do. -/
theorem isOrdered_iff : IsOrdered row ↔ SuccessesPrecede row := by
  unfold IsOrdered DirectoryRow.recordedAt
  cases hnewer : row.newerFact with
  | some f =>
    have hrecorded : ((some f).map fun f : PublicationHealthFact => f.lastPublishSuccessAt).or
        (row.health.map fun s => s.recordedAt) = some f.lastPublishSuccessAt := rfl
    rw [hrecorded]
    constructor
    · intro h
      obtain ⟨hhealth, -⟩ := lastSuccess_le_iff.mp (h _ rfl)
      refine ⟨fun f' hf' s hs => ?_, fun hnone => ?_⟩
      · obtain rfl := Option.some.inj (hnewer.symm.trans hf')
        exact hhealth s hs
      · rw [hnewer] at hnone
        cases hnone
    · rintro ⟨hprecede, -⟩ r hr
      cases hr
      refine lastSuccess_le_iff.mpr ⟨hprecede f hnewer, fun f' hf' => ?_⟩
      obtain rfl := Option.some.inj ((fact_of_newerFact hnewer).symm.trans hf')
      exact le_rfl
  | none =>
    have hrecorded : ((none : Option PublicationHealthFact).map
        fun f => f.lastPublishSuccessAt).or (row.health.map fun s => s.recordedAt) =
        row.health.map fun s => s.recordedAt := rfl
    rw [hrecorded]
    constructor
    · intro h
      refine ⟨fun f hf => ?_, fun _ s hs => ?_⟩
      · rw [hnewer] at hf
        cases hf
      · obtain ⟨hhealth, hfact⟩ := lastSuccess_le_iff.mp
          (h s.recordedAt (Option.mem_map_of_mem (fun s : SourceHealthSnapshot => s.recordedAt) hs))
        exact ⟨hhealth s hs, hfact⟩
    · rintro ⟨-, holder⟩ r hr
      obtain ⟨s, hs, rfl⟩ := Option.map_eq_some_iff.mp hr
      obtain ⟨hhealth, hfact⟩ := holder hnewer s hs
      refine lastSuccess_le_iff.mpr ⟨fun s' hs' => ?_, hfact⟩
      obtain rfl := Option.some.inj (hs.symm.trans hs')
      exact hhealth

/-- The health of a row can be shown: its clocks are readable, and its successes come first. -/
structure HealthIsShown (row : DirectoryRow) : Prop where
  recordedAt : ∀ t ∈ row.recordedAt, Readable (t / 1000)
  lastSuccess : ∀ clock ∈ row.lastSuccess, ∀ t ∈ clock, Readable (t / 1000)
  ordered : SuccessesPrecede row

/-- A row without recording shows no health, no fact and no success. -/
theorem of_recordedAt_eq_none (h : row.recordedAt = none) : row.health = none ∧ row.fact = none := by
  unfold DirectoryRow.recordedAt at h
  obtain ⟨hnewer, hhealth⟩ := Option.or_eq_none_iff.mp h
  rw [Option.map_eq_none_iff] at hnewer hhealth
  refine ⟨hhealth, Option.eq_none_iff_forall_not_mem.mpr fun f hf => ?_⟩
  have hall := Option.filter_eq_none_iff.mp hnewer f hf
  refine hall (decide_eq_true fun s hs => ?_)
  rw [hhealth] at hs
  cases hs

/-- The recording of a row is not in the future. -/
theorem IsJoined.recordedAt_le (h : IsJoined db now row) {r : ℤ} (hr : row.recordedAt = some r) :
    r ≤ now := by
  rcases Option.or_eq_some_iff.mp hr with hr | ⟨-, hr⟩
  · obtain ⟨f, hf, rfl⟩ := Option.map_eq_some_iff.mp hr
    exact f.clocks.2.trans (h.fact f (fact_of_newerFact hf))
  · obtain ⟨s, hs, rfl⟩ := Option.map_eq_some_iff.mp hr
    obtain ⟨t, -, ht, hle⟩ := h.health s hs
    exact hle.trans ht

/-- A row that is recorded has a state. -/
theorem exists_healthStatus {r : ℤ} (hr : row.recordedAt = some r) :
    ∃ state, (statusRow now row).healthStatus = some state := by
  rcases Option.or_eq_some_iff.mp hr with hr | ⟨hnewer, hr⟩
  · obtain ⟨f, hf, -⟩ := Option.map_eq_some_iff.mp hr
    refine ⟨.degraded, ?_⟩
    simp only [statusRow, hf, Option.map_some, Option.some_or]
  · obtain ⟨s, hs, -⟩ := Option.map_eq_some_iff.mp hr
    refine ⟨s.status, ?_⟩
    rw [Option.map_eq_none_iff] at hnewer
    simp only [statusRow, hnewer, hs, Option.map_none, Option.none_or, Option.map_some]

/-- The health that an entry shows of a row, recorded at a clock. -/
def statusHealth (now : ℤ) (row : DirectoryRow) (r : ℤ) (state : HealthState) : StatusHealth where
  freshness := if now / 1000 - r / 1000 ≤ publicSourceHealthMaxAgeMs then .current else .stale
  captureAt := (statusRow now row).healthLastCaptureSuccessAt.map (· / 1000)
  discoveryAt := (statusRow now row).healthLastDiscoverySuccessAt.map (· / 1000)
  eligibleEvidenceAt := (statusRow now row).healthNewestEligibleEvidenceAt.map (· / 1000)
  publishAt := (statusRow now row).healthLastPublishSuccessAt.map (· / 1000)
  recordedAt := r / 1000
  state := state

/-- The health that a recorded row shows. -/
theorem healthFromRow_eq_some {r : ℤ} (hr : row.recordedAt = some r)
    {scope : Option StatusScope} {out : Option StatusHealth} :
    healthFromRow (now / 1000) (statusRow now row) scope = some out ↔
      (Readable (r / 1000) ∧ r / 1000 ≤ now / 1000) ∧
        (∀ clock ∈ row.lastSuccess, ∀ t ∈ clock, Readable (t / 1000) ∧ t / 1000 ≤ now / 1000) ∧
          ∃ state, (statusRow now row).healthStatus = some state ∧
            out = some (statusHealth now row r state) := by
  have hrecorded : (statusRow now row).healthRecordedAt = some r := hr
  have hshown : row.lastSuccess = [(statusRow now row).healthLastDiscoverySuccessAt,
      (statusRow now row).healthLastCaptureSuccessAt,
      (statusRow now row).healthLastPublishSuccessAt,
      (statusRow now row).healthNewestEligibleEvidenceAt] := rfl
  unfold healthFromRow
  rw [hrecorded, hshown]
  simp only [Option.bind_eq_some_iff, Option.map_eq_some_iff, timestamp_eq_some,
    optionalTimestamp_eq_some, List.forall_mem_cons, List.not_mem_nil, false_implies, implies_true,
    and_true]
  constructor
  · rintro ⟨-, ⟨rfl, hreadable, hle⟩, state, hstate, -, ⟨rfl, hdiscovery⟩, -, ⟨rfl, hcapture⟩, -,
      ⟨rfl, hpublish⟩, -, ⟨rfl, hevidence⟩, rfl⟩
    exact ⟨⟨hreadable, hle _ rfl⟩, ⟨hdiscovery, hcapture, hpublish, hevidence⟩, state, hstate, rfl⟩
  · rintro ⟨⟨hreadable, hle⟩, ⟨hdiscovery, hcapture, hpublish, hevidence⟩, state, hstate, rfl⟩
    exact ⟨_, ⟨rfl, hreadable, fun t ht => Option.some.inj ht ▸ hle⟩, state, hstate, _,
      ⟨rfl, hdiscovery⟩, _, ⟨rfl, hcapture⟩, _, ⟨rfl, hpublish⟩, _, ⟨rfl, hevidence⟩, rfl⟩

/-- The successes of a shown health are those of its row, in milliseconds. -/
theorem forall_lastSuccess_statusHealth {r : ℤ} {state : HealthState} {P : ℤ → Prop} :
    (∀ clock ∈ (statusHealth now row r state).lastSuccess, ∀ t ∈ clock, P t) ↔
      ∀ clock ∈ row.lastSuccess, ∀ t ∈ clock, P (t / 1000) := by
  have hmap : ∀ clock : Option ℤ, (∀ t ∈ clock.map (· / 1000), P t) ↔ ∀ t ∈ clock, P (t / 1000) := by
    intro clock
    cases clock <;> simp
  simp only [StatusHealth.lastSuccess, statusHealth, statusRow, DirectoryRow.lastSuccess,
    List.forall_mem_cons, List.not_mem_nil, false_implies, implies_true, and_true, hmap]
  constructor
  · rintro ⟨hcapture, hdiscovery, hevidence, hpublish⟩
    exact ⟨hdiscovery, hcapture, hpublish, hevidence⟩
  · rintro ⟨hdiscovery, hcapture, hpublish, hevidence⟩
    exact ⟨hcapture, hdiscovery, hevidence, hpublish⟩

theorem canonicalTimestamp_of_readable {ms : ℤ} (h : Readable ms) : CanonicalTimestamp ms :=
  ⟨le_trans (by norm_num) h.1, h.2⟩

/-- **The health of a row is accepted** exactly when it can be shown. -/
theorem healthFromRow_accepts_iff (hjoined : IsJoined db now row) {scope : Option StatusScope}
    (hscope : row.scope = none → scope = none) :
    (∃ out, healthFromRow (now / 1000) (statusRow now row) scope = some out ∧
      ∀ health ∈ out, StatusHealthSchema health) ↔ HealthIsShown row := by
  cases hr : row.recordedAt with
  | none =>
    obtain ⟨hhealth, hfact⟩ := of_recordedAt_eq_none hr
    have hempty : ∀ clock ∈ row.lastSuccess, clock = none := by
      simp [DirectoryRow.lastSuccess, hhealth, hfact, laterClock]
    refine iff_of_true ⟨none, ?_, fun health hh => by cases hh⟩
      ⟨fun t ht => ?_, fun clock hclock t ht => ?_, isOrdered_iff.mp fun r hrecorded => ?_⟩
    · have hnone : row.scope = none := by
        refine Option.eq_none_iff_forall_not_mem.mpr fun s hs => ?_
        have hid := (hjoined.scope s hs).2
        rw [DirectoryRow.healthScope, hhealth] at hid
        cases hid
      have hnewer : row.newerFact = none := by
        rw [DirectoryRow.newerFact, hfact, Option.filter_none]
      simp [healthFromRow, statusRow, hnewer, hhealth, hfact, hscope hnone, laterClock]
    · rw [hr] at ht
      cases ht
    · rw [hempty clock hclock] at ht
      cases ht
    · rw [hr] at hrecorded
      cases hrecorded
  | some r =>
    have hpast := ediv_mono (hjoined.recordedAt_le hr)
    constructor
    · rintro ⟨out, hout, hschema⟩
      obtain ⟨⟨hreadable, -⟩, hsuccess, state, -, rfl⟩ := (healthFromRow_eq_some hr).mp hout
      refine ⟨fun t ht => ?_, fun clock hclock t ht => (hsuccess clock hclock t ht).1,
        isOrdered_iff.mp fun r' hr' => ?_⟩
      · obtain rfl := Option.some.inj (hr.symm.trans ht)
        exact hreadable
      · obtain rfl := Option.some.inj (hr.symm.trans hr')
        exact forall_lastSuccess_statusHealth.mp (hschema _ rfl).ordered
    · rintro ⟨hrecorded, hsuccess, hprecede⟩
      obtain ⟨state, hstate⟩ := @exists_healthStatus now row r hr
      have hordered := isOrdered_iff.mpr hprecede r hr
      refine ⟨some (statusHealth now row r state), (healthFromRow_eq_some hr).mpr
        ⟨⟨hrecorded r hr, hpast⟩, fun clock hclock t ht => ⟨hsuccess clock hclock t ht,
          (hordered clock hclock t ht).trans hpast⟩, state, hstate, rfl⟩, ?_⟩
      intro health hhealth
      cases hhealth
      refine ⟨forall_lastSuccess_statusHealth.mpr fun clock hclock t ht => ?_, ?_,
        forall_lastSuccess_statusHealth.mpr hordered⟩
      · exact canonicalTimestamp_of_readable (hsuccess clock hclock t ht)
      · exact canonicalTimestamp_of_readable (hrecorded r hr)

/-! ### The ingestion of a row -/

/-- **The ingestion of a row is accepted** exactly when its first clock is readable. -/
theorem ingestionFromRow_accepts_iff (hjoined : IsJoined db now row) (hnow : Readable (now / 1000)) :
    (∃ out, ingestionFromRow (now / 1000) (statusRow now row) = some out ∧
      ∀ ingestion ∈ out, TerminalIngestionSchema ingestion) ↔
        ∀ run ∈ row.run, Readable (run.startedAt / 1000) := by
  cases hrun : row.run with
  | none =>
    refine iff_of_true ⟨none, ?_, fun ingestion h => by cases h⟩ (fun run h => by cases h)
    simp [ingestionFromRow, statusRow, hrun]
  | some run =>
    obtain ⟨hterminal, hstarted, completed, hcompleted, hpast⟩ := hjoined.run run hrun
    have hrange := run.range completed hcompleted
    have hcompletedAt : (statusRow now row).ingestionCompletedAt = some completed := by
      simp only [statusRow, hrun, Option.bind_some]
      exact hcompleted
    have hstatus : (statusRow now row).ingestionStatus = some run.status := by
      simp only [statusRow, hrun, Option.map_some]
    have hstartedAt : (statusRow now row).ingestionStartedAt = some run.startedAt := by
      simp only [statusRow, hrun, Option.map_some]
    simp only [ingestionFromRow, hcompletedAt, hstatus, hstartedAt, Option.bind_some,
      Option.bind_eq_some_iff, Option.map_eq_some_iff, timestamp_eq_some, textState_eq_some]
    constructor
    · rintro ⟨out, ⟨-, -, -, ⟨rfl, hreadable, -⟩, -⟩, -⟩ run' hrun'
      cases hrun'
      exact hreadable
    · intro hreadable
      have hfirst := hreadable run rfl
      have hlast := readable_of_between hfirst hnow hrange hpast
      have hallowed : run.status ∈ [RunStatus.completed, .degraded, .failed, .cancelled] := by
        cases h : run.status <;> simp_all
      refine ⟨_, ⟨_, ⟨rfl, hlast, fun t ht => Option.some.inj ht ▸ ediv_mono hpast⟩, _,
        ⟨rfl, hfirst, fun t ht => Option.some.inj ht ▸ ediv_mono hstarted⟩, _,
        ⟨rfl, hallowed⟩, rfl⟩, ?_⟩
      intro ingestion hingestion
      cases hingestion
      exact ⟨canonicalTimestamp_of_readable hlast, canonicalTimestamp_of_readable hfirst, hterminal,
        ediv_mono hrange⟩

/-! ### Rows -/

/-- **A row can be shown**: its names fit, its clocks are readable, and its successes come before
the clock its health is recorded at. -/
structure RowIsShown (row : DirectoryRow) : Prop where
  id : BoundedString row.source.id 64
  displayName : BoundedString row.source.displayName 160
  scope : ∀ scope ∈ row.scope, BoundedString scope.label 200
  health : HealthIsShown row
  run : ∀ run ∈ row.run, Readable (run.startedAt / 1000)

/-- What an accepted row shows: a well-formed entry of its source and scope. -/
structure Shows (sha256 : JsString → JsString) (row : DirectoryRow) (entry : StatusEntry) :
    Prop where
  schema : StatusEntrySchema entry
  id : entry.id = row.source.id
  scope : entry.scope = row.scope.map (statusScope sha256 row.source.id)

theorem shows_of_entryFromRow {entry : StatusEntry}
    (h : entryFromRow sha256 (now / 1000) (statusRow now row) = some entry) :
    Shows sha256 row entry := by
  unfold entryFromRow at h
  split_ifs at h with hnames
  simp only [Option.bind_eq_some_iff, Option.ite_none_right_eq_some] at h
  obtain ⟨scope, hscope, health, -, ingestion, -, hschema, hentry⟩ := h
  cases hentry
  exact ⟨hschema, rfl, (scopeFromRow_eq_some.mp hscope).2⟩

/-- **When a row is accepted.** -/
theorem entryFromRow_accepts_iff (hsha : ∀ text, Sha256Schema (sha256 text))
    (hjoined : IsJoined db now row) (hnow : Readable (now / 1000)) :
    (∃ entry, entryFromRow sha256 (now / 1000) (statusRow now row) = some entry) ↔
      RowIsShown row := by
  have hnames : ¬ (¬ BoundedString (statusRow now row).sourceId 64 ∨
      ¬ BoundedString (statusRow now row).sourceDisplayName 160) ↔
      BoundedString row.source.id 64 ∧ BoundedString row.source.displayName 160 := by
    rw [not_or, not_not, not_not]
    exact Iff.rfl
  have hnone : ∀ scope : Option StatusScope,
      scope = row.scope.map (statusScope sha256 row.source.id) →
        row.scope = none → scope = none := by
    intro scope hscope hrow
    rw [hscope, hrow, Option.map_none]
  unfold entryFromRow
  simp only [Option.ite_none_left_eq_some, hnames, Option.bind_eq_some_iff,
    Option.ite_none_right_eq_some]
  constructor
  · rintro ⟨-, ⟨hid, hdisplayName⟩, scope, hscope, health, hhealth, ingestion, hingestion, hschema,
      -⟩
    obtain ⟨hlabel, hscopeEq⟩ := scopeFromRow_eq_some.mp hscope
    exact ⟨hid, hdisplayName, hlabel,
      (healthFromRow_accepts_iff hjoined (hnone scope hscopeEq)).mp ⟨health, hhealth, hschema.health⟩,
      (ingestionFromRow_accepts_iff hjoined hnow).mp
        ⟨ingestion, hingestion, hschema.latestTerminalIngestion⟩⟩
  · intro h
    obtain ⟨health, hhealth, hhealthSchema⟩ :=
      (healthFromRow_accepts_iff hjoined (hnone _ rfl)).mpr h.health
    obtain ⟨ingestion, hingestion, hingestionSchema⟩ :=
      (ingestionFromRow_accepts_iff hjoined hnow).mpr h.run
    refine ⟨_, ⟨h.id, h.displayName⟩, _, scopeFromRow_eq_some.mpr ⟨h.scope, rfl⟩, health, hhealth,
      ingestion, hingestion, ?_, rfl⟩
    refine ⟨hhealthSchema, hingestionSchema, ?_, ?_, ?_, ?_⟩
    · intro scope hscope
      obtain ⟨stored, hstored, rfl⟩ := Option.map_eq_some_iff.mp hscope
      exact statusScopeSchema_statusScope hsha _ (h.scope stored hstored)
    · exact ⟨h.displayName.2.2, h.displayName.1, h.displayName.2.1.trans (by decide)⟩
    · exact ⟨h.id.2.2, h.id.1, h.id.2.1.trans (by decide)⟩
    · intro happroved
      exact (of_decide_eq_true happroved : GovernanceApproved now row.source row.permission).1

end Row

/-! ### Keys -/

section Keys

variable {db : StatusDatabase} {sha256 : JsString → JsString} {row row' : DirectoryRow}
  {entry entry' : StatusEntry}

/-- No two scopes have the same digest with one source. -/
def ScopesAreToldApart (sha256 : JsString → JsString) (db : StatusDatabase) : Prop :=
  ∀ source ∈ db.sources,
    Set.InjOn sha256 {text | ∃ scope ∈ db.scopes, text = scopeText source.id scope.id}

theorem scopeText_injective (sourceId : JsString) :
    Function.Injective fun scopeId : ℕ => scopeText sourceId scopeId := by
  intro a b h
  exact JsString.ofNat_injective (List.append_cancel_left h)

/-- A scope identifier has no null character. -/
theorem ne_zero_of_scopeIdSchema {s : JsString} (h : ScopeIdSchema s) : ∀ u ∈ s, ¬ u = 0 := by
  intro u hu hzero
  rw [← List.take_append_drop 6 s, h.1] at hu
  rcases List.mem_append.mp hu with hu | hu
  · rw [hzero] at hu
    exact absurd hu (by decide)
  · rcases h.2.2 u hu with hdigit | hletter
    · rw [hzero] at hdigit
      exact absurd hdigit.1 (by decide)
    · rw [hzero] at hletter
      exact absurd hletter.1 (by decide)

theorem ne_zero_of_mem_scopeId (h : StatusEntrySchema entry) : ∀ u ∈ entry.scopeId, ¬ u = 0 := by
  unfold StatusEntry.scopeId
  cases hscope : entry.scope with
  | none => exact fun u hu => absurd hu List.not_mem_nil
  | some scope => exact ne_zero_of_scopeIdSchema (h.scope scope hscope).id

/-- The key of an entry tells its source and its scope. -/
theorem key_eq_iff (h : StatusEntrySchema entry) (h' : StatusEntrySchema entry') :
    entry.key = entry'.key ↔ entry.id = entry'.id ∧ entry.scopeId = entry'.scopeId := by
  constructor
  · intro hkey
    obtain ⟨hid, -, hscope⟩ := Delimited.eq_of_append_cons_right (P := fun u => u = 0)
      (ne_zero_of_mem_scopeId h) (ne_zero_of_mem_scopeId h') rfl rfl hkey
    exact ⟨hid, hscope⟩
  · rintro ⟨hid, hscope⟩
    rw [StatusEntry.key, StatusEntry.key, hid, hscope]

/-- The scope an entry names is empty exactly when it shows none. -/
theorem scopeId_eq_nil_iff (h : StatusEntrySchema entry) :
    entry.scopeId = [] ↔ entry.scope = none := by
  unfold StatusEntry.scopeId
  cases hscope : entry.scope with
  | none => exact iff_of_true rfl rfl
  | some scope =>
    refine iff_of_false (fun hnil => ?_) (by simp)
    have htake := (h.scope scope hscope).id.1
    rw [show scope.id = [] from hnil] at htake
    exact absurd htake (by decide)

/-- **Two rows show different entries** exactly when they do not both lack the scope of one
source. -/
theorem key_ne_iff (hapart : ScopesAreToldApart sha256 db) {now : ℤ} (hjoined : IsJoined db now row)
    (hjoined' : IsJoined db now row') (hrows : AreApart row row') (hshows : Shows sha256 row entry)
    (hshows' : Shows sha256 row' entry') :
    entry.key ≠ entry'.key ↔
      (row.source.id = row'.source.id → ¬ (row.scope = none ∧ row'.scope = none)) := by
  rw [Ne, key_eq_iff hshows.schema hshows'.schema, hshows.id, hshows'.id, not_and]
  refine imp_congr_right fun hid => ?_
  have hnone := scopeId_eq_nil_iff hshows.schema
  have hnone' := scopeId_eq_nil_iff hshows'.schema
  rw [hshows.scope, Option.map_eq_none_iff] at hnone
  rw [hshows'.scope, Option.map_eq_none_iff] at hnone'
  rw [not_iff_not]
  constructor
  · intro heq
    cases hscope : row.scope with
    | none => exact ⟨rfl, hnone'.mp (heq ▸ hnone.mpr hscope)⟩
    | some scope =>
      cases hscope' : row'.scope with
      | none =>
        have hnil := hnone.mp (heq.trans (hnone'.mpr hscope'))
        rw [hscope] at hnil
        cases hnil
      | some scope' =>
        -- two scopes with one identifier are one scope, which the rows would both show
        obtain ⟨hmem, hhealth⟩ := hjoined.scope scope hscope
        obtain ⟨hmem', hhealth'⟩ := hjoined'.scope scope' hscope'
        rw [StatusEntry.scopeId, StatusEntry.scopeId, hshows.scope, hshows'.scope, hscope, hscope',
          ← hid] at heq
        have hdigest := hapart row.source hjoined.source ⟨scope, hmem, rfl⟩ ⟨scope', hmem', rfl⟩
          (List.append_cancel_left heq)
        refine absurd ?_ (hrows hid)
        rw [hhealth, hhealth', scopeText_injective row.source.id hdigest]
  · rintro ⟨hscope, hscope'⟩
    rw [hnone.mpr hscope, hnone'.mpr hscope']

end Keys

/-! ### The directory -/

/-- **The reader answers with entries that are well-formed and unique per source and scope.** -/
def ReadsDirectory (sha256 : JsString → JsString) (limit : ℕ) (instant : ℤ)
    (rows : List DirectoryRow) : Prop :=
  ∃ directory, read sha256 limit instant (query instant rows) = .ok directory ∧
    (∀ entry ∈ directory.entries, StatusEntrySchema entry) ∧
      (directory.entries.map fun entry => (entry.id, entry.scope.map fun scope => scope.id)).Nodup

/-- What the reader answers on readable instants. -/
theorem read_eq_ok_iff {sha256 : JsString → JsString} {limit : ℕ} {instant : ℤ}
    {rows : List DirectoryRow} {directory : PublicSourceStatusDirectory} :
    read sha256 limit instant (query instant rows) = .ok directory ↔
      ValidRequest limit instant ∧ Readable instant ∧ ∃ entries,
        List.Forall₂ (fun row entry =>
          entryFromRow sha256 instant (statusRow (instant * 1000) row) = some entry)
          (rows.take limit) entries ∧ (entries.map StatusEntry.key).Nodup ∧
          directory = ⟨sortBy compareEntries entries, limit < rows.length⟩ := by
  have hkeys : ∀ entries : List StatusEntry,
      ((sortBy compareEntries entries).map StatusEntry.key).Nodup ↔
        (entries.map StatusEntry.key).Nodup :=
    fun entries => ((sortBy_perm compareEntries entries).map _).nodup_iff
  have hentries : ∀ entries, (((rows.map (statusRow (instant * 1000))).take limit).mapM
      (entryFromRow sha256 instant)) = some entries ↔ List.Forall₂ (fun row entry =>
        entryFromRow sha256 instant (statusRow (instant * 1000) row) = some entry)
        (rows.take limit) entries := by
    intro entries
    rw [← List.map_take, Choices.mapM_eq_some_iff, List.forall₂_map_left_iff]
  unfold read query
  by_cases hrequest : ValidRequest limit instant
  · rw [if_neg (not_not.mpr hrequest)]
    by_cases hreadable : Readable instant
    · rw [if_pos hreadable, Option.bind_some]
      simp only [hrequest, hreadable, true_and]
      cases hmap : ((rows.map (statusRow (instant * 1000))).take limit).mapM
          (entryFromRow sha256 instant) with
      | none =>
        refine iff_of_false (by simp) ?_
        rintro ⟨entries, hall, -⟩
        rw [(hentries entries).mpr hall] at hmap
        cases hmap
      | some entries =>
        have hall := (hentries entries).mp hmap
        constructor
        · intro h
          dsimp only at h
          split_ifs at h with hnodup
          refine ⟨entries, hall, (hkeys entries).mp hnodup, ?_⟩
          rw [← Except.ok.inj h]
          simp
        · rintro ⟨entries', hall', hnodup, rfl⟩
          obtain rfl := Option.some.inj (hmap.symm.trans ((hentries entries').mpr hall'))
          dsimp only
          rw [if_neg (not_not.mpr ((hkeys entries).mpr hnodup))]
          simp
    · rw [if_neg hreadable]
      simp [hreadable]
  · rw [if_pos hrequest]
    simp [hrequest]

/-- Each health and each fact has its clocks at or before its own persistence. -/
def KeepsClocks (db : StatusDatabase) : Prop :=
  (∀ s ∈ db.snapshots, ∀ persistedAt ∈ s.persistedAt, s.recordedAt ≤ persistedAt ∧
    ∀ clock ∈ successes s, ∀ t ∈ clock, t ≤ persistedAt) ∧
      ∀ f ∈ db.facts, f.lastPublishSuccessAt ≤ f.persistedAt ∧
        f.newestEligibleEvidenceAt ≤ f.persistedAt

/-- A source of offers. -/
def offerSource : PublicSource where
  id := js "offers"
  runtimeState := .approved
  permissionReviewedAt := none
  permissionExpiresAt := none
  publicStateChangedAt := 0
  createdAt := 0
  displayName := js "Offers"
  kind := .offer

/-- A failure of a worker that is persisted some time after it is recorded. -/
def failedHealth (persistedAt : ℤ) : SourceHealthSnapshot where
  id := 1
  sourceId := js "offers"
  geographicScopeId := none
  status := .failed
  lastDiscoverySuccessAt := none
  lastCaptureSuccessAt := none
  lastPublishSuccessAt := none
  newestEligibleEvidenceAt := none
  recordedAt := 10000
  workerJobId := some (js "job")
  persistedAt := some persistedAt
  notFuture := by simp

/-- A publication at 12 milliseconds, persisted at 13. -/
def publicationFact : PublicationHealthFact where
  id := 1
  sourceId := js "offers"
  lastPublishSuccessAt := 12000
  newestEligibleEvidenceAt := 5000
  persistedAt := 13000
  clocks := by decide

/-- The failure, recorded before the publication, and the publication. -/
def failureAndPublication (persistedAt : ℤ) : StatusDatabase where
  sources := [offerSource]
  permissions := []
  snapshots := [failedHealth persistedAt]
  facts := [publicationFact]
  scopes := []
  runs := []
  sourceIds := List.nodup_singleton _
  scopeIds := List.nodup_nil

/-- The row of the source. -/
def publicationRow (persistedAt : ℤ) : DirectoryRow where
  source := offerSource
  permission := none
  health := some (failedHealth persistedAt)
  fact := some publicationFact
  scope := none
  run := none

/-- A digest of zeros. -/
def zeroDigest (_ : JsString) : JsString := List.replicate 64 48

theorem sha256Schema_zeroDigest (text : JsString) : Sha256Schema (zeroDigest text) :=
  ⟨List.length_replicate, fun u hu => .inl (by rw [List.eq_of_mem_replicate hu]; decide)⟩

theorem isAnswer_singleton {collation : Collation} {db : StatusDatabase} {now : ℤ} {count : ℕ}
    {row : DirectoryRow} (h : directoryRows db now = [row]) :
    IsAnswer collation db now (count + 1) [row] :=
  ⟨[row], h ▸ .refl _, List.pairwise_singleton _ _, by simp⟩

end Handleplan.SourceStatus
