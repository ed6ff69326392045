import Handleplan.Db.AlertLedgerSpec

/-!
# The contracts of evaluations in the database

`operationalAlertEvaluationV1Schema` and the checks of the arguments of
`append_operations_alert_evaluation_v1` say the same of a roster and its matrix of assessments, but
for the worker jobs: the function does not know `store-catalog-price-refresh`.

## Main results

* `AlertLedger.EvaluationSchema.matrixAccepted` — a matrix of the contract is accepted.
* `AlertLedger.canonicalRoster_eq` — both sides write the same text of a roster.
* `AlertLedger.argumentsAccepted_iff` — which evaluations of the contract are accepted.
* `AlertLedger.alertLedger_holds` — the ledger folds to the last evaluation.
-/

namespace Handleplan.AlertLedger

open JsString JsonText Sorting Operations Workers Interaction Sessions

/-! ### Identities -/

theorem zero_notMem_text (key : AlertKey) : (0 : UInt16) ∉ key.text := by
  cases key <;> decide

/-- The alerts of sources are those that need one. -/
theorem needsSource_iff (key : AlertKey) : key.NeedsSource ↔ key ∈ sourceKeys := by
  cases key <;> decide

theorem mem_sourceKeys_iff (key : AlertKey) : key ∈ sourceKeys ↔ key ∉ globalKeys := by
  cases key <;> decide

section Identity

variable {a : Assessment} {key : AlertKey} {sourceId : Option JsString}
  {evaluation : OperationalAlertEvaluation}

/-- **The identity of an assessment tells its alert and its source.** -/
theorem AssessmentSchema.identity_eq_iff (h : AssessmentSchema a)
    (hscope : key.NeedsSource ↔ sourceId ≠ none) :
    a.identity = key.text ++ 0 :: sourceId.getD [] ↔ a.alertKey = key ∧ a.sourceId = sourceId := by
  constructor
  · intro heq
    obtain ⟨htext, hsource⟩ := append_sep_inj (zero_notMem_text _) (zero_notMem_text _) heq
    have hkey := text_injective htext
    refine ⟨hkey, ?_⟩
    have hnone : a.sourceId ≠ none ↔ sourceId ≠ none := by rw [← h.scope, hkey, hscope]
    cases ha : a.sourceId with
    | none =>
      rw [ha] at hnone
      exact (not_not.mp fun hne => hnone.mpr hne rfl).symm
    | some source =>
      obtain ⟨source', rfl⟩ := Option.ne_none_iff_exists'.mp (hnone.mp (by rw [ha]; simp))
      rw [ha] at hsource
      exact congrArg some hsource
  · rintro ⟨rfl, rfl⟩
    rfl

theorem EvaluationSchema.perm (h : EvaluationSchema evaluation) :
    (evaluation.assessments.map Assessment.identity).Perm evaluation.sourceRoster.identities := by
  refine (sortBy_perm compareText _).symm.trans ?_
  rw [h.matrix]
  exact sortBy_perm compareText _

/-- What the identities of a roster are. -/
theorem mem_identities_iff {roster : SourceRoster} {identity : JsString} :
    identity ∈ roster.identities ↔ (∃ key ∈ globalKeys, key.text ++ [0] = identity) ∨
      ∃ sourceId ∈ roster.sourceIds, ∃ key ∈ sourceKeys, key.text ++ 0 :: sourceId = identity := by
  rw [SourceRoster.identities, List.mem_append, List.mem_map, List.mem_flatMap]
  simp only [List.mem_map]

/-- Every identity of the roster is of one assessment. -/
theorem EvaluationSchema.countOf_eq_one (h : EvaluationSchema evaluation)
    (hscope : key.NeedsSource ↔ sourceId ≠ none)
    (hmem : key.text ++ 0 :: sourceId.getD [] ∈ evaluation.sourceRoster.identities) :
    countOf evaluation.assessments key sourceId = 1 := by
  have hcount := List.count_eq_one_of_mem h.unique (h.perm.mem_iff.mpr hmem)
  rw [List.count, List.countP_map, List.countP_eq_length_filter] at hcount
  rw [← hcount, countOf]
  congr 1
  refine List.filter_congr fun a ha => ?_
  have hiff := (h.assessments a ha).identity_eq_iff hscope
  rw [Bool.eq_iff_iff, decide_eq_true_iff, ← hiff, Function.comp_apply, beq_iff_eq]

end Identity

/-! ### The matrix -/

section Matrix

variable {evaluation : OperationalAlertEvaluation}

theorem length_identities (roster : SourceRoster) :
    roster.identities.length = 8 + 6 * roster.sourceIds.length := by
  have hsources : (roster.sourceIds.flatMap fun sourceId =>
      sourceKeys.map fun key => key.text ++ 0 :: sourceId).length = 6 * roster.sourceIds.length := by
    induction roster.sourceIds with
    | nil => rfl
    | cons sourceId sourceIds ih =>
      rw [List.flatMap_cons, List.length_append, ih, List.length_map, List.length_cons]
      show 6 + 6 * sourceIds.length = 6 * (sourceIds.length + 1)
      omega
  rw [SourceRoster.identities, List.length_append, hsources, List.length_map]
  rfl

/-- An assessment has the scope of its alert. -/
theorem EvaluationSchema.scopeAccepted (h : EvaluationSchema evaluation) {a : Assessment}
    (ha : a ∈ evaluation.assessments) : ScopeAccepted evaluation.sourceRoster a := by
  have hschema := h.assessments a ha
  have hmem := h.perm.mem_iff.mp (List.mem_map_of_mem ha)
  unfold ScopeAccepted
  by_cases hkey : a.alertKey ∈ sourceKeys
  · rw [if_pos hkey]
    rcases mem_identities_iff.mp hmem with ⟨key, hglobal, heq⟩ | ⟨sourceId, hsource, key, -, heq⟩
    · obtain ⟨htext, -⟩ := append_sep_inj (zero_notMem_text _) (zero_notMem_text _) heq
      rw [← text_injective htext] at hkey
      exact absurd hglobal ((mem_sourceKeys_iff key).mp hkey)
    · obtain ⟨-, hid⟩ := append_sep_inj (zero_notMem_text _) (zero_notMem_text _) heq
      obtain ⟨source, hsome⟩ := Option.ne_none_iff_exists'.mp
        (hschema.scope.mp ((needsSource_iff _).mpr hkey))
      rw [hsome] at hid
      have hid : sourceId = source := hid
      exact ⟨source, hsome, hid ▸ hsource⟩
  · rw [if_neg hkey]
    exact not_not.mp fun hne => hkey ((needsSource_iff _).mp (hschema.scope.mpr hne))

/-- Assessments in the order of their identities follow one another. -/
theorem follows_of_identity {a b : Assessment} (hle : compareText a.identity b.identity ≠ .gt)
    (hne : a.identity ≠ b.identity) : Follows a b := by
  have hthen : (compareText a.alertKey.text b.alertKey.text).then
      (compareText (a.sourceId.getD []) (b.sourceId.getD [])) = .lt := by
    rw [← compareText_append_zero (zero_notMem_text _) (zero_notMem_text _)]
    show compareText a.identity b.identity = .lt
    cases hcompare : compareText a.identity b.identity with
    | lt => rfl
    | eq => exact absurd (compareText_eq_iff.mp hcompare) hne
    | gt => exact absurd hcompare hle
  refine not_or.mpr ⟨fun hgt => ?_, ?_⟩
  · rw [hgt] at hthen
    cases hthen
  · rintro ⟨hkey, hsource⟩
    rw [hkey, compareText_eq_iff.mpr rfl] at hthen
    exact hsource hthen

theorem EvaluationSchema.isChain_follows (h : EvaluationSchema evaluation) :
    evaluation.assessments.IsChain Follows := by
  have hle := List.isChain_map _ |>.mp h.sorted
  have hne : evaluation.assessments.IsChain fun a b => a.identity ≠ b.identity :=
    (List.pairwise_map.mp h.unique).isChain
  rw [List.isChain_iff_getElem] at hle hne ⊢
  exact fun i hi => follows_of_identity (hle i hi) (hne i hi)

/-- **A matrix of the contract is accepted.** -/
theorem EvaluationSchema.matrixAccepted (h : EvaluationSchema evaluation) :
    MatrixAccepted evaluation.arguments where
  length := by
    have hlength := h.perm.length_eq
    rw [length_identities, List.length_map] at hlength
    exact hlength
  states a ha := (h.assessments a ha).state
  scopes a ha := h.scopeAccepted ha
  sorted := h.isChain_follows
  globals key hkey := by
    refine h.countOf_eq_one ?_ (mem_identities_iff.mpr (.inl ⟨key, hkey, rfl⟩))
    rw [needsSource_iff, mem_sourceKeys_iff]
    exact iff_of_false (fun hnot => hnot hkey) fun hne => hne rfl
  sources sourceId hsource key hkey := by
    refine h.countOf_eq_one ?_ (mem_identities_iff.mpr (.inr ⟨sourceId, hsource, key, hkey, rfl⟩))
    exact iff_of_true ((needsSource_iff key).mpr hkey) (Option.some_ne_none _)

end Matrix

/-! ### The roster -/

section Roster

variable {entry : RosterEntry} {roster : SourceRoster}

/-- The units of versions and of the identifiers of sources are no halves of pairs. -/
theorem isWellFormed_of_lt {s : JsString} (h : ∀ u ∈ s, u < 128) : isWellFormed s = true := by
  refine isWellFormed_of_forall fun u hu => ?_
  have hlt := UInt16.lt_iff_toNat_lt.mp (h u hu)
  have hlt : u.toNat < 128 := hlt
  constructor
  · simp only [isHigh, UInt16.le_iff_toNat_le, decide_eq_false_iff_not, Bool.and_eq_false_iff]
    grind
  · simp only [isLow, UInt16.le_iff_toNat_le, decide_eq_false_iff_not, Bool.and_eq_false_iff]
    grind

theorem isWellFormed_sourceIdentifier {sourceId : JsString} (h : SourceIdentifier sourceId) :
    isWellFormed sourceId = true := by
  have hmarks : ∀ u ∈ ([46, 95, 45] : JsString), u < 128 := by decide
  refine isWellFormed_of_lt fun u hu => ?_
  rcases h.2.2.2 u hu with hlower | hdigit | hmark
  · grind
  · grind
  · exact hmarks u hmark

theorem isWellFormed_rosterVersion {version : JsString} (h : RosterVersion version) :
    isWellFormed version = true := by
  have hmarks : ∀ u ∈ js "._:-", u < 128 := by decide
  refine isWellFormed_of_lt fun u hu => ?_
  rcases h.2.2.2 u hu with hlower | hdigit | hmark
  · grind
  · grind
  · exact hmarks u hmark

theorem stringify_signal (kind : EvidenceSignalKind) : stringify kind.text = quote kind.text := by
  cases kind <;> exact stringify_eq_quote (by decide)

theorem stringify_job (kind : WorkerJobKind) : stringify kind.text = quote kind.text := by
  cases kind <;> exact stringify_eq_quote (by decide)

theorem entryText_eq (h : RosterEntrySchema entry) :
    entryText stringify entry = entryText quote entry := by
  simp only [entryText, stringify_signal, stringify_job,
    stringify_eq_quote (isWellFormed_sourceIdentifier h.sourceId)]

/-- **Both sides write the same text of a roster.** -/
theorem canonicalRoster_eq (h : SourceRosterSchema roster) :
    canonicalRoster roster = canonicalizeOperationsSourceRosterV1 roster := by
  have hentries : roster.entries.map (entryText stringify) = roster.entries.map (entryText quote) :=
    List.map_congr_left fun entry hentry => entryText_eq (h.entries entry hentry)
  rw [canonicalRoster, canonicalizeOperationsSourceRosterV1, rosterText, rosterText, hentries,
    stringify_eq_quote (isWellFormed_rosterVersion h.version)]

/-- Sorted texts ascend. -/
theorem SortedTexts.ascending {texts : List JsString} (h : SortedTexts texts) : Ascending texts := by
  have hle := pairwise_sortBy compareText texts
  rw [h.2] at hle
  refine ((hle.and h.1).imp fun {a b} hab => ?_).isChain
  cases hcompare : compareText a b with
  | lt => rfl
  | eq => exact absurd (compareText_eq_iff.mp hcompare) hab.2
  | gt =>
    rw [hcompare] at hab
    cases hab.1

theorem allowedWorkerJobKinds_iff (kind : WorkerJobKind) : kind ∈ allowedWorkerJobKinds ↔
    kind ∈ operationalWorkerJobKinds ∧ kind ≠ .storeCatalogPriceRefresh := by
  cases kind <;> decide

/-- **Which entries of the contract are accepted.** -/
theorem RosterEntrySchema.entryAccepted_iff (h : RosterEntrySchema entry) :
    EntryAccepted entry ↔ .storeCatalogPriceRefresh ∉ entry.requiredWorkerJobKinds := by
  constructor
  · intro haccepted hmem
    exact ((allowedWorkerJobKinds_iff _).mp (haccepted.kinds _ hmem)).2 rfl
  · intro hnot
    have hallowed : ∀ kind ∈ entry.requiredWorkerJobKinds, kind ∈ allowedWorkerJobKinds := by
      intro kind hkind
      refine (allowedWorkerJobKinds_iff kind).mpr ⟨h.kinds kind hkind, ?_⟩
      rintro rfl
      exact hnot hkind
    have hnodup : entry.requiredWorkerJobKinds.Nodup := h.kindsSorted.1.of_map _
    exact {
      sourceId := h.sourceId
      signalsBound := h.signalsBound
      signalsSorted := h.signalsSorted
      kindsBound := ⟨h.kindsBound.1, (hnodup.subperm hallowed).length_le⟩
      kinds := hallowed
      kindsSorted := h.kindsSorted }

end Roster

/-! ### The arguments -/

/-- **Which evaluations of the contract are accepted**: those that require no refresh of the prices
of store catalogues. -/
theorem argumentsAccepted_iff {sha256 : JsString → JsString} {evaluation : OperationalAlertEvaluation}
    (h : EvaluationSchema evaluation)
    (hdigest : sha256 (canonicalizeOperationsSourceRosterV1 evaluation.sourceRoster) =
      evaluation.sourceRoster.contentSha256) :
    ArgumentsAccepted sha256 evaluation.arguments ↔ ∀ entry ∈ evaluation.sourceRoster.entries,
      .storeCatalogPriceRefresh ∉ entry.requiredWorkerJobKinds := by
  have hroster := h.sourceRoster
  constructor
  · intro haccepted entry hentry
    exact (hroster.entries entry hentry).entryAccepted_iff.mp (haccepted.1.entries entry hentry)
  · intro hkinds
    refine ⟨?_, h.matrixAccepted⟩
    exact {
      evaluatedAt := Int.mul_emod_left _ _
      bound := hroster.bound
      contentSha256 := hroster.contentSha256
      version := hroster.version
      entries := fun entry hentry =>
        (hroster.entries entry hentry).entryAccepted_iff.mpr (hkinds entry hentry)
      ascending := hroster.sorted.ascending
      digest := (congrArg sha256 (canonicalRoster_eq hroster)).trans hdigest }

/-! ### The ledger -/

/-- **The ledger folds to the last evaluation** in every run whose calls meet the condition, and the
evaluations of the contract that are accepted are those that require no refresh of the prices of
store catalogues.

**Proof sketch.** A call reads and writes the ledger under one lock, so that the committed calls and
the one that holds the lock form one trace. By induction over it the ledger is sound, and the newest
checkpoint and the newest event of each alert are those that the last call left. A call that meets
these passes the checks of what is stored. -/
theorem alertLedger_holds {sha256 : JsString → JsString}
    {evaluationSha256 : EvaluationArguments → JsString} {hash : LockHash} {st : LedgerState}
    (hdigest : ∀ call, Sha256Schema (evaluationSha256 call))
    (hst : (database sha256 evaluationSha256 hash).system.Reachable MayHappen st)
    (htold : AreToldApart evaluationSha256 (callsOf st)) :
    LedgerHolds st ∧ ∀ evaluation : OperationalAlertEvaluation, EvaluationSchema evaluation →
      sha256 (canonicalizeOperationsSourceRosterV1 evaluation.sourceRoster) =
        evaluation.sourceRoster.contentSha256 →
      (ArgumentsAccepted sha256 evaluation.arguments ↔
        ∀ entry ∈ evaluation.sourceRoster.entries,
          .storeCatalogPriceRefresh ∉ entry.requiredWorkerJobKinds) :=
  ⟨ledgerHolds_of_reachable hdigest hst htold,
    fun _ hschema hroster => argumentsAccepted_iff hschema hroster⟩

/-! ### One source -/

/-- A digest. -/
def zeroDigest : JsString := List.replicate 64 48

/-- A roster of one source, with one required worker job. -/
def rosterOf (contentSha256 : JsString) (kind : WorkerJobKind) : SourceRoster where
  contentSha256 := contentSha256
  entries := [⟨[.ordinaryPrice], [kind], js "kassalapp"⟩]
  version := js "v1"

/-- An evaluation of it, in which nothing is wrong. -/
def evaluationOf (contentSha256 : JsString) (kind : WorkerJobKind) : OperationalAlertEvaluation where
  assessments :=
    (globalKeys.map fun key => ⟨key, .ok, .info, none, .closed⟩) ++
      sourceKeys.map fun key => ⟨key, .ok, .info, some (js "kassalapp"), .closed⟩
  evaluatedAt := 1000
  sourceRoster := rosterOf contentSha256 kind

theorem evaluationSchema_evaluationOf {contentSha256 : JsString} (h : Sha256Schema contentSha256)
    {kind : WorkerJobKind} (hkind : kind ∈ [WorkerJobKind.catalogRefresh, .storeCatalogPriceRefresh]) :
    EvaluationSchema (evaluationOf contentSha256 kind) := by
  have hzero : ∀ kind ∈ [WorkerJobKind.catalogRefresh, .storeCatalogPriceRefresh],
      EvaluationSchema (evaluationOf zeroDigest kind) := by decide +kernel
  have hschema := hzero kind hkind
  exact { hschema with sourceRoster := { hschema.sourceRoster with contentSha256 := h } }

/-- An evaluation of the contract that is accepted. -/
def catalogEvaluation : OperationalAlertEvaluation := evaluationOf zeroDigest .catalogRefresh

/-- Nothing is evaluated yet. -/
def noEvaluation : LedgerState where
  clock := 2000000
  running := []
  committed := []

/-- What the database answers, when the next number is given and nothing is stored. -/
def replyEmpty (id : ℕ) : (query : Query) → Answer query
  | .countSources sourceIds => sourceIds.length
  | .advisoryLock _ => ()
  | .clockTimestamp => (2000000 : ℤ)
  | .selectNewest _ _ => (none : Option AlertEvent)
  | .insertEvent _ => Stamp.mk (id + 1) 2000000

/-- A run of one call. -/
def evaluatesOnce : List (Step ℕ EvaluationArguments Query Answer) :=
  .begins 1 catalogEvaluation.arguments ::
    (List.range 48).map fun id => .proceeds 1 (replyEmpty id)

theorem committed_evaluatesOnce :
    ((database (fun _ => zeroDigest) (fun _ => zeroDigest) fun _ => 0).system.runWhere MayHappen
      noEvaluation evaluatesOnce).map (fun st =>
        (st.running.map fun p => p.2.call, st.committed.map fun t => (t.call, t.result.appendedCount))) =
      some ([], [(catalogEvaluation.arguments, 14)]) := by
  decide +kernel

/-- In that run each of the fourteen alerts gets an event. -/
theorem alertLedger_holds_evaluatesOnce :
    ∃ st, (database (fun _ => zeroDigest) (fun _ => zeroDigest) fun _ => 0).system.runWhere MayHappen
        noEvaluation evaluatesOnce = some st ∧
      (st.committed.map fun t => (t.call, t.result.appendedCount)) =
        [(catalogEvaluation.arguments, 14)] ∧
      LedgerHolds st ∧ ArgumentsAccepted (fun _ => zeroDigest) catalogEvaluation.arguments := by
  obtain ⟨st, hst, hcommitted⟩ := Option.map_eq_some_iff.mp committed_evaluatesOnce
  obtain ⟨hrunning, hcommitted⟩ := Prod.mk.inj hcommitted
  have hinit : (database (fun _ => zeroDigest) (fun _ => zeroDigest) fun _ => 0).system.Reachable
      MayHappen noEvaluation := .init ⟨rfl, rfl⟩
  have hcalls : ∀ call ∈ callsOf st, call = catalogEvaluation.arguments := by
    rintro call (⟨t, ht, rfl⟩ | ⟨p, hp, rfl⟩)
    · have hmem := List.mem_map_of_mem (f := fun t : CommittedCall => (t.call, t.result.appendedCount)) ht
      rw [hcommitted, List.mem_singleton] at hmem
      exact (Prod.mk.inj hmem).1
    · rw [List.map_eq_nil_iff.mp hrunning] at hp
      cases hp
  obtain ⟨hholds, haccepted⟩ := alertLedger_holds (fun _ => (by decide : Sha256Schema zeroDigest))
    (hinit.runWhere hst) fun a ha b hb _ => (hcalls a ha).trans (hcalls b hb).symm
  have hschema : EvaluationSchema catalogEvaluation :=
    evaluationSchema_evaluationOf (by decide) (by decide)
  exact ⟨st, hst, hcommitted, hholds, (haccepted _ hschema rfl).mpr (by decide)⟩

/-- **An evaluation of the contract is refused** when a source requires a refresh of the prices of
store catalogues: whatever the digests are, not all are accepted. -/
theorem not_argumentsAccepted_storeCatalogPriceRefresh :
    ¬ ∃ sha256 : JsString → JsString, (∀ text, Sha256Schema (sha256 text)) ∧
      ∀ evaluation : OperationalAlertEvaluation, EvaluationSchema evaluation →
        sha256 (canonicalizeOperationsSourceRosterV1 evaluation.sourceRoster) =
          evaluation.sourceRoster.contentSha256 →
        ArgumentsAccepted sha256 evaluation.arguments := by
  rintro ⟨sha256, hsha256, hall⟩
  -- The text of a roster does not depend on its digest.
  have hentries := (hall (evaluationOf
    (sha256 (canonicalizeOperationsSourceRosterV1 (rosterOf [] .storeCatalogPriceRefresh)))
    .storeCatalogPriceRefresh) (evaluationSchema_evaluationOf (hsha256 _) (by decide)) rfl).1.entries
  have hentry := (hentries _ (List.mem_singleton_self _)).kinds _ (List.mem_singleton_self _)
  revert hentry
  decide

end Handleplan.AlertLedger
