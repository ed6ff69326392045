import Handleplan.Domain.OperationalAlerts
import Handleplan.Lib.Choices

/-!
# What the evaluation of operational alerts says

An accepted snapshot that is not truncated is evaluated: each alert of the roster is assessed once,
in the canonical order. An assessment is `ok` exactly when its evidence is there and within its
limits, and with older evidence no alert is less severe.

## Main definitions

* `OperationalAlerts.matrix` — the alerts of a roster.
* `OperationalAlerts.AssessesOnce` — an evaluation has each alert of a roster once.
* `OperationalAlerts.IsGood` — the evidence of an alert is there and within its limits.
* `OperationalAlerts.EvidenceIsOlder` — two snapshots that differ by the age of their
  evidence.

## Main results

* `OperationalAlerts.evaluate_eq` — what the evaluation is.
* `OperationalAlerts.outcome_eq_ok_iff` — when an assessment is `ok`.
* `OperationalAlerts.rank_le_of_evidenceIsOlder` — older evidence is not less severe.
* `OperationalAlerts.evaluateOperationalAlertsV1_spec` — the three together.

## Implementation notes

The evidence of a freshness, of a lag and of a queue has a limit of its age. The latest extraction
has none, and a source whose health is unknown is judged by its jobs.
-/

namespace Handleplan.OperationalAlerts

open JsString Sorting Operations Workers AlertLedger

/-! ### The alerts of a roster -/

/-- The alert of an assessment. -/
def alertOf (a : Assessment) : AlertKey × Option JsString := (a.alertKey, a.sourceId)

/-- The alerts of a roster: those of the components, and those of each source. -/
def matrix (roster : SourceRoster) : List (AlertKey × Option JsString) :=
  (globalKeys.map fun key => (key, none)) ++
    roster.sourceIds.flatMap fun sourceId => sourceKeys.map fun key => (key, some sourceId)

/-- An evaluation of a snapshot has an assessment of each alert of the roster, once, and in the
order of the keys and the sources. -/
structure AssessesOnce (evidence : OperationsEvidenceSnapshot)
    (evaluation : OperationalAlertEvaluation) : Prop where
  sourceRoster : evaluation.sourceRoster = evidence.sourceRoster
  evaluatedAt : evaluation.evaluatedAt = evidence.observedAt
  alerts : (evaluation.assessments.map alertOf).Perm (matrix evidence.sourceRoster)
  unique : (evaluation.assessments.map alertOf).Nodup
  sorted : evaluation.assessments.Pairwise fun a b => compareAssessments a b = .lt
  stated : ∀ a ∈ evaluation.assessments, a = assessed a.alertKey a.sourceId a.outcome

variable {roster : SourceRoster}

theorem mem_matrix {alert : AlertKey × Option JsString} :
    alert ∈ matrix roster ↔ (∃ key ∈ globalKeys, alert = (key, none)) ∨
      ∃ sourceId ∈ roster.sourceIds, ∃ key ∈ sourceKeys, alert = (key, some sourceId) := by
  simp only [matrix, List.mem_append, List.mem_map, List.mem_flatMap, eq_comm]

/-- No alert is twice in the matrix. -/
theorem nodup_matrix (h : roster.sourceIds.Nodup) :
    (matrix roster).Nodup := by
  have hglobal : globalKeys.Nodup := by decide
  have hsource : sourceKeys.Nodup := by decide
  refine List.Nodup.append (hglobal.map fun a b hab => (Prod.mk.inj hab).1) ?_ ?_
  · refine List.nodup_flatMap.mpr ⟨fun sourceId _ => ?_, h.imp fun {a b} hne => ?_⟩
    · exact hsource.map fun a b hab => (Prod.mk.inj hab).1
    · intro alert ha hb
      obtain ⟨key, -, rfl⟩ := List.mem_map.mp ha
      obtain ⟨key', -, heq⟩ := List.mem_map.mp hb
      exact hne (Option.some.inj (Prod.mk.inj heq).2).symm
  · intro alert ha hb
    obtain ⟨key, -, rfl⟩ := List.mem_map.mp ha
    obtain ⟨sourceId, -, hb⟩ := List.mem_flatMap.mp hb
    obtain ⟨key', -, heq⟩ := List.mem_map.mp hb
    cases (Prod.mk.inj heq).2

/-- In the matrix the alerts of components have no source, and those of sources have one. -/
theorem needsSource_of_mem {alert : AlertKey × Option JsString} (h : alert ∈ matrix roster) :
    alert.1.NeedsSource ↔ alert.2 ≠ none := by
  rcases mem_matrix.mp h with ⟨key, hkey, rfl⟩ | ⟨sourceId, -, key, hkey, rfl⟩
  · refine iff_of_false (fun hneeds => ?_) fun hne => hne rfl
    exact (mem_sourceKeys_iff key).mp ((needsSource_iff key).mp hneeds) hkey
  · exact iff_of_true ((needsSource_iff key).mpr hkey) (Option.some_ne_none _)

theorem identities_eq (roster : SourceRoster) :
    roster.identities = (matrix roster).map fun alert => alert.1.text ++ 0 :: alert.2.getD [] := by
  simp only [SourceRoster.identities, matrix, List.map_append, List.map_map, List.map_flatMap]
  rfl

/-! ### Assessments -/

section Assessed

variable {key : AlertKey} {sourceId : Option JsString} (outcome : AlertOutcome)

theorem assessmentSchema_assessed (hscope : key.NeedsSource ↔ sourceId ≠ none)
    (hid : ∀ id ∈ sourceId, SourceIdentifier id) :
    AssessmentSchema (assessed key sourceId outcome) where
  status := by
    show (if outcome = .ok then AlertStatus.closed else .opened) ≠ .acknowledged
    cases outcome <;> decide
  sourceId := hid
  scope := hscope
  state := by
    show StateAgrees outcome (severityOf outcome) (if outcome = .ok then .closed else .opened)
    cases outcome <;> decide

theorem assessment_eq (hscope : key.NeedsSource ↔ sourceId ≠ none)
    (hid : ∀ id ∈ sourceId, SourceIdentifier id) :
    assessment key sourceId outcome = some (assessed key sourceId outcome) :=
  if_pos (assessmentSchema_assessed outcome hscope hid)

end Assessed

/-- The outcome of the alert of a component. -/
def suppliedOutcome (supplied : SuppliedOperationalStatuses) : AlertKey → AlertOutcome
  | .apiCoordinatorOutage => simpleOutcome supplied.apiCoordinator [.healthy] [] [.outage]
  | .apiErrorRate => simpleOutcome supplied.apiErrorRate [.normal] [.elevated] [.critical]
  | .apiLatency =>
    simpleOutcome supplied.apiLatency [.withinTarget] [.aboveTarget] [.unavailable]
  | .apiSaturation => simpleOutcome supplied.apiSaturation [.normal] [.high] [.critical]
  | .backupStatus => simpleOutcome supplied.backup [.current] [.stale] [.failed]
  | .certificateStatus => simpleOutcome supplied.certificate [.valid] [.expiring] [.expired]
  | .databaseSaturation => simpleOutcome supplied.databaseSaturation [.normal] [.high] [.critical]
  | .diskStatus => simpleOutcome supplied.disk [.healthy] [.low] [.critical]
  | _ => .unknown

/-- The outcome of the alert of a source. -/
def sourceOutcome (requirement : RosterEntry) (source : SourceOperationalMetrics) :
    AlertKey → AlertOutcome
  | .offerExpired => if 0 < source.offers.expiredButPublished.value then .critical else .ok
  | .offerExpiring => if 0 < source.offers.expiringWithin48h.value then .warning else .ok
  | .reviewQueueAge => if source.reviewQueue.count.capped = true ∨
      reviewAgeTargetSeconds < source.reviewQueue.oldestAgeSeconds.getD 0 then .warning else .ok
  | .sourceFreshness => freshnessOutcome source
  | .sourceSilentZeroPublication => silentZeroOutcome source
  | .workerLag => lagOutcome requirement source
  | _ => .unknown

theorem suppliedOutcomes_eq (supplied : SuppliedOperationalStatuses) :
    suppliedOutcomes supplied = globalKeys.map fun key => (key, suppliedOutcome supplied key) := rfl

theorem sourceOutcomes_eq (requirement : RosterEntry) (source : SourceOperationalMetrics) :
    sourceOutcomes requirement source =
      sourceKeys.map fun key => (key, sourceOutcome requirement source key) := rfl

/-! ### The sources of an accepted snapshot -/

/-- The requirement of a source of a snapshot. -/
structure Requires (evidence : OperationsEvidenceSnapshot) (requirement : RosterEntry)
    (source : SourceOperationalMetrics) : Prop where
  mem : requirement ∈ evidence.sourceRoster.entries
  sourceId : requirement.sourceId = source.sourceId
  agrees : SourceAgrees evidence.observedAt requirement source

section Accepted

variable {evidence : OperationsEvidenceSnapshot} {source : SourceOperationalMetrics}
  {requirement : RosterEntry}

section

variable (h : OperationsEvidenceSnapshotSchema evidence)

include h

/-- Each source has its entry in the roster. -/
theorem OperationsEvidenceSnapshotSchema.exists_requires (hsource : source ∈ evidence.sources) :
    ∃ requirement, Requires evidence requirement source := by
  obtain ⟨i, hi, rfl⟩ := List.mem_iff_getElem.mp hsource
  have hlength := congrArg List.length h.directory
  rw [OperationsEvidenceSnapshot.sourceIds, SourceRoster.sourceIds, List.length_map,
    List.length_map] at hlength
  have hi' : i < evidence.sourceRoster.entries.length := hlength ▸ hi
  have hids : evidence.sourceIds[i]? = evidence.sourceRoster.sourceIds[i]? := by rw [h.directory]
  simp only [OperationsEvidenceSnapshot.sourceIds, SourceRoster.sourceIds, List.getElem?_map,
    List.getElem?_eq_getElem hi, List.getElem?_eq_getElem hi', Option.map_some,
    Option.some.injEq] at hids
  have hzip : (evidence.sources[i], evidence.sourceRoster.entries[i]) ∈
      evidence.sources.zip evidence.sourceRoster.entries := by
    refine List.mem_iff_getElem.mpr ⟨i, ?_, List.getElem_zip⟩
    rw [List.length_zip]
    exact lt_min hi hi'
  exact ⟨evidence.sourceRoster.entries[i], List.getElem_mem hi', hids.symm,
    h.agrees _ hzip hids.symm⟩

/-- The requirement of a source is found by its identifier. -/
theorem OperationsEvidenceSnapshotSchema.find?_eq (hrequires : Requires evidence requirement source) :
    (evidence.sourceRoster.entries.find? fun entry => entry.sourceId = source.sourceId) =
      some requirement := by
  cases hfind : evidence.sourceRoster.entries.find? fun entry =>
      entry.sourceId = source.sourceId with
  | none =>
    have hnone := List.find?_eq_none.mp hfind requirement hrequires.mem
    exact absurd (decide_eq_true hrequires.sourceId) hnone
  | some entry =>
    have hfound := List.find?_some hfind
    have hid : entry.sourceId = source.sourceId := of_decide_eq_true hfound
    exact congrArg some (List.inj_on_of_nodup_map h.sourceRoster.sorted.1
      (List.mem_of_find?_eq_some hfind) hrequires.mem (hid.trans hrequires.sourceId.symm))

/-- The sources of an accepted snapshot are in the order of their identifiers. -/
theorem OperationsEvidenceSnapshotSchema.sortBy_sources :
    sortBy (Sorting.on (fun source => source.sourceId) compareText) evidence.sources =
      evidence.sources := by
  have hsorted := pairwise_sortBy compareText evidence.sourceRoster.sourceIds
  rw [h.sourceRoster.sorted.2, ← h.directory] at hsorted
  exact sortBy_of_pairwise (List.pairwise_map.mp hsorted)

end

/-- The assessments of a source. -/
def assessmentsOf (roster : SourceRoster) (source : SourceOperationalMetrics) : List Assessment :=
  ((roster.entries.find? fun entry => entry.sourceId = source.sourceId).map fun requirement =>
    sourceKeys.map fun key =>
      assessed key (some source.sourceId) (sourceOutcome requirement source key)).getD []

theorem assessmentsOf_eq (h : OperationsEvidenceSnapshotSchema evidence)
    (hrequires : Requires evidence requirement source) :
    assessmentsOf evidence.sourceRoster source = sourceKeys.map fun key =>
      assessed key (some source.sourceId) (sourceOutcome requirement source key) := by
  rw [assessmentsOf, h.find?_eq hrequires]
  rfl

theorem sourceAssessments_eq (h : OperationsEvidenceSnapshotSchema evidence)
    (hsource : source ∈ evidence.sources) :
    sourceAssessments evidence.sourceRoster source =
      some (assessmentsOf evidence.sourceRoster source) := by
  obtain ⟨requirement, hrequires⟩ := h.exists_requires hsource
  rw [sourceAssessments, h.find?_eq hrequires, assessmentsOf_eq h hrequires, Option.bind_some,
    sourceOutcomes_eq, List.mapM_map]
  refine (Choices.mapM_eq_some_map_iff (P := fun _ => True) fun key hkey b => ?_).mpr
    ⟨rfl, fun _ _ => trivial⟩
  have hid : ∀ id ∈ some source.sourceId, SourceIdentifier id := by
    rintro id ⟨⟩
    exact (h.sources source hsource).sourceId
  rw [Function.comp_apply, assessment_eq _ (iff_of_true ((needsSource_iff key).mpr hkey)
    (Option.some_ne_none _)) hid, Option.some.injEq, and_true, eq_comm]

end Accepted

/-! ### The evaluation -/

/-- The assessments of a snapshot, as they are made. -/
def allAssessments (evidence : OperationsEvidenceSnapshot)
    (supplied : SuppliedOperationalStatuses) : List Assessment :=
  (globalKeys.map fun key => assessed key none (suppliedOutcome supplied key)) ++
    evidence.sources.flatMap (assessmentsOf evidence.sourceRoster)

/-- What a snapshot is evaluated to. -/
def evaluationOf (evidence : OperationsEvidenceSnapshot) (supplied : SuppliedOperationalStatuses) :
    OperationalAlertEvaluation where
  assessments := sortBy compareAssessments (allAssessments evidence supplied)
  evaluatedAt := evidence.observedAt
  sourceRoster := evidence.sourceRoster

section Evaluation

variable {evidence : OperationsEvidenceSnapshot} {supplied : SuppliedOperationalStatuses}

/-- The order of assessments is the order of their identities. -/
theorem compareText_identity (a b : Assessment) :
    compareText a.identity b.identity = compareAssessments a b :=
  compareText_append_zero (AlertLedger.zero_notMem_text _) (AlertLedger.zero_notMem_text _)

section

variable (h : OperationsEvidenceSnapshotSchema evidence)

include h

/-- The assessments are those of the components and, of each source, those that it requires. -/
theorem mem_allAssessments {a : Assessment} :
    a ∈ allAssessments evidence supplied ↔
      (∃ key ∈ globalKeys, a = assessed key none (suppliedOutcome supplied key)) ∨
        ∃ source ∈ evidence.sources, ∃ requirement, Requires evidence requirement source ∧
          ∃ key ∈ sourceKeys,
            a = assessed key (some source.sourceId) (sourceOutcome requirement source key) := by
  rw [allAssessments, List.mem_append, List.mem_map, List.mem_flatMap]
  refine or_congr (by simp only [eq_comm]) (exists_congr fun source => and_congr_right
    fun hsource => ?_)
  obtain ⟨requirement, hrequires⟩ := h.exists_requires hsource
  rw [assessmentsOf_eq h hrequires, List.mem_map]
  constructor
  · rintro ⟨key, hkey, rfl⟩
    exact ⟨requirement, hrequires, key, hkey, rfl⟩
  · rintro ⟨requirement', hrequires', key, hkey, rfl⟩
    have heq := Option.some.inj ((h.find?_eq hrequires).symm.trans (h.find?_eq hrequires'))
    exact ⟨key, hkey, by rw [heq]⟩

/-- **The assessments are those of the alerts of the roster.** -/
theorem alertOf_allAssessments :
    (allAssessments evidence supplied).map alertOf = matrix evidence.sourceRoster := by
  rw [allAssessments, matrix, ← h.directory, OperationsEvidenceSnapshot.sourceIds, List.map_append,
    List.map_map, List.map_flatMap, List.flatMap_map]
  refine congrArg _ (List.flatMap_congr fun source hsource => ?_)
  obtain ⟨requirement, hrequires⟩ := h.exists_requires hsource
  rw [assessmentsOf_eq h hrequires, List.map_map]
  rfl

theorem assessmentSchema_of_mem {a : Assessment}
    (ha : a ∈ allAssessments evidence supplied) : AssessmentSchema a := by
  have hscope := needsSource_of_mem (alertOf_allAssessments h ▸ List.mem_map_of_mem ha)
  rcases (mem_allAssessments h).mp ha with ⟨key, -, rfl⟩ | ⟨source, hsource, _, -, key, -, rfl⟩
  · exact assessmentSchema_assessed _ hscope fun id hid => by cases hid
  · refine assessmentSchema_assessed _ hscope ?_
    rintro id ⟨⟩
    exact (h.sources source hsource).sourceId

theorem identity_allAssessments :
    (allAssessments evidence supplied).map Assessment.identity =
      evidence.sourceRoster.identities := by
  rw [identities_eq, ← alertOf_allAssessments h, List.map_map]
  rfl

theorem nodup_identities :
    ((allAssessments evidence supplied).map Assessment.identity).Nodup := by
  have hnodup : ((allAssessments evidence supplied).map alertOf).Nodup := by
    rw [alertOf_allAssessments h]
    exact nodup_matrix h.sourceRoster.sorted.1
  refine List.Nodup.map_on (fun a ha b hb hab => ?_) hnodup.of_map
  have hb' := assessmentSchema_of_mem h hb
  obtain ⟨hkey, hsource⟩ := ((assessmentSchema_of_mem h ha).identity_eq_iff hb'.scope).mp hab
  exact List.inj_on_of_nodup_map hnodup ha hb (Prod.ext hkey hsource)

/-- **The matrix of a snapshot is one of the contract.** -/
theorem evaluationSchema_of_snapshot :
    EvaluationSchema (evaluationOf evidence supplied) where
  assessments a ha := assessmentSchema_of_mem h (mem_sortBy.mp ha)
  bound := by
    have hidentities : (allAssessments evidence supplied).map Assessment.identity = _ :=
      identity_allAssessments h
    have hlength := congrArg List.length hidentities
    have hids : evidence.sourceRoster.sourceIds.length ≤ 100 :=
      (List.length_map _).trans_le h.sourceRoster.bound.2
    rw [List.length_map, length_identities] at hlength
    rw [evaluationOf, length_sortBy, hlength]
    omega
  evaluatedAt := h.observedAt
  sourceRoster := h.sourceRoster
  unique := (((sortBy_perm _ _).map _).nodup_iff).mpr (nodup_identities h)
  matrix := by
    refine sortBy_eq_of_perm ?_ fun a _ b _ hab => compareText_eq_iff.mp hab
    exact ((sortBy_perm _ _).map _).trans (identity_allAssessments h ▸ .refl _)
  sorted := by
    refine ((List.isChain_map _).mpr (List.Pairwise.isChain ?_))
    refine (pairwise_sortBy compareAssessments (allAssessments evidence supplied)).imp ?_
    intro a b hle
    rw [compareText_identity]
    intro hgt
    rw [hgt] at hle
    cases hle

/-- **What the evaluation is.** -/
theorem evaluate_eq (hmore : evidence.hasMoreSources = false) :
    evaluateOperationalAlertsV1 evidence supplied = some (evaluationOf evidence supplied) := by
  have hglobal : ((suppliedOutcomes supplied).mapM fun entry => assessment entry.1 none entry.2) =
      some (globalKeys.map fun key => assessed key none (suppliedOutcome supplied key)) := by
    rw [suppliedOutcomes_eq, List.mapM_map]
    refine (Choices.mapM_eq_some_map_iff (P := fun _ => True) fun key hkey b => ?_).mpr
      ⟨rfl, fun _ _ => trivial⟩
    have hscope : key.NeedsSource ↔ (none : Option JsString) ≠ none := by
      rw [needsSource_iff, mem_sourceKeys_iff]
      exact iff_of_false (fun hnot => hnot hkey) fun hne => hne rfl
    rw [Function.comp_apply, assessment_eq _ hscope fun id hid => (by cases hid),
      Option.some.injEq, and_true, eq_comm]
  have hsources : evidence.sources.mapM (sourceAssessments evidence.sourceRoster) =
      some (evidence.sources.map (assessmentsOf evidence.sourceRoster)) := by
    refine (Choices.mapM_eq_some_map_iff (P := fun _ => True) fun source hsource b => ?_).mpr
      ⟨rfl, fun _ _ => trivial⟩
    rw [sourceAssessments_eq h hsource, Option.some.injEq, and_true, eq_comm]
  rw [evaluateOperationalAlertsV1, if_neg (not_not.mpr h), if_neg (by simp [hmore]), hglobal,
    Option.bind_some, h.sortBy_sources, hsources, Option.bind_some, ← List.flatMap_def]
  exact if_pos (evaluationSchema_of_snapshot h)

/-- **Each alert of the roster is assessed once**, in the canonical order. -/
theorem assessesOnce_evaluationOf :
    AssessesOnce evidence (evaluationOf evidence supplied) where
  sourceRoster := rfl
  evaluatedAt := rfl
  alerts := ((sortBy_perm _ _).map _).trans (alertOf_allAssessments h ▸ .refl _)
  unique := by
    refine (((sortBy_perm _ _).map _).nodup_iff).mpr ?_
    rw [alertOf_allAssessments h]
    exact nodup_matrix h.sourceRoster.sorted.1
  sorted := by
    have hschema : EvaluationSchema (evaluationOf evidence supplied) :=
      evaluationSchema_of_snapshot h
    refine ((pairwise_sortBy compareAssessments _).and (List.pairwise_map.mp hschema.unique)).imp ?_
    rintro a b ⟨hle, hne⟩
    rw [← compareText_identity] at hle ⊢
    cases hcompare : compareText a.identity b.identity with
    | lt => rfl
    | eq => exact absurd (compareText_eq_iff.mp hcompare) hne
    | gt =>
      rw [hcompare] at hle
      cases hle
  stated a ha := by
    rcases (mem_allAssessments h).mp (mem_sortBy.mp ha) with
      ⟨key, -, rfl⟩ | ⟨source, -, _, -, key, -, rfl⟩
    · rfl
    · rfl

end

/-- An evaluation is of an accepted snapshot that is not truncated. -/
theorem evaluate_eq_some {evaluation : OperationalAlertEvaluation}
    (heval : evaluateOperationalAlertsV1 evidence supplied = some evaluation) :
    OperationsEvidenceSnapshotSchema evidence ∧ evaluation = evaluationOf evidence supplied := by
  by_cases h : OperationsEvidenceSnapshotSchema evidence
  · by_cases hmore : evidence.hasMoreSources = true
    · rw [evaluateOperationalAlertsV1, if_neg (not_not.mpr h), if_pos hmore] at heval
      cases heval
    · rw [evaluate_eq h (Bool.eq_false_of_not_eq_true hmore)] at heval
      exact ⟨h, (Option.some.inj heval).symm⟩
  · rw [evaluateOperationalAlertsV1, if_pos h] at heval
    cases heval

end Evaluation

/-! ### When an assessment is `ok` -/

/-- A component is supplied as good. -/
def ComponentIsGood (supplied : SuppliedOperationalStatuses) : AlertKey → Prop
  | .apiCoordinatorOutage => supplied.apiCoordinator = .healthy
  | .apiErrorRate => supplied.apiErrorRate = .normal
  | .apiLatency => supplied.apiLatency = .withinTarget
  | .apiSaturation => supplied.apiSaturation = .normal
  | .backupStatus => supplied.backup = .current
  | .certificateStatus => supplied.certificate = .valid
  | .databaseSaturation => supplied.databaseSaturation = .normal
  | .diskStatus => supplied.disk = .healthy
  | _ => False

/-- What is known of a source is there and within its limits. -/
def SourceIsGood (observedAt : ℤ) (requirement : RosterEntry) (source : SourceOperationalMetrics) :
    AlertKey → Prop
  | .offerExpired => source.offers.expiredButPublished.value = 0
  | .offerExpiring => source.offers.expiringWithin48h.value = 0
  | .reviewQueueAge => source.reviewQueue.count.capped = false ∧
      (source.reviewQueue.count.value = 0 ∨
        ∃ age ∈ source.reviewQueue.oldestAgeSeconds, age ≤ reviewAgeTargetSeconds)
  | .sourceFreshness => source.governanceState = .approvedCurrent ∧
      ∀ kind ∈ requirement.requiredEvidenceSignals,
        ∃ t ∈ (source.evidenceSignals kind).newestEligibleAt,
          observedAt - t ≤ freshnessTargetSeconds * 1000
  | .sourceSilentZeroPublication => ∃ extraction ∈ source.latestExtraction,
      extraction.state = .completed ∧ (extraction.emptyResult = .confirmedEmpty ∨
        extraction.emptyResult = .notEmpty ∧ 0 < extraction.eligiblePublishedOfferCount.value ∧
          extraction.eligiblePublishedOfferCount.capped = false)
  | .workerLag => (∀ kind ∈ requirement.requiredWorkerJobKinds,
        (source.workerJobs kind).state = .completed ∧
          ∃ t ∈ (source.workerJobs kind).terminalizedAt,
            observedAt - t ≤ workerLagTargetSeconds * 1000) ∧
      ∀ health ∈ source.health, health.workerJobKind ∈ requirement.requiredWorkerJobKinds →
        health.state = .healthy
  | _ => False

/-- The evidence of an alert is there and within its limits. -/
def IsGood (evidence : OperationsEvidenceSnapshot) (supplied : SuppliedOperationalStatuses)
    (key : AlertKey) : Option JsString → Prop
  | none => ComponentIsGood supplied key
  | some sourceId => ∃ source ∈ evidence.sources, ∃ requirement ∈ evidence.sourceRoster.entries,
      source.sourceId = sourceId ∧ requirement.sourceId = sourceId ∧
        SourceIsGood evidence.observedAt requirement source key

theorem simpleOutcome_eq_ok_iff {α : Type} [DecidableEq α] {value : α}
    {ok warning critical : List α} :
    simpleOutcome value ok warning critical = .ok ↔ value ∈ ok := by
  unfold simpleOutcome
  split_ifs <;> simp_all

/-- **A component is `ok` exactly when it is supplied as good.** -/
theorem suppliedOutcome_eq_ok_iff {supplied : SuppliedOperationalStatuses} {key : AlertKey}
    (hkey : key ∈ globalKeys) :
    suppliedOutcome supplied key = .ok ↔ ComponentIsGood supplied key := by
  cases key
  case apiCoordinatorOutage | apiErrorRate | apiLatency | apiSaturation | backupStatus |
      certificateStatus | databaseSaturation | diskStatus =>
    exact simpleOutcome_eq_ok_iff.trans List.mem_singleton
  all_goals exact absurd hkey (by decide)

section Source

variable {requirement : RosterEntry} {source : SourceOperationalMetrics} {observedAt : ℤ}

/-- A source is fresh exactly when each required signal is. -/
theorem requiredFreshness_eq_fresh_iff : requiredFreshness requirement source = .fresh ↔
    ∀ kind ∈ requirement.requiredEvidenceSignals,
      (source.evidenceSignals kind).freshness = .fresh := by
  unfold requiredFreshness
  simp only [List.mem_map]
  constructor
  · intro h kind hkind
    split_ifs at h with hstale hunknown
    cases hfreshness : (source.evidenceSignals kind).freshness with
    | fresh => rfl
    | stale => exact absurd ⟨kind, hkind, hfreshness⟩ hstale
    | unknown => exact absurd ⟨kind, hkind, hfreshness⟩ hunknown
  · intro h
    rw [if_neg, if_neg]
    · rintro ⟨kind, hkind, hunknown⟩
      rw [h kind hkind] at hunknown
      cases hunknown
    · rintro ⟨kind, hkind, hstale⟩
      rw [h kind hkind] at hstale
      cases hstale

/-- It is stale exactly when a required signal is. -/
theorem requiredFreshness_eq_stale_iff : requiredFreshness requirement source = .stale ↔
    ∃ kind ∈ requirement.requiredEvidenceSignals,
      (source.evidenceSignals kind).freshness = .stale := by
  unfold requiredFreshness
  simp only [List.mem_map]
  split_ifs with hstale hunknown
  · exact iff_of_true rfl hstale
  · exact iff_of_false (by simp) hstale
  · exact iff_of_false (by simp) hstale

/-- Its jobs are within their target exactly when each required job is. -/
theorem requiredLag_eq_withinTarget_iff : requiredLag requirement source = .withinTarget ↔
    ∀ kind ∈ requirement.requiredWorkerJobKinds, (source.workerJobs kind).lag = .withinTarget := by
  unfold requiredLag
  simp only [List.mem_map]
  constructor
  · intro h kind hkind
    split_ifs at h with hlate hunknown
    cases hlag : (source.workerJobs kind).lag with
    | withinTarget => rfl
    | late => exact absurd ⟨kind, hkind, hlag⟩ hlate
    | unknown => exact absurd ⟨kind, hkind, hlag⟩ hunknown
  · intro h
    rw [if_neg, if_neg]
    · rintro ⟨kind, hkind, hunknown⟩
      rw [h kind hkind] at hunknown
      cases hunknown
    · rintro ⟨kind, hkind, hlate⟩
      rw [h kind hkind] at hlate
      cases hlate

theorem freshnessFromClock_eq_fresh_iff {value : Option ℤ} :
    freshnessFromClock value observedAt = .fresh ↔
      ∃ t ∈ value, observedAt - t ≤ freshnessTargetSeconds * 1000 := by
  cases value with
  | none => simp [freshnessFromClock]
  | some t =>
    rw [freshnessFromClock, ite_eq_left_iff]
    by_cases hle : observedAt - t ≤ freshnessTargetSeconds * 1000
    · exact iff_of_true (absurd hle) ⟨t, rfl, hle⟩
    · refine iff_of_false (fun h => by cases h hle) ?_
      rintro ⟨_, ⟨⟩, hle'⟩
      exact hle hle'

theorem expectedLag_eq_withinTarget_iff {job : WorkerJobEvidence} :
    expectedLag job observedAt = .withinTarget ↔
      ∃ t ∈ job.terminalizedAt, observedAt - t ≤ workerLagTargetSeconds * 1000 := by
  unfold expectedLag
  cases job.terminalizedAt with
  | none => simp
  | some t =>
    rw [ite_eq_left_iff]
    by_cases hle : observedAt - t ≤ workerLagTargetSeconds * 1000
    · exact iff_of_true (absurd hle) ⟨t, rfl, hle⟩
    · refine iff_of_false (fun h => by cases h hle) ?_
      rintro ⟨_, ⟨⟩, hle'⟩
      exact hle hle'

theorem freshnessOutcome_eq_ok_iff : freshnessOutcome source = .ok ↔
    source.governanceState = .approvedCurrent ∧ source.derived.sourceFreshness = .fresh := by
  unfold freshnessOutcome
  cases source.governanceState <;> cases source.derived.sourceFreshness <;> decide

theorem silentZeroOutcome_eq_ok_iff : silentZeroOutcome source = .ok ↔
    source.derived.silentZeroPublication = .clear ∨
      source.derived.silentZeroPublication = .confirmedEmpty := by
  unfold silentZeroOutcome
  cases source.derived.silentZeroPublication <;> decide

/-- When the lag of the jobs of a source is `ok`. -/
theorem lagOutcome_eq_ok_iff : lagOutcome requirement source = .ok ↔
    (∀ kind ∈ requirement.requiredWorkerJobKinds, (source.workerJobs kind).state = .completed) ∧
      (∀ health ∈ requiredHealth requirement source, health.state = .healthy) ∧
      source.derived.workerLag = .withinTarget := by
  unfold lagOutcome
  simp only [List.mem_map]
  constructor
  · intro h
    split_ifs at h with hcritical hwarning hlate hunknown hwithin
    refine ⟨fun kind hkind => ?_, fun health hhealth => ?_, hwithin⟩
    · cases hstate : (source.workerJobs kind).state with
      | completed => rfl
      | degraded => exact absurd (.inr ⟨.degraded, List.mem_map.mpr ⟨kind, hkind, hstate⟩,
          by decide⟩) hwarning
      | failed => exact absurd (.inr ⟨kind, hkind, hstate⟩) hcritical
      | cancelled => exact absurd (.inr ⟨.cancelled, List.mem_map.mpr ⟨kind, hkind, hstate⟩,
          by decide⟩) hwarning
      | unknown => exact absurd ⟨kind, hkind, hstate⟩ hunknown
    · cases hstate : health.state with
      | healthy => rfl
      | degraded => exact absurd (.inl ⟨health, hhealth, by rw [hstate]; decide⟩) hwarning
      | failed => exact absurd (.inl ⟨health, hhealth, hstate⟩) hcritical
      | disabled => exact absurd (.inl ⟨health, hhealth, by rw [hstate]; decide⟩) hwarning
  · rintro ⟨hstates, hhealth, hwithin⟩
    rw [if_neg, if_neg, if_neg, if_neg, if_pos hwithin]
    · rintro ⟨kind, hkind, hunknown⟩
      rw [hstates kind hkind] at hunknown
      cases hunknown
    · rw [hwithin]
      decide
    · rintro (⟨health, hmem, hstate⟩ | ⟨state, hmem, hstate⟩)
      · rw [hhealth health hmem] at hstate
        exact absurd hstate (by decide)
      · obtain ⟨kind, hkind, rfl⟩ := List.mem_map.mp hmem
        rw [hstates kind hkind] at hstate
        exact absurd hstate (by decide)
    · rintro (⟨health, hmem, hstate⟩ | ⟨kind, hkind, hstate⟩)
      · rw [hhealth health hmem] at hstate
        cases hstate
      · rw [hstates kind hkind] at hstate
        cases hstate

theorem mem_requiredHealth {health : RuntimeHealth} : health ∈ requiredHealth requirement source ↔
    health ∈ source.health ∧ health.workerJobKind ∈ requirement.requiredWorkerJobKinds := by
  simp [requiredHealth]

/-- What the latest extraction of an accepted source says is good. -/
theorem extractionState_iff
    (h : ∀ extraction ∈ source.latestExtraction, LatestExtractionSchema extraction) :
    extractionState source.latestExtraction = .clear ∨
        extractionState source.latestExtraction = .confirmedEmpty ↔
      SourceIsGood observedAt requirement source .sourceSilentZeroPublication := by
  unfold SourceIsGood
  cases hextraction : source.latestExtraction with
  | none => simp [extractionState]
  | some extraction =>
    have hagrees := (h extraction hextraction).agrees.2
    simp only [extractionState, Option.mem_def, Option.some.injEq, exists_eq_left']
    cases hempty : extraction.emptyResult with
    | notEmpty =>
      by_cases hclear : extraction.state = .completed ∧
          0 < extraction.eligiblePublishedOfferCount.value ∧
          extraction.eligiblePublishedOfferCount.capped = false
      · simp [hclear]
      · simp only [reduceCtorEq, if_false, if_neg hclear, or_self, false_or, true_and, false_iff]
        exact hclear
    | confirmedEmpty =>
      rw [hempty] at hagrees
      simp_all
    | unexpectedEmpty => simp

/-- **A source is `ok` exactly when what is known of it is good.** -/
theorem sourceOutcome_eq_ok_iff (hschema : SourceOperationalMetricsSchema source)
    (hkinds : ∀ kind ∈ requirement.requiredWorkerJobKinds, kind ∈ operationalWorkerJobKinds)
    (h : SourceAgrees observedAt requirement source) {key : AlertKey} (hkey : key ∈ sourceKeys) :
    sourceOutcome requirement source key = .ok ↔
      SourceIsGood observedAt requirement source key := by
  cases key
  case offerExpired =>
    by_cases hpos : 0 < source.offers.expiredButPublished.value
    · simp [sourceOutcome, SourceIsGood, hpos, hpos.ne']
    · simp [sourceOutcome, SourceIsGood, Nat.eq_zero_of_not_pos hpos]
  case offerExpiring =>
    by_cases hpos : 0 < source.offers.expiringWithin48h.value
    · simp [sourceOutcome, SourceIsGood, hpos, hpos.ne']
    · simp [sourceOutcome, SourceIsGood, Nat.eq_zero_of_not_pos hpos]
  case reviewQueueAge =>
    have hqueue := h.queue
    simp only [sourceOutcome, SourceIsGood, ite_eq_right_iff, reduceCtorEq, imp_false, not_or,
      Bool.not_eq_true, not_lt, hqueue]
    refine and_congr_right fun _ => ?_
    cases source.reviewQueue.oldestAgeSeconds <;> simp
  case sourceFreshness =>
    have hderived : source.derived.sourceFreshness = requiredFreshness requirement source :=
      congrArg DerivedStates.sourceFreshness h.derived
    refine freshnessOutcome_eq_ok_iff.trans (and_congr_right fun _ => ?_)
    rw [hderived, requiredFreshness_eq_fresh_iff]
    refine forall₂_congr fun kind _ => ?_
    rw [h.freshness kind (by cases kind <;> decide), freshnessFromClock_eq_fresh_iff]
  case sourceSilentZeroPublication =>
    have hderived :
        source.derived.silentZeroPublication = extractionState source.latestExtraction :=
      congrArg DerivedStates.silentZeroPublication h.derived
    refine silentZeroOutcome_eq_ok_iff.trans ?_
    rw [hderived]
    exact extractionState_iff hschema.extraction
  case workerLag =>
    have hderived : source.derived.workerLag = requiredLag requirement source :=
      congrArg DerivedStates.workerLag h.derived
    refine lagOutcome_eq_ok_iff.trans ?_
    rw [hderived, requiredLag_eq_withinTarget_iff]
    have hlag : ∀ kind ∈ requirement.requiredWorkerJobKinds,
        ((source.workerJobs kind).lag = .withinTarget ↔
          ∃ t ∈ (source.workerJobs kind).terminalizedAt,
            observedAt - t ≤ workerLagTargetSeconds * 1000) := by
      intro kind hkind
      rw [h.lag kind (hkinds kind hkind), expectedLag_eq_withinTarget_iff]
    constructor
    · rintro ⟨hstates, hhealth, hwithin⟩
      exact ⟨fun kind hkind => ⟨hstates kind hkind, (hlag kind hkind).mp (hwithin kind hkind)⟩,
        fun health hmem hkind => hhealth health (mem_requiredHealth.mpr ⟨hmem, hkind⟩)⟩
    · rintro ⟨hjobs, hhealth⟩
      refine ⟨fun kind hkind => (hjobs kind hkind).1, fun health hmem => ?_, fun kind hkind =>
        (hlag kind hkind).mpr (hjobs kind hkind).2⟩
      exact hhealth health (mem_requiredHealth.mp hmem).1 (mem_requiredHealth.mp hmem).2
  all_goals exact absurd hkey (by decide)

end Source

section Good

variable {evidence : OperationsEvidenceSnapshot} {supplied : SuppliedOperationalStatuses}

theorem OperationsEvidenceSnapshotSchema.sourceOutcome_iff
    (h : OperationsEvidenceSnapshotSchema evidence) {source : SourceOperationalMetrics}
    (hsource : source ∈ evidence.sources) {requirement : RosterEntry}
    (hrequires : Requires evidence requirement source) {key : AlertKey} (hkey : key ∈ sourceKeys) :
    sourceOutcome requirement source key = .ok ↔
      SourceIsGood evidence.observedAt requirement source key :=
  sourceOutcome_eq_ok_iff (h.sources source hsource)
    (h.sourceRoster.entries requirement hrequires.mem).kinds hrequires.agrees hkey

/-- **An assessment is `ok` exactly when its evidence is there and within its limits.** -/
theorem outcome_eq_ok_iff (h : OperationsEvidenceSnapshotSchema evidence) {a : Assessment}
    (ha : a ∈ (evaluationOf evidence supplied).assessments) :
    a.outcome = .ok ↔ IsGood evidence supplied a.alertKey a.sourceId := by
  rcases (mem_allAssessments h).mp (mem_sortBy.mp ha) with
    ⟨key, hkey, rfl⟩ | ⟨source, hsource, requirement, hrequires, key, hkey, rfl⟩
  · exact suppliedOutcome_eq_ok_iff hkey
  · refine (h.sourceOutcome_iff hsource hrequires hkey).trans ⟨fun hgood => ?_, ?_⟩
    · exact ⟨source, hsource, requirement, hrequires.mem, rfl, hrequires.sourceId, hgood⟩
    · rintro ⟨source', hsource', requirement', hmem', hid, hid', hgood⟩
      obtain rfl := List.inj_on_of_nodup_map h.unique hsource' hsource hid
      obtain rfl := List.inj_on_of_nodup_map h.sourceRoster.sorted.1 hmem' hrequires.mem
        (hid'.trans hrequires.sourceId.symm)
      exact hgood

end Good

/-! ### Older evidence -/

/-- How severe an alert is. -/
def rank : AlertSeverity → ℕ
  | .info => 0
  | .warning => 1
  | .critical => 2

/-- The evidence of a clock is as old or older: both clocks are missing, or both are there. -/
def ClockIsOlder (observedAt observedAt' : ℤ) : Option ℤ → Option ℤ → Prop :=
  Option.Rel fun t t' => observedAt - t ≤ observedAt' - t'

/-- Health that differs by the age of its clocks. -/
structure HealthIsOlder (observedAt observedAt' : ℤ) (health health' : RuntimeHealth) : Prop where
  captureSuccess : ClockIsOlder observedAt observedAt' health.lastCaptureSuccessAt
    health'.lastCaptureSuccessAt
  discoverySuccess : ClockIsOlder observedAt observedAt' health.lastDiscoverySuccessAt
    health'.lastDiscoverySuccessAt
  eligibleEvidence : ClockIsOlder observedAt observedAt' health.lastEligibleEvidenceAt
    health'.lastEligibleEvidenceAt
  publishSuccess : ClockIsOlder observedAt observedAt' health.lastPublishSuccessAt
    health'.lastPublishSuccessAt
  persistedAt : observedAt - health.persistedAt ≤ observedAt' - health'.persistedAt
  recordedAt : observedAt - health.recordedAt ≤ observedAt' - health'.recordedAt
  state : health.state = health'.state
  workerJobKind : health.workerJobKind = health'.workerJobKind

/-- An extraction that differs by its age. -/
structure ExtractionIsOlder (observedAt observedAt' : ℤ)
    (extraction extraction' : LatestExtraction) : Prop where
  candidateCount : extraction.candidateCount = extraction'.candidateCount
  completedAt : observedAt - extraction.completedAt ≤ observedAt' - extraction'.completedAt
  emptyResult : extraction.emptyResult = extraction'.emptyResult
  eligible : extraction.eligiblePublishedOfferCount = extraction'.eligiblePublishedOfferCount
  state : extraction.state = extraction'.state

/-- A source that differs by the age of its evidence, and by what follows from it. -/
structure SourceIsOlder (observedAt observedAt' : ℤ) (source source' : SourceOperationalMetrics) :
    Prop where
  counts24h : source.counts24h = source'.counts24h
  signals : ∀ kind, ClockIsOlder observedAt observedAt'
    (source.evidenceSignals kind).newestEligibleAt (source'.evidenceSignals kind).newestEligibleAt
  governanceState : source.governanceState = source'.governanceState
  health : Option.Rel (HealthIsOlder observedAt observedAt') source.health source'.health
  extraction : Option.Rel (ExtractionIsOlder observedAt observedAt') source.latestExtraction
    source'.latestExtraction
  offers : source.offers = source'.offers
  queueCount : source.reviewQueue.count = source'.reviewQueue.count
  queueAge : Option.Rel (· ≤ ·) source.reviewQueue.oldestAgeSeconds
    source'.reviewQueue.oldestAgeSeconds
  sourceId : source.sourceId = source'.sourceId
  jobState : ∀ kind, (source.workerJobs kind).state = (source'.workerJobs kind).state
  jobCompleted : ∀ kind, ClockIsOlder observedAt observedAt' (source.workerJobs kind).completedAt
    (source'.workerJobs kind).completedAt
  jobTerminalized : ∀ kind, ClockIsOlder observedAt observedAt'
    (source.workerJobs kind).terminalizedAt (source'.workerJobs kind).terminalizedAt

/-- **Two snapshots that differ by the age of their evidence**: the second one is as old or
older. -/
structure EvidenceIsOlder (evidence evidence' : OperationsEvidenceSnapshot) : Prop where
  sourceRoster : evidence.sourceRoster = evidence'.sourceRoster
  sources : List.Forall₂ (SourceIsOlder evidence.observedAt evidence'.observedAt) evidence.sources
    evidence'.sources

/-- What is young enough in the older evidence is young enough in the newer. -/
theorem ClockIsOlder.exists_le {observedAt observedAt' limit : ℤ} {clock clock' : Option ℤ}
    (h : ClockIsOlder observedAt observedAt' clock clock')
    (hle : ∃ t ∈ clock', observedAt' - t ≤ limit) : ∃ t ∈ clock, observedAt - t ≤ limit := by
  obtain ⟨t', ht', hle⟩ := hle
  obtain ⟨t, ht, hage⟩ := h.exists_left ht'
  exact ⟨t, ht, hage.trans hle⟩

/-- Severities ascend when what is critical stays critical, and what becomes `ok` was `ok`. -/
theorem rank_severityOf_le {outcome outcome' : AlertOutcome}
    (hcritical : outcome = .critical → outcome' = .critical)
    (hok : outcome' = .ok → outcome = .ok) :
    rank (severityOf outcome) ≤ rank (severityOf outcome') := by
  cases outcome with
  | ok => exact Nat.zero_le _
  | critical =>
    rw [hcritical rfl]
  | warning | unknown =>
    cases outcome' with
    | ok => cases hok rfl
    | warning | unknown | critical => decide

section Older

variable {requirement : RosterEntry} {source source' : SourceOperationalMetrics}
  {observedAt observedAt' : ℤ} {key : AlertKey}

section

variable (h : SourceIsOlder observedAt observedAt' source source')

include h

/-- What is good with the older evidence is good with the newer. -/
theorem SourceIsOlder.isGood (hgood : SourceIsGood observedAt' requirement source' key) :
    SourceIsGood observedAt requirement source key := by
  cases key
  case offerExpired =>
    show source.offers.expiredButPublished.value = 0
    rw [h.offers]
    exact hgood
  case offerExpiring =>
    show source.offers.expiringWithin48h.value = 0
    rw [h.offers]
    exact hgood
  case reviewQueueAge =>
    obtain ⟨hcapped, hage⟩ := hgood
    refine ⟨(congrArg BoundedOperationalCount.capped h.queueCount).trans hcapped, hage.imp ?_ ?_⟩
    · exact (congrArg BoundedOperationalCount.value h.queueCount).trans
    · rintro ⟨age', hage', hle⟩
      obtain ⟨age, hage, hages⟩ := h.queueAge.exists_left hage'
      exact ⟨age, hage, le_trans hages hle⟩
  case sourceFreshness =>
    exact ⟨h.governanceState.trans hgood.1, fun kind hkind =>
      (h.signals kind).exists_le (hgood.2 kind hkind)⟩
  case sourceSilentZeroPublication =>
    obtain ⟨extraction', hmem', hstate, hempty⟩ := hgood
    obtain ⟨extraction, hmem, holder⟩ := h.extraction.exists_left hmem'
    refine ⟨extraction, hmem, holder.state.trans hstate, ?_⟩
    rw [holder.emptyResult, holder.eligible]
    exact hempty
  case workerLag =>
    refine ⟨fun kind hkind => ?_, fun health hhealth hkind => ?_⟩
    · exact ⟨(h.jobState kind).trans (hgood.1 kind hkind).1,
        (h.jobTerminalized kind).exists_le (hgood.1 kind hkind).2⟩
    · obtain ⟨health', hhealth', holder⟩ := h.health.exists_right hhealth
      exact holder.state.trans (hgood.2 health' hhealth' (holder.workerJobKind ▸ hkind))
  all_goals exact hgood

/-- What is stale with the newer evidence is stale with the older. -/
theorem SourceIsOlder.requiredFreshness (hagrees : SourceAgrees observedAt requirement source)
    (hagrees' : SourceAgrees observedAt' requirement source')
    (hstale : requiredFreshness requirement source = .stale) :
    requiredFreshness requirement source' = .stale := by
  obtain ⟨kind, hkind, hfreshness⟩ := requiredFreshness_eq_stale_iff.mp hstale
  refine requiredFreshness_eq_stale_iff.mpr ⟨kind, hkind, ?_⟩
  have hmem : kind ∈ evidenceSignalKinds := by cases kind <;> decide
  rw [hagrees.freshness kind hmem] at hfreshness
  rw [hagrees'.freshness kind hmem]
  have hclock := h.signals kind
  cases ht : (source.evidenceSignals kind).newestEligibleAt with
  | none =>
    rw [ht] at hfreshness
    cases hfreshness
  | some t =>
    obtain ⟨t', ht', hage⟩ := hclock.exists_right ht
    rw [ht, freshnessFromClock, ite_eq_right_iff] at hfreshness
    have hlt : ¬ observedAt - t ≤ freshnessTargetSeconds * 1000 := fun hle => by
      cases hfreshness hle
    rw [Option.mem_def.mp ht', freshnessFromClock, if_neg fun hle => hlt (hage.trans hle)]

/-- What is critical with the newer evidence is critical with the older. -/
theorem SourceIsOlder.critical (hagrees : SourceAgrees observedAt requirement source)
    (hagrees' : SourceAgrees observedAt' requirement source')
    (hcritical : sourceOutcome requirement source key = .critical) :
    sourceOutcome requirement source' key = .critical := by
  cases key
  case offerExpired =>
    have hoffers := h.offers
    simp only [sourceOutcome] at hcritical ⊢
    rwa [hoffers] at hcritical
  case offerExpiring =>
    simp only [sourceOutcome] at hcritical
    split_ifs at hcritical
  case reviewQueueAge =>
    simp only [sourceOutcome] at hcritical
    split_ifs at hcritical
  case sourceFreshness =>
    have hderived : source.derived.sourceFreshness =
        OperationalAlerts.requiredFreshness requirement source :=
      congrArg DerivedStates.sourceFreshness hagrees.derived
    have hderived' : source'.derived.sourceFreshness =
        OperationalAlerts.requiredFreshness requirement source' :=
      congrArg DerivedStates.sourceFreshness hagrees'.derived
    have hstale := h.requiredFreshness hagrees hagrees'
    simp only [sourceOutcome, freshnessOutcome, hderived, hderived', ← h.governanceState]
      at hcritical ⊢
    split_ifs at hcritical with hgovernance hnot hfresh hstale'
    · exact if_pos hgovernance
    · rw [if_neg hgovernance, if_neg hnot, hstale hstale']
      rfl
  case sourceSilentZeroPublication =>
    simp only [sourceOutcome, silentZeroOutcome] at hcritical
    split_ifs at hcritical
  case workerLag =>
    simp only [sourceOutcome, lagOutcome] at hcritical ⊢
    split_ifs at hcritical with hfailed
    refine if_pos (hfailed.imp ?_ fun hstate => ?_)
    · rintro ⟨health, hhealth, hstate⟩
      obtain ⟨hmem, hkind⟩ := mem_requiredHealth.mp hhealth
      obtain ⟨health', hmem', holder⟩ := h.health.exists_right hmem
      exact ⟨health', mem_requiredHealth.mpr ⟨hmem', holder.workerJobKind ▸ hkind⟩,
        holder.state.symm.trans hstate⟩
    · obtain ⟨kind, hkind, hstate⟩ := List.mem_map.mp hstate
      exact List.mem_map.mpr ⟨kind, hkind, (h.jobState kind).symm.trans hstate⟩
  all_goals cases hcritical

end

end Older

/-- **Older evidence is not less severe.** -/
theorem rank_le_of_evidenceIsOlder {evidence evidence' : OperationsEvidenceSnapshot}
    {supplied : SuppliedOperationalStatuses} (h : OperationsEvidenceSnapshotSchema evidence)
    (h' : OperationsEvidenceSnapshotSchema evidence') (holder : EvidenceIsOlder evidence evidence')
    {a a' : Assessment} (ha : a ∈ (evaluationOf evidence supplied).assessments)
    (ha' : a' ∈ (evaluationOf evidence' supplied).assessments) (halert : alertOf a = alertOf a') :
    rank a.severity ≤ rank a'.severity := by
  obtain ⟨hkey, hid⟩ := Prod.mk.inj halert
  rcases (mem_allAssessments h).mp (mem_sortBy.mp ha) with
    ⟨key, -, rfl⟩ | ⟨source, hsource, requirement, hrequires, key, hkey', rfl⟩
  · rcases (mem_allAssessments h').mp (mem_sortBy.mp ha') with
      ⟨key', -, rfl⟩ | ⟨source', -, requirement', -, key', -, rfl⟩
    · have hkey : key = key' := hkey
      rw [hkey]
    · cases hid
  · rcases (mem_allAssessments h').mp (mem_sortBy.mp ha') with
      ⟨key', -, rfl⟩ | ⟨source', hsource', requirement', hrequires', key', -, rfl⟩
    · cases hid
    · have hkey : key = key' := hkey
      subst hkey
      -- The source of the older evidence is the one at the same place.
      obtain ⟨partner, hpartner, hpair⟩ :=
        Choices.exists_mem_of_forall₂ (List.Forall₂.flip holder.sources) hsource
      obtain rfl := List.inj_on_of_nodup_map h'.unique hpartner hsource'
        (hpair.sourceId.symm.trans (Option.some.inj hid))
      have hroster : requirement' ∈ evidence.sourceRoster.entries :=
        holder.sourceRoster ▸ hrequires'.mem
      obtain rfl := List.inj_on_of_nodup_map h.sourceRoster.sorted.1 hroster hrequires.mem
        (hrequires'.sourceId.trans (hpair.sourceId.symm.trans hrequires.sourceId.symm))
      refine rank_severityOf_le (hpair.critical hrequires.agrees hrequires'.agrees) fun hok => ?_
      exact (h.sourceOutcome_iff hsource hrequires hkey').mpr
        (hpair.isGood ((h'.sourceOutcome_iff hsource' hrequires' hkey').mp hok))

/-! ### The three together -/

/-- **The evaluation of operational alerts.** A truncated snapshot is refused. Any other accepted
one is evaluated: each alert of the roster is assessed once, in the canonical order, and it is `ok`
exactly when its evidence is there and within its limits. With older evidence no alert is less
severe.

**Proof sketch.** The sources of an accepted snapshot are those of its roster, in their order, so
each of them has one requirement, and the assessments are those of the matrix of the roster, sorted.
An outcome is `ok` when the states that are derived from the clocks say so, and these are read back
to the clocks. Older evidence leaves what is critical critical, and what is good with it was good
before. -/
theorem evaluateOperationalAlertsV1_spec {evidence : OperationsEvidenceSnapshot}
    (h : OperationsEvidenceSnapshotSchema evidence) (supplied : SuppliedOperationalStatuses) :
    (evidence.hasMoreSources = true → evaluateOperationalAlertsV1 evidence supplied = none) ∧
    (evidence.hasMoreSources = false → ∃ evaluation,
      evaluateOperationalAlertsV1 evidence supplied = some evaluation ∧
        AssessesOnce evidence evaluation ∧
        (∀ a ∈ evaluation.assessments,
          a.outcome = .ok ↔ IsGood evidence supplied a.alertKey a.sourceId) ∧
        ∀ evidence' evaluation', EvidenceIsOlder evidence evidence' →
          evaluateOperationalAlertsV1 evidence' supplied = some evaluation' →
          ∀ a ∈ evaluation.assessments, ∀ a' ∈ evaluation'.assessments, alertOf a = alertOf a' →
            rank a.severity ≤ rank a'.severity) := by
  refine ⟨fun hmore => ?_, fun hmore => ⟨_, evaluate_eq h hmore, assessesOnce_evaluationOf h,
    fun a ha => outcome_eq_ok_iff h ha, ?_⟩⟩
  · rw [evaluateOperationalAlertsV1, if_neg (not_not.mpr h), if_pos hmore]
  · intro evidence' evaluation' holder heval a ha a' ha' halert
    obtain ⟨h', rfl⟩ := evaluate_eq_some heval
    exact rank_le_of_evidenceIsOlder h h' holder ha ha' halert

namespace Example

/-- Nothing is wrong. -/
def healthySupplied : SuppliedOperationalStatuses where
  apiCoordinator := .healthy
  apiErrorRate := .normal
  apiLatency := .withinTarget
  apiSaturation := .normal
  backup := .current
  certificate := .valid
  databaseSaturation := .normal
  disk := .healthy

/-- Noon of 17 July 2026. -/
def noon : ℤ := 1784289600000

/-- A number of things. -/
def count (n : ℕ) : BoundedOperationalCount := ⟨false, n⟩

/-- A source whose prices have been seen an hour ago, without health, with the clock of its latest
extraction. -/
def source (extractedAt : ℤ) : SourceOperationalMetrics where
  counts24h := ⟨count 0, count 1, count 0, count 0⟩
  derived := ⟨.fresh, .none, .clear, .fresh, .withinTarget⟩
  evidenceSignals
    | .officialOffer => ⟨.unknown, none⟩
    | .ordinaryPrice => ⟨.fresh, some (noon - 3600000)⟩
  governanceState := .approvedCurrent
  health := none
  latestExtraction := some ⟨count 2, extractedAt, .notEmpty, count 1, .completed⟩
  offers := ⟨count 3, count 0, count 0⟩
  reviewQueue := ⟨count 1, some 3600⟩
  sourceId := js "fixture-source"
  workerJobs
    | .catalogRefresh => ⟨some (noon - 7200000), .withinTarget, .completed, some (noon - 7199000)⟩
    | _ => ⟨none, .unknown, .unknown, none⟩

/-- A snapshot of that source. -/
def evidence (extractedAt : ℤ) : OperationsEvidenceSnapshot where
  hasMoreSources := false
  observedAt := noon
  sourceRoster :=
    { contentSha256 := zeroDigest
      entries := [⟨[.ordinaryPrice], [.catalogRefresh], js "fixture-source"⟩]
      version := js "fixture-roster:v1" }
  sources := [source extractedAt]
  windowStartedAt := noon - 86400000

/-- Half an hour before noon. -/
def recent : ℤ := noon - 1800000

/-- A snapshot of the source when its prices were last seen four days ago. -/
def staleEvidence : OperationsEvidenceSnapshot :=
  { evidence recent with
    sources := [{ source recent with
      derived := ⟨.stale, .none, .clear, .stale, .withinTarget⟩
      evidenceSignals
        | .officialOffer => ⟨.unknown, none⟩
        | .ordinaryPrice => ⟨.stale, some (noon - 345600000)⟩ }] }

/-- The first day of 1970. -/
def longAgo : ℤ := 0

end Example

/-- A snapshot that is evaluated, and one with older prices: the fourteen alerts of the first are
`ok`, those of the second are not, and none is less severe. -/
theorem evaluateOperationalAlertsV1_spec_fixture :
    ∃ evaluation evaluation',
      evaluateOperationalAlertsV1 (Example.evidence Example.recent) Example.healthySupplied =
        some evaluation ∧
      AssessesOnce (Example.evidence Example.recent) evaluation ∧
      (evaluation.assessments.map fun a => a.outcome) = List.replicate 14 .ok ∧
      evaluateOperationalAlertsV1 Example.staleEvidence Example.healthySupplied =
        some evaluation' ∧
      (∃ a ∈ evaluation'.assessments, a.outcome ≠ .ok) ∧
      ∀ a ∈ evaluation.assessments, ∀ a' ∈ evaluation'.assessments, alertOf a = alertOf a' →
        rank a.severity ≤ rank a'.severity := by
  have hschema : OperationsEvidenceSnapshotSchema (Example.evidence Example.recent) := by
    decide +kernel
  have hstale : OperationsEvidenceSnapshotSchema Example.staleEvidence := by decide +kernel
  have holder : EvidenceIsOlder (Example.evidence Example.recent) Example.staleEvidence := by
    refine ⟨rfl, .cons ⟨rfl, fun kind => ?_, rfl, .none, .some ⟨rfl, le_rfl, rfl, rfl, rfl⟩, rfl,
      rfl, .some le_rfl, rfl, fun _ => rfl, fun kind => ?_, fun kind => ?_⟩ .nil⟩
    · cases kind
      · exact .none
      · exact .some (by decide)
    all_goals cases kind <;> first | exact .none | exact .some le_rfl
  obtain ⟨evaluation, heval, honce, -, hrank⟩ :=
    (evaluateOperationalAlertsV1_spec hschema Example.healthySupplied).2 rfl
  have hevalStale : evaluateOperationalAlertsV1 Example.staleEvidence Example.healthySupplied =
      some _ := evaluate_eq hstale rfl
  have hranks := hrank _ _ holder hevalStale
  obtain ⟨-, rfl⟩ := evaluate_eq_some heval
  exact ⟨_, _, heval, honce, by decide +kernel, hevalStale, by decide +kernel, hranks⟩

/-- **An alert is `ok` on evidence of any age, and on missing evidence**: the latest extraction was
completed in 1970, and the health of the source is not known, and both alerts are `ok`. -/
theorem not_current_of_ok :
    ∃ evaluation, evaluateOperationalAlertsV1 (Example.evidence Example.longAgo)
        Example.healthySupplied = some evaluation ∧
      ((Example.source Example.longAgo).latestExtraction.map fun e => e.completedAt) = some 0 ∧
      (Example.source Example.longAgo).health = none ∧
      assessed .sourceSilentZeroPublication (some (js "fixture-source")) .ok ∈
        evaluation.assessments ∧
      assessed .workerLag (some (js "fixture-source")) .ok ∈ evaluation.assessments := by
  have hschema : OperationsEvidenceSnapshotSchema (Example.evidence Example.longAgo) := by
    decide +kernel
  exact ⟨_, evaluate_eq hschema rfl, rfl, rfl, by decide +kernel, by decide +kernel⟩

end Handleplan.OperationalAlerts
