import Handleplan.Domain.HistorySpec
import Handleplan.Kassalapp.CatalogOutcomes

/-!
# What a catalog refresh makes of its candidates

The outcomes of a catalog refresh are to depend on its candidates alone. Each record of the source
has one outcome; it is accepted only if nothing speaks against it, neither another candidate of the
record nor another record of the same GTIN.

The order of the candidates shows in one place. Records that claim the same GTIN are listed in the
order of their identifiers, and this order is a comparison in a language, for which identifiers can
be equal that are not the same text. Such identifiers are listed in the order in which they came.

## Main definitions

* `Kassalapp.finalOutcome` — what becomes of the outcome of a record.
* `Kassalapp.CandidatesAgree` — when the candidates of a record agree.
* `Kassalapp.CatalogOutcomesHold` — what the outcomes promise.
* `Kassalapp.RivalsAreOrdered` — when the comparison orders the records of each GTIN.

## Main results

* `Kassalapp.mem_canonicalCatalogOutcomes` — the outcomes, one for each record.
* `Kassalapp.recordOutcome_perm` — the outcome of a record does not depend on the order
  of its candidates.
* `Kassalapp.candidatesAgree_of_acceptedRecord`,
  `Kassalapp.acceptedRecord_of_candidatesAgree` — a record is accepted in the first pass
  if and only if its candidates agree on it.
* `Kassalapp.catalogOutcomesHold_iff` — the promise is kept if and only if the comparison
  orders the records of each GTIN.
-/

namespace Handleplan.Kassalapp

open JsString Sorting

variable {host : Host} {candidates candidates' : List CatalogSourceCandidate} {recordedAt : ℤ}
  {sourceRecordId ean : JsString}

/-! ### Candidates of one record -/

/-- The candidates of a record. -/
def candidatesOf (candidates : List CatalogSourceCandidate) (sourceRecordId : JsString) :
    List CatalogSourceCandidate :=
  candidates.filter fun candidate => catalogSourceRecordId candidate = sourceRecordId

/-- The identifiers of the records, in the order of their first candidates. -/
def sourceRecordIds (candidates : List CatalogSourceCandidate) : List JsString :=
  (JsMap.groupBy (fun entry : CatalogSourceCandidate × ℕ => catalogSourceRecordId entry.1)
    candidates.zipIdx).keys

theorem nodup_sourceRecordIds : (sourceRecordIds candidates).Nodup := JsMap.nodup_keys_groupBy _ _

theorem mem_sourceRecordIds : sourceRecordId ∈ sourceRecordIds candidates ↔
    ∃ candidate ∈ candidates, catalogSourceRecordId candidate = sourceRecordId := by
  refine (JsMap.mem_keys_groupBy _ _ _).trans ⟨?_, ?_⟩
  · rintro ⟨⟨candidate, index⟩, hmem, hid⟩
    exact ⟨candidate, List.fst_mem_of_mem_zipIdx hmem, hid⟩
  · rintro ⟨candidate, hmem, hid⟩
    obtain ⟨index, hindex⟩ := List.mem_iff_getElem?.mp hmem
    exact ⟨(candidate, index), List.mem_zipIdx_iff_getElem?.mpr hindex, hid⟩

/-- The candidates of a record, found with their positions. -/
theorem map_fst_filter_zipIdx (p : CatalogSourceCandidate → Bool) :
    ((candidates.zipIdx).filter fun entry => p entry.1).map Prod.fst = candidates.filter p := by
  have hmap := List.filter_map (f := Prod.fst) (p := p) (l := candidates.zipIdx)
  rw [List.zipIdx_map_fst] at hmap
  exact hmap.symm

/-- **The outcomes of the first pass**, one for each record. -/
theorem map_outcome_sourceCanonical :
    (sourceCanonical host candidates recordedAt).map IndexedCatalogOutcome.outcome =
      (sourceRecordIds candidates).map fun id =>
        recordOutcome host recordedAt id (candidatesOf candidates id) := by
  rw [sourceCanonical, sourceRecordIds, JsMap.keys, List.map_map, List.map_map]
  refine List.map_congr_left fun record hrecord => ?_
  obtain ⟨id, group⟩ := record
  have hgroup := (JsMap.mem_groupBy _).mp hrecord
  show recordOutcome host recordedAt id (group.map Prod.fst) = _
  rw [hgroup.2, map_fst_filter_zipIdx fun candidate =>
    decide (catalogSourceRecordId candidate = id)]
  rfl

section Record

variable {group group' : List CatalogSourceCandidate} {candidate : CatalogSourceCandidate}
  {α β : Type} [DecidableEq β]

variable {f : α → β} {l : List α} {b : β} {record : ProductSourceRecord}

theorem forall_eq_of_dedup_map (h : (l.map f).dedup = [b]) :
    ∀ a ∈ l, f a = b := by
  intro a ha
  have hmem : f a ∈ (l.map f).dedup := List.mem_dedup.mpr (List.mem_map_of_mem ha)
  rw [h] at hmem
  exact List.mem_singleton.mp hmem

/-- Of values that are one value, the first is this value. -/
theorem map_head?_of_dedup_map (h : (l.map f).dedup = [b]) :
    l.head?.map f = some b := by
  cases l with
  | nil => exact absurd h (List.cons_ne_nil b []).symm
  | cons a l => exact congrArg some (forall_eq_of_dedup_map h a List.mem_cons_self)

/-- Values that are one value are so in any order. -/
theorem dedup_eq_of_perm {l l' : List β} (h : l'.Perm l) (hone : l.dedup.length = 1) :
    l'.dedup = l.dedup := by
  obtain ⟨b, hb⟩ := List.length_eq_one_iff.mp hone
  rw [hb]
  exact List.perm_singleton.mp (hb ▸ h.dedup)

/-- The candidate that speaks for a record is one of its candidates. -/
theorem mem_of_selectedCandidate (h : selectedCandidate group = some candidate) :
    candidate ∈ group := by
  unfold selectedCandidate at h
  dsimp only at h
  split_ifs at h
  · exact List.mem_of_mem_head? h
  · exact List.mem_of_mem_filter (List.mem_of_mem_filter (List.mem_of_mem_head? h))

theorem sourceRecordId_mapCatalogOutcome (candidate : CatalogSourceCandidate) (recordedAt : ℤ) :
    (mapCatalogOutcome candidate.outcome candidate.targetEan recordedAt).sourceRecordId =
      catalogSourceRecordId candidate := by
  unfold mapCatalogOutcome catalogSourceRecordId
  cases candidate.outcome <;> rfl

/-- The outcome of a record is stored under its identifier. -/
theorem sourceRecordId_recordOutcome
    (h : ∀ candidate ∈ group, catalogSourceRecordId candidate = sourceRecordId) :
    (recordOutcome host recordedAt sourceRecordId group).sourceRecordId = sourceRecordId := by
  unfold recordOutcome
  cases hselected : selectedCandidate group with
  | none => rfl
  | some selected =>
    exact (sourceRecordId_mapCatalogOutcome selected recordedAt).trans
      (h selected (mem_of_selectedCandidate hselected))

/-- The outcome of a record depends on what is selected only by its outcome. -/
theorem recordOutcome_eq (group : List CatalogSourceCandidate) :
    recordOutcome host recordedAt sourceRecordId group =
      match (selectedCandidate group).map CatalogSourceCandidate.outcome with
      | some outcome => mapCatalogOutcome outcome [] recordedAt
      | none => catalogConflictOutcome host group.length [sourceRecordId] .sourceRecordId recordedAt
          sourceRecordId (if (knownEans group).length = 1 then (knownEans group).head? else none) := by
  unfold recordOutcome
  cases selectedCandidate group <;> rfl

/-- One candidate has one shape. -/
theorem dedup_map_outcome_of_length (h : group.length = 1 ∨
    ((group.map CatalogSourceCandidate.outcome).dedup).length = 1) :
    ((group.map CatalogSourceCandidate.outcome).dedup).length = 1 := by
  rcases h with h | h
  · obtain ⟨candidate, rfl⟩ := List.length_eq_one_iff.mp h
    rfl
  · exact h

theorem knownEans_perm (h : group'.Perm group) : (knownEans group').Perm (knownEans group) :=
  (h.filterMap catalogSubjectEan).dedup

/-- **What is selected** is of one outcome, in whatever order the candidates are. -/
theorem selectedCandidate_perm (h : group'.Perm group) :
    (selectedCandidate group').map CatalogSourceCandidate.outcome =
      (selectedCandidate group).map CatalogSourceCandidate.outcome := by
  have hdiscovery := h.filter fun candidate => decide (candidate.origin = .discovery)
  have haccepted := hdiscovery.filter fun candidate => decide candidate.IsAccepted
  have hshapes := (h.map CatalogSourceCandidate.outcome).dedup
  have hacceptedShapes := (haccepted.map CatalogSourceCandidate.outcome).dedup
  have hforall :
      (∀ candidate ∈ group'.filter (fun candidate => decide (candidate.origin = .discovery)),
        candidate.IsAccepted) ↔
      ∀ candidate ∈ group.filter (fun candidate => decide (candidate.origin = .discovery)),
        candidate.IsAccepted :=
    forall_congr' fun candidate => imp_congr_left hdiscovery.mem_iff
  have hfirst {l l' : List CatalogSourceCandidate} (hperm : l'.Perm l)
      (hone : (l.map CatalogSourceCandidate.outcome).dedup.length = 1) :
      l'.head?.map CatalogSourceCandidate.outcome = l.head?.map CatalogSourceCandidate.outcome := by
    obtain ⟨outcome, houtcome⟩ := List.length_eq_one_iff.mp hone
    rw [map_head?_of_dedup_map houtcome,
      map_head?_of_dedup_map ((dedup_eq_of_perm (hperm.map _) hone).trans houtcome)]
  unfold selectedCandidate
  dsimp only
  rw [h.length_eq, hshapes.length_eq, haccepted.length_eq, hacceptedShapes.length_eq,
    (knownEans_perm h).length_eq]
  by_cases hone : group.length = 1 ∨ ((group.map CatalogSourceCandidate.outcome).dedup).length = 1
  · rw [if_pos hone, if_pos hone]
    exact hfirst h (dedup_map_outcome_of_length hone)
  · rw [if_neg hone, if_neg hone, if_congr (and_congr_right' (and_congr_left' hforall)) rfl rfl]
    split_ifs with hdiscover
    · exact hfirst haccepted hdiscover.2.2.1
    · rfl

/-- **The outcome of a record does not depend on the order of its candidates.** -/
theorem recordOutcome_perm (h : group'.Perm group) :
    recordOutcome host recordedAt sourceRecordId group' =
      recordOutcome host recordedAt sourceRecordId group := by
  rw [recordOutcome_eq, recordOutcome_eq, selectedCandidate_perm h, h.length_eq,
    (knownEans_perm h).length_eq]
  split_ifs with hone
  · have heq : knownEans group' = knownEans group :=
      dedup_eq_of_perm (h.filterMap catalogSubjectEan) hone
    rw [heq]
  · rfl

/-- When the candidates of a record agree that it is accepted: on the record, or on the discovered
record, which none of them contradicts by a valid GTIN. -/
def CandidatesAgree (group : List CatalogSourceCandidate) (record : ProductSourceRecord) : Prop :=
  (∀ candidate ∈ group, candidate.outcome = .accepted record) ∨
    (∃ candidate ∈ group, candidate.origin = .discovery) ∧
    (∀ candidate ∈ group, candidate.origin = .discovery → candidate.outcome = .accepted record) ∧
    ∀ candidate ∈ group, ∀ ean ∈ catalogSubjectEan candidate, ean = record.ean

theorem catalogSubjectEan_of_accepted (h : candidate.outcome = .accepted record) :
    catalogSubjectEan candidate = some record.ean := by
  rw [catalogSubjectEan, h]
  exact if_pos record.isValidEan

/-- The record that is accepted of a record's candidates, in the first pass. -/
def acceptedRecord (group : List CatalogSourceCandidate) : Option ProductSourceRecord :=
  (selectedCandidate group).bind fun candidate => candidate.outcome.record?

theorem outcome_eq_of_record? {outcome : ProductOutcome} (h : outcome.record? = some record) :
    outcome = .accepted record := by
  cases outcome with
  | accepted record' => exact congrArg _ (Option.some.inj h)
  | rejected rejection => cases h

/-- The discovered candidates of a record. -/
theorem mem_filter_discovery : candidate ∈
    group.filter (fun candidate => decide (candidate.origin = .discovery)) ↔
      candidate ∈ group ∧ candidate.origin = .discovery :=
  List.mem_filter.trans (and_congr_right' decide_eq_true_iff)

/-- **An accepted record is one that its candidates agree on.** -/
theorem candidatesAgree_of_acceptedRecord (h : acceptedRecord group = some record) :
    CandidatesAgree group record := by
  obtain ⟨selected, hselected, hrecord⟩ := Option.bind_eq_some_iff.mp h
  have houtcome := outcome_eq_of_record? hrecord
  have hmem := mem_of_selectedCandidate hselected
  unfold selectedCandidate at hselected
  dsimp only at hselected
  split_ifs at hselected with hone hdiscover
  · obtain ⟨shape, hshape⟩ := List.length_eq_one_iff.mp (dedup_map_outcome_of_length hone)
    have hforall := forall_eq_of_dedup_map hshape
    left
    intro candidate hcandidate
    rw [hforall candidate hcandidate, ← hforall selected hmem, houtcome]
  · obtain ⟨-, hall, hshapes, hknown⟩ := hdiscover
    obtain ⟨shape, hshape⟩ := List.length_eq_one_iff.mp hshapes
    have hforall := forall_eq_of_dedup_map hshape
    have hselectedMem := List.mem_of_mem_head? hselected
    obtain ⟨-, hdiscovered⟩ := mem_filter_discovery.mp (List.mem_of_mem_filter hselectedMem)
    obtain ⟨known, hknownEq⟩ := List.length_eq_one_iff.mp hknown
    have hean (candidate : CatalogSourceCandidate) (hcandidate : candidate ∈ group)
        (ean : JsString) (hsubject : ean ∈ catalogSubjectEan candidate) : ean = known := by
      have hin : ean ∈ knownEans group :=
        List.mem_dedup.mpr (List.mem_filterMap.mpr ⟨candidate, hcandidate, hsubject⟩)
      rw [hknownEq] at hin
      exact List.mem_singleton.mp hin
    refine .inr ⟨⟨selected, hmem, hdiscovered⟩, fun candidate hcandidate horigin => ?_,
      fun candidate hcandidate ean hsubject => ?_⟩
    · have hfiltered := mem_filter_discovery.mpr ⟨hcandidate, horigin⟩
      rw [hforall candidate (List.mem_filter.mpr ⟨hfiltered,
        decide_eq_true (hall candidate hfiltered)⟩), ← hforall selected hselectedMem, houtcome]
    · rw [hean candidate hcandidate ean hsubject]
      exact (hean selected hmem record.ean (catalogSubjectEan_of_accepted houtcome)).symm

/-- A list of values that are all one value. -/
theorem dedup_map_of_forall (hne : l ≠ []) (h : ∀ a ∈ l, f a = b) :
    (l.map f).dedup = [b] := by
  rw [List.map_congr_left h, List.map_const']
  exact List.replicate_dedup (List.length_eq_zero_iff.not.mpr hne)

/-- **A record that its candidates agree on is accepted.** -/
theorem acceptedRecord_of_candidatesAgree (hne : group ≠ []) (h : CandidatesAgree group record) :
    acceptedRecord group = some record := by
  have hhead {l : List CatalogSourceCandidate} (hsome : l ≠ [])
      (hall : ∀ candidate ∈ l, candidate.outcome = .accepted record) :
      l.head?.bind (fun candidate => candidate.outcome.record?) = some record := by
    obtain ⟨first, rest, rfl⟩ := List.exists_cons_of_ne_nil hsome
    rw [List.head?_cons, Option.bind_some, hall first List.mem_cons_self]
    rfl
  unfold acceptedRecord selectedCandidate
  dsimp only
  split_ifs with hone hdiscover
  · obtain ⟨shape, hshape⟩ := List.length_eq_one_iff.mp (dedup_map_outcome_of_length hone)
    have hforall := forall_eq_of_dedup_map hshape
    rcases h with hall | ⟨⟨discovered, hmem, horigin⟩, hall, -⟩
    · exact hhead hne hall
    · refine hhead hne fun candidate hcandidate => ?_
      rw [hforall candidate hcandidate, ← hforall discovered hmem, hall discovered hmem horigin]
  · refine hhead (List.ne_nil_of_length_pos hdiscover.1) fun candidate hcandidate => ?_
    have hmem := List.mem_of_mem_filter hcandidate
    rcases h with hall | ⟨-, hall, -⟩
    · exact hall candidate (List.mem_of_mem_filter hmem)
    · exact hall candidate (mem_filter_discovery.mp hmem).1 (mem_filter_discovery.mp hmem).2
  · rcases h with hall | ⟨⟨discovered, hmem, horigin⟩, hall, hean⟩
    · exact absurd (.inr (congrArg List.length (dedup_map_of_forall hne hall))) hone
    · have haccepted (candidate : CatalogSourceCandidate)
          (hcandidate : candidate ∈
            group.filter fun candidate => decide (candidate.origin = .discovery)) :
          candidate.outcome = .accepted record :=
        hall candidate (mem_filter_discovery.mp hcandidate).1 (mem_filter_discovery.mp hcandidate).2
      have hisAccepted (candidate : CatalogSourceCandidate)
          (hcandidate : candidate ∈
            group.filter fun candidate => decide (candidate.origin = .discovery)) :
          candidate.IsAccepted := by
        rw [CatalogSourceCandidate.IsAccepted, haccepted candidate hcandidate]
        rfl
      have hdiscovered := mem_filter_discovery.mpr ⟨hmem, horigin⟩
      have hfiltered : discovered ∈
          (group.filter fun candidate => decide (candidate.origin = .discovery)).filter
            fun candidate => decide candidate.IsAccepted :=
        List.mem_filter.mpr ⟨hdiscovered, decide_eq_true (hisAccepted discovered hdiscovered)⟩
      have hsubject := catalogSubjectEan_of_accepted (hall discovered hmem horigin)
      have hknown : knownEans group = [record.ean] := by
        have hmap := dedup_map_of_forall (f := id) (b := record.ean)
          (List.ne_nil_of_mem (List.mem_filterMap.mpr ⟨discovered, hmem, hsubject⟩))
          fun ean hmem => by
            obtain ⟨candidate, hcandidate, hsubject⟩ := List.mem_filterMap.mp hmem
            exact hean candidate hcandidate ean hsubject
        rwa [List.map_id] at hmap
      refine absurd ⟨List.length_pos_of_mem hfiltered, hisAccepted, ?_, ?_⟩ hdiscover
      · exact congrArg List.length (dedup_map_of_forall (List.ne_nil_of_mem hfiltered)
          fun candidate hcandidate => haccepted candidate (List.mem_of_mem_filter hcandidate))
      · exact congrArg List.length hknown

/-- The outcome of a record that is accepted. -/
theorem acceptedRecord_of_accepted {outcome : AcceptedCatalogOutcome}
    (h : recordOutcome host recordedAt sourceRecordId group = .accepted outcome) :
    acceptedRecord group = some outcome.normalizedRecord ∧
      outcome.subjectEan = outcome.normalizedRecord.ean := by
  unfold recordOutcome at h
  unfold acceptedRecord
  cases hselected : selectedCandidate group with
  | none =>
    rw [hselected] at h
    cases h
  | some selected =>
    rw [hselected] at h
    cases houtcome : selected.outcome with
    | rejected rejection =>
      dsimp only at h
      rw [houtcome] at h
      cases h
    | accepted record =>
      dsimp only at h
      rw [houtcome] at h
      obtain rfl := CatalogOutcome.accepted.inj h
      rw [Option.bind_some, houtcome]
      exact ⟨rfl, rfl⟩

end Record

/-! ### Records of one GTIN -/

section Rivals

variable {entries : List IndexedCatalogOutcome} {entry : IndexedCatalogOutcome}

/-- The entries that are accepted for a GTIN. -/
def rivals (entries : List IndexedCatalogOutcome) (ean : JsString) : List IndexedCatalogOutcome :=
  entries.filter fun entry => entry.outcome.acceptedEan = some ean

/-- The entries of a GTIN, found with their GTINs. -/
theorem map_snd_filter_acceptedEan (entries : List IndexedCatalogOutcome) (ean : JsString) :
    ((entries.filterMap fun entry => entry.outcome.acceptedEan.map fun subjectEan =>
      (subjectEan, entry)).filter fun pair => pair.1 = ean).map Prod.snd = rivals entries ean := by
  induction entries with
  | nil => rfl
  | cons entry entries ih =>
    rw [rivals, List.filter_cons]
    cases haccepted : entry.outcome.acceptedEan with
    | none =>
      rw [List.filterMap_cons_none (by rw [haccepted]; rfl), ih, if_neg (by simp)]
      rfl
    | some subjectEan =>
      rw [List.filterMap_cons_some (by rw [haccepted]; rfl), List.filter_cons]
      by_cases hean : subjectEan = ean
      · rw [if_pos (decide_eq_true hean), if_pos (decide_eq_true (congrArg some hean)),
          List.map_cons, ih]
        rfl
      · rw [if_neg (by simpa using hean), if_neg (by simpa using hean), ih]
        rfl

/-- **The conflicting groups** are the records of each GTIN that more than one record claims. -/
theorem mem_conflictingGroups {group : List IndexedCatalogOutcome} :
    (ean, group) ∈ conflictingGroups entries ↔ 2 ≤ group.length ∧ group = rivals entries ean := by
  constructor
  · intro h
    obtain ⟨⟨ean', pairs⟩, hmem, heq⟩ := List.mem_map.mp h
    cases heq
    obtain ⟨hgroup, hlength⟩ := List.mem_filter.mp hmem
    obtain ⟨-, hpairs⟩ := (JsMap.mem_groupBy _).mp hgroup
    have hrivals : pairs.map Prod.snd = rivals entries ean' := by
      rw [hpairs, map_snd_filter_acceptedEan]
    refine ⟨?_, hrivals⟩
    rw [List.length_map]
    exact Nat.not_lt.mp (of_decide_eq_true hlength)
  · rintro ⟨hlength, rfl⟩
    refine List.mem_map.mpr ⟨(ean, (entries.filterMap fun entry =>
      entry.outcome.acceptedEan.map fun subjectEan => (subjectEan, entry)).filter fun pair =>
        pair.1 = ean), List.mem_filter.mpr ⟨(JsMap.mem_groupBy _).mpr ⟨?_, rfl⟩, ?_⟩, ?_⟩
    · obtain ⟨entry, hentry⟩ := List.exists_mem_of_length_pos (Nat.zero_lt_of_lt hlength)
      obtain ⟨hmem, haccepted⟩ := List.mem_filter.mp hentry
      refine ⟨(ean, entry), List.mem_filterMap.mpr ⟨entry, hmem, ?_⟩, rfl⟩
      rw [of_decide_eq_true haccepted]
      rfl
    · rw [← map_snd_filter_acceptedEan, List.length_map] at hlength
      exact decide_eq_true (Nat.not_lt.mpr hlength)
    · exact Prod.ext rfl (map_snd_filter_acceptedEan entries ean)

/-- The GTINs of the conflicting groups are distinct. -/
theorem nodup_conflictingGroups : ((conflictingGroups entries).map Prod.fst).Nodup := by
  have hkeys := JsMap.nodup_keys_groupBy Prod.fst (entries.filterMap fun entry =>
    entry.outcome.acceptedEan.map fun subjectEan => (subjectEan, entry))
  rw [conflictingGroups, List.map_map]
  exact hkeys.sublist (List.filter_sublist.map _)

/-- An entry is in conflict when another is accepted for its GTIN. -/
theorem mem_conflictingAccepted : entry ∈ conflictingAccepted entries ↔
    entry ∈ entries ∧ ∃ ean, entry.outcome.acceptedEan = some ean ∧
      2 ≤ (rivals entries ean).length := by
  rw [conflictingAccepted, List.mem_flatMap]
  constructor
  · rintro ⟨⟨ean, group⟩, hgroup, hmem⟩
    obtain ⟨hlength, rfl⟩ := mem_conflictingGroups.mp hgroup
    obtain ⟨hentry, haccepted⟩ := List.mem_filter.mp hmem
    exact ⟨hentry, ean, of_decide_eq_true haccepted, hlength⟩
  · rintro ⟨hentry, ean, haccepted, hlength⟩
    exact ⟨(ean, rivals entries ean), mem_conflictingGroups.mpr ⟨hlength, rfl⟩,
      List.mem_filter.mpr ⟨hentry, decide_eq_true haccepted⟩⟩

/-- The entries in conflict, each once. -/
theorem conflictingAccepted_perm : (conflictingAccepted entries).Perm
    (entries.filter fun entry => entry ∈ conflictingAccepted entries) := by
  have hgroups : conflictingAccepted entries =
      ((conflictingGroups entries).map Prod.fst).flatMap fun ean =>
        entries.filter fun entry => entry.outcome.acceptedEan = some ean := by
    rw [conflictingAccepted, List.flatMap_map]
    refine List.flatMap_congr fun group hgroup => ?_
    exact (mem_conflictingGroups.mp hgroup).2
  have hfilter : (entries.filter fun entry => ∃ ean ∈ (conflictingGroups entries).map Prod.fst,
      entry.outcome.acceptedEan = some ean) =
      entries.filter fun entry => entry ∈ conflictingAccepted entries := by
    refine List.filter_congr fun entry hentry => decide_eq_decide.mpr ?_
    rw [mem_conflictingAccepted, and_iff_right hentry]
    constructor
    · rintro ⟨ean, hean, haccepted⟩
      obtain ⟨group, hgroup, rfl⟩ := List.mem_map.mp hean
      obtain ⟨hlength, heq⟩ := mem_conflictingGroups.mp hgroup
      exact ⟨_, haccepted, heq ▸ hlength⟩
    · rintro ⟨ean, haccepted, hlength⟩
      exact ⟨ean, List.mem_map_of_mem (f := Prod.fst) (mem_conflictingGroups.mpr ⟨hlength, rfl⟩),
        haccepted⟩
  rw [← hfilter]
  exact (List.Perm.of_eq hgroups).trans (JsMap.flatMap_filter_perm nodup_conflictingGroups)

end Rivals

/-! ### The outcomes -/

section Outcomes

variable {outcomes outcomes' : List CatalogOutcome} {outcome : CatalogOutcome}

/-- The outcomes that are accepted for a GTIN. -/
def rivalOutcomes (outcomes : List CatalogOutcome) (ean : JsString) : List CatalogOutcome :=
  outcomes.filter fun outcome => outcome.acceptedEan = some ean

/-- **What becomes of the outcome of a record**: it gives way to a conflict when another is accepted
for its GTIN. -/
def finalOutcome (host : Host) (outcomes : List CatalogOutcome) (recordedAt : ℤ)
    (outcome : CatalogOutcome) : CatalogOutcome :=
  match outcome.acceptedEan with
  | none => outcome
  | some ean =>
    if 2 ≤ (rivalOutcomes outcomes ean).length then
      catalogConflictOutcome host (rivalOutcomes outcomes ean).length
        (sortBy host.localeCompare
          ((rivalOutcomes outcomes ean).map CatalogOutcome.sourceRecordId))
        .subjectEan recordedAt outcome.sourceRecordId (some ean)
    else outcome

/-- The outcomes of the first pass. -/
def recordOutcomes (host : Host) (candidates : List CatalogSourceCandidate) (recordedAt : ℤ) :
    List CatalogOutcome :=
  (sourceRecordIds candidates).map fun id =>
    recordOutcome host recordedAt id (candidatesOf candidates id)

variable (entries : List IndexedCatalogOutcome)

theorem map_outcome_rivals (ean : JsString) :
    (rivals entries ean).map IndexedCatalogOutcome.outcome =
      rivalOutcomes (entries.map IndexedCatalogOutcome.outcome) ean := by
  rw [rivalOutcomes, List.filter_map]
  rfl

theorem length_rivals (ean : JsString) :
    (rivals entries ean).length =
      (rivalOutcomes (entries.map IndexedCatalogOutcome.outcome) ean).length := by
  rw [← map_outcome_rivals, List.length_map]

/-- The conflicts are what becomes of the entries in conflict. -/
theorem map_outcome_eanConflicts :
    (eanConflicts host entries recordedAt).map IndexedCatalogOutcome.outcome =
      (conflictingAccepted entries).map fun entry =>
        finalOutcome host (entries.map IndexedCatalogOutcome.outcome) recordedAt entry.outcome := by
  rw [eanConflicts, conflictingAccepted, List.map_flatMap, List.map_flatMap]
  refine List.flatMap_congr fun group hgroup => ?_
  obtain ⟨hlength, hrivals⟩ := mem_conflictingGroups.mp hgroup
  rw [List.map_map]
  refine List.map_congr_left fun entry hentry => ?_
  have haccepted : entry.outcome.acceptedEan = some group.1 := by
    rw [hrivals] at hentry
    exact of_decide_eq_true (List.mem_filter.mp hentry).2
  rw [hrivals, length_rivals] at hlength
  have hids : group.2.map (fun entry => entry.outcome.sourceRecordId) =
      (rivalOutcomes (entries.map IndexedCatalogOutcome.outcome) group.1).map
        CatalogOutcome.sourceRecordId := by
    rw [← map_outcome_rivals, hrivals, List.map_map]
    rfl
  rw [finalOutcome, haccepted]
  dsimp only
  rw [if_pos hlength, ← hids, ← length_rivals, ← hrivals]
  rfl

/-- An entry that is not in conflict stays as it is. -/
theorem finalOutcome_of_notMem {entries : List IndexedCatalogOutcome} {entry : IndexedCatalogOutcome}
    (hentry : entry ∈ entries) (h : entry ∉ conflictingAccepted entries) :
    finalOutcome host (entries.map IndexedCatalogOutcome.outcome) recordedAt entry.outcome =
      entry.outcome := by
  rw [finalOutcome]
  cases haccepted : entry.outcome.acceptedEan with
  | none => rfl
  | some ean =>
    refine if_neg fun hlength => h (mem_conflictingAccepted.mpr ⟨hentry, ean, haccepted, ?_⟩)
    rwa [length_rivals]

/-- **The outcomes** are what becomes of the outcomes of the first pass.

**Proof sketch.** Entries are either in conflict or not. Those that are not stay as they are, and
each of the others is replaced once. -/
theorem canonicalCatalogOutcomes_perm :
    (canonicalCatalogOutcomes host candidates recordedAt).Perm
      ((recordOutcomes host candidates recordedAt).map
        (finalOutcome host (recordOutcomes host candidates recordedAt) recordedAt)) := by
  obtain ⟨entries, hentries⟩ : ∃ entries, entries = sourceCanonical host candidates recordedAt :=
    ⟨_, rfl⟩
  have houtcomes : recordOutcomes host candidates recordedAt =
      entries.map IndexedCatalogOutcome.outcome := by
    rw [hentries, map_outcome_sourceCanonical]
    rfl
  have hkept : (entries.filter fun entry => entry ∉ conflictingAccepted entries).map
      IndexedCatalogOutcome.outcome =
      (entries.filter fun entry => entry ∉ conflictingAccepted entries).map fun entry =>
        finalOutcome host (entries.map IndexedCatalogOutcome.outcome) recordedAt entry.outcome := by
    refine List.map_congr_left fun entry hentry => ?_
    obtain ⟨hmem, hnot⟩ := List.mem_filter.mp hentry
    exact (finalOutcome_of_notMem hmem (of_decide_eq_true hnot)).symm
  have hsplit : ((entries.filter fun entry => entry ∉ conflictingAccepted entries) ++
      conflictingAccepted entries).Perm entries := by
    refine (List.Perm.append_left _ conflictingAccepted_perm).trans ?_
    refine (List.perm_append_comm).trans ?_
    refine .trans (.of_eq (congrArg _ (List.filter_congr fun entry _ => ?_)))
      (List.filter_append_perm (fun entry => decide (entry ∈ conflictingAccepted entries)) entries)
    exact decide_not
  rw [canonicalCatalogOutcomes, ← hentries, houtcomes, List.map_map]
  refine ((sortBy_perm _ _).map _).trans ?_
  rw [List.map_append, hkept, map_outcome_eanConflicts, ← List.map_append]
  exact hsplit.map _

/-- **The outcomes, one for each record.** -/
theorem mem_canonicalCatalogOutcomes :
    outcome ∈ canonicalCatalogOutcomes host candidates recordedAt ↔
      ∃ id ∈ sourceRecordIds candidates,
        finalOutcome host (recordOutcomes host candidates recordedAt) recordedAt
          (recordOutcome host recordedAt id (candidatesOf candidates id)) = outcome := by
  rw [canonicalCatalogOutcomes_perm.mem_iff, recordOutcomes, List.map_map, List.mem_map]
  rfl

theorem sourceRecordId_finalOutcome : (finalOutcome host outcomes recordedAt outcome).sourceRecordId =
    outcome.sourceRecordId := by
  unfold finalOutcome
  cases outcome.acceptedEan with
  | none => rfl
  | some ean =>
    dsimp only
    split_ifs
    · rfl
    · rfl

theorem sourceRecordId_recordOutcome_candidatesOf (id : JsString) :
    (recordOutcome host recordedAt id (candidatesOf candidates id)).sourceRecordId = id :=
  sourceRecordId_recordOutcome fun _ hmem => of_decide_eq_true (List.mem_filter.mp hmem).2

theorem map_sourceRecordId_recordOutcomes (host : Host) (candidates : List CatalogSourceCandidate)
    (recordedAt : ℤ) :
    (recordOutcomes host candidates recordedAt).map CatalogOutcome.sourceRecordId =
      sourceRecordIds candidates := by
  rw [recordOutcomes, List.map_map]
  exact (List.map_congr_left fun id _ => sourceRecordId_recordOutcome_candidatesOf id).trans
    (List.map_id _)

theorem map_sourceRecordId_perm :
    ((canonicalCatalogOutcomes host candidates recordedAt).map CatalogOutcome.sourceRecordId).Perm
      (sourceRecordIds candidates) := by
  refine (canonicalCatalogOutcomes_perm.map _).trans (.of_eq ?_)
  rw [List.map_map, ← map_sourceRecordId_recordOutcomes host candidates recordedAt]
  exact List.map_congr_left fun outcome _ => sourceRecordId_finalOutcome

/-- An outcome that is accepted in the end is so in the first pass, as the only one of its GTIN. -/
theorem acceptedEan_finalOutcome
    (h : (finalOutcome host outcomes recordedAt outcome).acceptedEan = some ean) :
    finalOutcome host outcomes recordedAt outcome = outcome ∧ outcome.acceptedEan = some ean ∧
      (rivalOutcomes outcomes ean).length ≤ 1 := by
  unfold finalOutcome at h ⊢
  cases haccepted : outcome.acceptedEan with
  | none =>
    rw [haccepted] at h
    exact absurd (haccepted.symm.trans h) (by simp)
  | some ean' =>
    rw [haccepted] at h
    dsimp only at h ⊢
    split_ifs at h ⊢ with hlength
    · cases h
    · obtain rfl := Option.some.inj (haccepted.symm.trans h)
      exact ⟨rfl, rfl, Nat.le_of_lt_succ (Nat.not_le.mp hlength)⟩

/-- **At most one outcome is accepted for a GTIN.** -/
theorem length_filter_accepted_le (ean : JsString) :
    ((canonicalCatalogOutcomes host candidates recordedAt).filter fun outcome =>
      outcome.acceptedEan = some ean).length ≤ 1 := by
  rw [(canonicalCatalogOutcomes_perm.filter _).length_eq, List.filter_map, List.length_map]
  by_contra hlong
  rw [Nat.not_le] at hlong
  obtain ⟨outcome, houtcome⟩ := List.exists_mem_of_length_pos (Nat.zero_lt_of_lt hlong)
  obtain ⟨-, -, hone⟩ := acceptedEan_finalOutcome (of_decide_eq_true (List.mem_filter.mp houtcome).2)
  refine absurd ((List.Sublist.length_le (List.monotone_filter_right _ ?_)).trans hone)
    (Nat.not_le.mpr hlong)
  intro other haccepted
  exact decide_eq_true (acceptedEan_finalOutcome (of_decide_eq_true haccepted)).2.1

/-- The GTIN of an outcome is that of the accepted record. -/
theorem acceptedEan_recordOutcome (group : List CatalogSourceCandidate) :
    (recordOutcome host recordedAt sourceRecordId group).acceptedEan =
      (acceptedRecord group).map ProductSourceRecord.ean := by
  unfold recordOutcome acceptedRecord
  cases selectedCandidate group with
  | none => rfl
  | some selected =>
    cases houtcome : selected.outcome with
    | accepted record =>
      dsimp only
      rw [houtcome, Option.bind_some, houtcome]
      rfl
    | rejected rejection =>
      dsimp only
      rw [houtcome, Option.bind_some, houtcome]
      rfl

end Outcomes

/-! ### The order of the candidates -/

section Order

/-- Whether the comparison orders the records that claim the same GTIN: it tells apart any two of
them. -/
def RivalsAreOrdered (host : Host) (candidates : List CatalogSourceCandidate) : Prop :=
  ∀ candidate ∈ candidates, ∀ candidate' ∈ candidates, ∀ record record',
    CandidatesAgree (candidatesOf candidates (catalogSourceRecordId candidate)) record →
    CandidatesAgree (candidatesOf candidates (catalogSourceRecordId candidate')) record' →
    record.ean = record'.ean →
    host.localeCompare (catalogSourceRecordId candidate) (catalogSourceRecordId candidate') = .eq →
    catalogSourceRecordId candidate = catalogSourceRecordId candidate'

theorem acceptedRecord_candidatesOf_iff {id : JsString} {record : ProductSourceRecord}
    (hid : id ∈ sourceRecordIds candidates) :
    acceptedRecord (candidatesOf candidates id) = some record ↔
      CandidatesAgree (candidatesOf candidates id) record := by
  refine ⟨candidatesAgree_of_acceptedRecord, acceptedRecord_of_candidatesAgree ?_⟩
  obtain ⟨candidate, hmem, heq⟩ := mem_sourceRecordIds.mp hid
  exact List.ne_nil_of_mem (List.mem_filter.mpr ⟨hmem, decide_eq_true heq⟩)

/-- Rivals are ordered where no two records of one GTIN compare equal. -/
theorem rivalsAreOrdered_iff : RivalsAreOrdered host candidates ↔
    ∀ id ∈ sourceRecordIds candidates, ∀ id' ∈ sourceRecordIds candidates, ∀ ean,
      (acceptedRecord (candidatesOf candidates id)).map ProductSourceRecord.ean = some ean →
      (acceptedRecord (candidatesOf candidates id')).map ProductSourceRecord.ean = some ean →
      host.localeCompare id id' = .eq → id = id' := by
  constructor
  · intro h id hid id' hid' ean haccepted haccepted' heq
    obtain ⟨record, hrecord, hean⟩ := Option.map_eq_some_iff.mp haccepted
    obtain ⟨record', hrecord', hean'⟩ := Option.map_eq_some_iff.mp haccepted'
    have hagree := (acceptedRecord_candidatesOf_iff hid).mp hrecord
    have hagree' := (acceptedRecord_candidatesOf_iff hid').mp hrecord'
    obtain ⟨candidate, hmem, rfl⟩ := mem_sourceRecordIds.mp hid
    obtain ⟨candidate', hmem', rfl⟩ := mem_sourceRecordIds.mp hid'
    exact h candidate hmem candidate' hmem' record record' hagree hagree' (hean.trans hean'.symm) heq
  · intro h candidate hmem candidate' hmem' record record' hagree hagree' hean heq
    have hid := mem_sourceRecordIds.mpr ⟨candidate, hmem, rfl⟩
    have hid' := mem_sourceRecordIds.mpr ⟨candidate', hmem', rfl⟩
    refine h _ hid _ hid' record.ean ?_ ?_ heq
    · rw [(acceptedRecord_candidatesOf_iff hid).mpr hagree]
      rfl
    · rw [(acceptedRecord_candidatesOf_iff hid').mpr hagree', hean]
      rfl

theorem candidatesOf_perm (h : candidates'.Perm candidates) (id : JsString) :
    (candidatesOf candidates' id).Perm (candidatesOf candidates id) := h.filter _

theorem sourceRecordIds_perm (h : candidates'.Perm candidates) :
    (sourceRecordIds candidates').Perm (sourceRecordIds candidates) :=
  (List.perm_ext_iff_of_nodup nodup_sourceRecordIds nodup_sourceRecordIds).mpr fun id => by
    rw [mem_sourceRecordIds, mem_sourceRecordIds]
    exact exists_congr fun candidate => and_congr_left' h.mem_iff

theorem recordOutcomes_perm (h : candidates'.Perm candidates) :
    (recordOutcomes host candidates' recordedAt).Perm (recordOutcomes host candidates recordedAt) := by
  have hfun : (fun id => recordOutcome host recordedAt id (candidatesOf candidates' id)) =
      fun id => recordOutcome host recordedAt id (candidatesOf candidates id) :=
    funext fun id => recordOutcome_perm (candidatesOf_perm h id)
  rw [recordOutcomes, recordOutcomes, hfun]
  exact (sourceRecordIds_perm h).map _

/-- The records that claim a GTIN. -/
theorem mem_rivalOutcomes (host : Host) (candidates : List CatalogSourceCandidate) (recordedAt : ℤ)
    (ean : JsString) {id : JsString} :
    id ∈ (rivalOutcomes (recordOutcomes host candidates recordedAt) ean).map
        CatalogOutcome.sourceRecordId ↔
      id ∈ sourceRecordIds candidates ∧
        (acceptedRecord (candidatesOf candidates id)).map ProductSourceRecord.ean = some ean := by
  constructor
  · intro hmem
    obtain ⟨outcome, houtcome, rfl⟩ := List.mem_map.mp hmem
    obtain ⟨hrecord, haccepted⟩ := List.mem_filter.mp houtcome
    obtain ⟨id, hid, rfl⟩ := List.mem_map.mp hrecord
    rw [sourceRecordId_recordOutcome_candidatesOf]
    exact ⟨hid, (acceptedEan_recordOutcome _).symm.trans (of_decide_eq_true haccepted)⟩
  · rintro ⟨hid, haccepted⟩
    refine List.mem_map.mpr ⟨recordOutcome host recordedAt id (candidatesOf candidates id),
      List.mem_filter.mpr ⟨List.mem_map_of_mem hid, decide_eq_true ?_⟩,
      sourceRecordId_recordOutcome_candidatesOf id⟩
    rwa [acceptedEan_recordOutcome]

/-- **In another order of the candidates, the same becomes of each record**, where the comparison
orders the records of each GTIN. -/
theorem finalOutcome_perm [Std.TransCmp host.localeCompare] (h : candidates'.Perm candidates)
    (hordered : RivalsAreOrdered host candidates) :
    finalOutcome host (recordOutcomes host candidates' recordedAt) recordedAt =
      finalOutcome host (recordOutcomes host candidates recordedAt) recordedAt := by
  have hrivals (ean : JsString) :
      (rivalOutcomes (recordOutcomes host candidates' recordedAt) ean).Perm
        (rivalOutcomes (recordOutcomes host candidates recordedAt) ean) :=
    (recordOutcomes_perm h).filter _
  have hids (ean : JsString) : sortBy host.localeCompare
      ((rivalOutcomes (recordOutcomes host candidates' recordedAt) ean).map
        CatalogOutcome.sourceRecordId) = sortBy host.localeCompare
      ((rivalOutcomes (recordOutcomes host candidates recordedAt) ean).map
        CatalogOutcome.sourceRecordId) := by
    refine sortBy_eq_of_perm ((hrivals ean).map _) fun id hid id' hid' heq => ?_
    obtain ⟨hmem, haccepted⟩ :=
      (mem_rivalOutcomes _ _ _ _).mp (((hrivals ean).map _).mem_iff.mp hid)
    obtain ⟨hmem', haccepted'⟩ :=
      (mem_rivalOutcomes _ _ _ _).mp (((hrivals ean).map _).mem_iff.mp hid')
    exact rivalsAreOrdered_iff.mp hordered id hmem id' hmem' ean haccepted haccepted' heq
  funext outcome
  unfold finalOutcome
  cases outcome.acceptedEan with
  | none => rfl
  | some ean =>
    dsimp only
    rw [hids, (hrivals ean).length_eq]

theorem mem_canonicalCatalogOutcomes_perm [Std.TransCmp host.localeCompare]
    (h : candidates'.Perm candidates) (hordered : RivalsAreOrdered host candidates)
    (outcome : CatalogOutcome) :
    outcome ∈ canonicalCatalogOutcomes host candidates' recordedAt ↔
      outcome ∈ canonicalCatalogOutcomes host candidates recordedAt := by
  rw [canonicalCatalogOutcomes_perm.mem_iff, canonicalCatalogOutcomes_perm.mem_iff,
    finalOutcome_perm h hordered]
  exact ((recordOutcomes_perm h).map _).mem_iff

variable {id' : JsString}

/-- In a list without repetition, two elements stand in one order only. -/
theorem not_sublist_of_sublist {l : List JsString} {id : JsString} (hnodup : l.Nodup)
    (h : List.Sublist [id, id'] l) : ¬ List.Sublist [id', id] l := by
  intro h'
  obtain ⟨front, back, hl, hfront, hback⟩ := List.cons_sublist_iff.mp h
  obtain ⟨front', back', hl', hfront', hback'⟩ := List.cons_sublist_iff.mp h'
  have hmem : id' ∈ back := List.singleton_sublist.mp hback
  have hmem' : id ∈ back' := List.singleton_sublist.mp hback'
  have hdisjoint : List.Disjoint front back := List.disjoint_of_nodup_append (hl ▸ hnodup)
  have hdisjoint' : List.Disjoint front' back' := List.disjoint_of_nodup_append (hl' ▸ hnodup)
  rcases List.prefix_or_prefix_of_prefix ⟨back, hl.symm⟩ ⟨back', hl'.symm⟩ with hbegin | hbegin
  · exact hdisjoint' (hbegin.subset hfront) hmem'
  · exact hdisjoint (hbegin.subset hfront') hmem

/-- The candidates, those of one record in front. -/
def withRecordFirst (candidates : List CatalogSourceCandidate) (id : JsString) :
    List CatalogSourceCandidate :=
  candidatesOf candidates id ++
    candidates.filter fun candidate => !decide (catalogSourceRecordId candidate = id)

theorem withRecordFirst_perm (id : JsString) : (withRecordFirst candidates id).Perm candidates :=
  List.filter_append_perm _ _

/-- The record comes first. -/
theorem sublist_withRecordFirst {id : JsString} (hid : id ∈ sourceRecordIds candidates)
    (hid' : id' ∈ sourceRecordIds candidates) (hne : id ≠ id') :
    List.Sublist [id, id'] (sourceRecordIds (withRecordFirst candidates id)) := by
  obtain ⟨candidate, hmem, heq⟩ := mem_sourceRecordIds.mp hid
  have hgroup : candidate ∈ candidatesOf candidates id :=
    List.mem_filter.mpr ⟨hmem, decide_eq_true heq⟩
  obtain ⟨first, rest, hrest⟩ := List.exists_cons_of_ne_nil (List.ne_nil_of_mem hgroup)
  have hfirst : catalogSourceRecordId first = id := by
    have hin : first ∈ candidatesOf candidates id := hrest ▸ List.mem_cons_self
    exact of_decide_eq_true (List.mem_filter.mp hin).2
  have hkeys : [id] <+: sourceRecordIds (withRecordFirst candidates id) := by
    have hbegin := JsMap.keys_groupBy_prefix
      (fun entry : CatalogSourceCandidate × ℕ => catalogSourceRecordId entry.1) [(first, 0)]
      ((rest ++ candidates.filter fun candidate =>
        !decide (catalogSourceRecordId candidate = id)).zipIdx 1)
    rw [sourceRecordIds, withRecordFirst, hrest, List.cons_append, List.zipIdx_cons]
    exact hfirst ▸ hbegin
  obtain ⟨others, hothers⟩ := hkeys
  have hin : id' ∈ sourceRecordIds (withRecordFirst candidates id) :=
    (sourceRecordIds_perm (withRecordFirst_perm id)).mem_iff.mpr hid'
  rw [← hothers, List.singleton_append, List.mem_cons] at hin
  rw [← hothers, List.singleton_append]
  exact (List.singleton_sublist.mpr (hin.resolve_left hne.symm)).cons_cons id

theorem acceptedRecord_perm {group group' : List CatalogSourceCandidate} (h : group'.Perm group) :
    acceptedRecord group' = acceptedRecord group := by
  have heq (group : List CatalogSourceCandidate) : acceptedRecord group =
      ((selectedCandidate group).map CatalogSourceCandidate.outcome).bind ProductOutcome.record? := by
    unfold acceptedRecord
    cases selectedCandidate group <;> rfl
  rw [heq, heq, selectedCandidate_perm h]

/-- The records that claim a GTIN, in the order of their first candidates. -/
theorem map_sourceRecordId_rivalOutcomes :
    (rivalOutcomes (recordOutcomes host candidates recordedAt) ean).map
        CatalogOutcome.sourceRecordId =
      (sourceRecordIds candidates).filter fun id =>
        (acceptedRecord (candidatesOf candidates id)).map ProductSourceRecord.ean = some ean := by
  rw [rivalOutcomes, recordOutcomes, List.filter_map, List.map_map]
  refine (List.map_congr_left fun id _ => sourceRecordId_recordOutcome_candidatesOf id).trans ?_
  refine (List.map_id _).trans (List.filter_congr fun id _ => ?_)
  show decide ((recordOutcome host recordedAt id (candidatesOf candidates id)).acceptedEan = some ean) = _
  rw [acceptedEan_recordOutcome]

/-- `conflictSourceRecordIds` of an outcome that is a conflict. -/
def CatalogOutcome.conflictSourceRecordIds : CatalogOutcome → Option (List JsString)
  | .accepted _ => none
  | .rejected outcome =>
    match outcome.normalizedRecord with
    | .outcome _ => none
    | .conflict _ ids _ => some ids

/-- **A conflict names its records in the order of their candidates**, where the comparison does not
put one before the other. -/
theorem exists_conflict_withRecordFirst (recordedAt : ℤ) {id record : JsString}
    (hid : id ∈ sourceRecordIds candidates) (hid' : id' ∈ sourceRecordIds candidates)
    (hne : id ≠ id') (hle : (host.localeCompare id id').isLE = true)
    (haccepted : (acceptedRecord (candidatesOf candidates id)).map ProductSourceRecord.ean = some ean)
    (haccepted' : (acceptedRecord (candidatesOf candidates id')).map ProductSourceRecord.ean = some ean)
    (hrecord : record = id ∨ record = id') :
    ∃ outcome ∈ canonicalCatalogOutcomes host (withRecordFirst candidates id) recordedAt,
      outcome.sourceRecordId = record ∧ ∃ ids, outcome.conflictSourceRecordIds = some ids ∧
        ids.Nodup ∧ List.Sublist [id, id'] ids := by
  have hperm : (withRecordFirst candidates id).Perm candidates := withRecordFirst_perm id
  have hclaims (other : JsString) (h : other = id ∨ other = id') :
      (acceptedRecord (candidatesOf (withRecordFirst candidates id) other)).map ProductSourceRecord.ean =
        some ean := by
    rw [acceptedRecord_perm (candidatesOf_perm hperm other)]
    rcases h with rfl | rfl
    · exact haccepted
    · exact haccepted'
  obtain ⟨ids, hids⟩ : ∃ ids, ids =
      (rivalOutcomes (recordOutcomes host (withRecordFirst candidates id) recordedAt) ean).map
        CatalogOutcome.sourceRecordId := ⟨_, rfl⟩
  have hnodup : ids.Nodup := by
    rw [hids, map_sourceRecordId_rivalOutcomes]
    exact nodup_sourceRecordIds.filter _
  have hsublist : List.Sublist [id, id'] ids := by
    rw [hids, map_sourceRecordId_rivalOutcomes]
    have hfilter := (sublist_withRecordFirst hid hid' hne).filter fun other =>
      decide ((acceptedRecord (candidatesOf (withRecordFirst candidates id) other)).map
        ProductSourceRecord.ean = some ean)
    have hpair : ∀ other ∈ [id, id'], decide ((acceptedRecord
        (candidatesOf (withRecordFirst candidates id) other)).map ProductSourceRecord.ean = some ean) := by
      intro other hother
      exact decide_eq_true (hclaims other (by simpa using hother))
    rwa [List.filter_eq_self.mpr hpair] at hfilter
  have hlength : 2 ≤ (rivalOutcomes (recordOutcomes host (withRecordFirst candidates id) recordedAt)
      ean).length := by
    have hle := hsublist.length_le
    rwa [hids, List.length_map] at hle
  have hmem : record ∈ sourceRecordIds (withRecordFirst candidates id) := by
    rw [(sourceRecordIds_perm hperm).mem_iff]
    rcases hrecord with rfl | rfl
    · exact hid
    · exact hid'
  refine ⟨_, mem_canonicalCatalogOutcomes.mpr ⟨record, hmem, rfl⟩, ?_,
    sortBy host.localeCompare (sortBy host.localeCompare ids), ?_, ?_, ?_⟩
  · rw [sourceRecordId_finalOutcome, sourceRecordId_recordOutcome_candidatesOf]
  · rw [finalOutcome, acceptedEan_recordOutcome, hclaims record hrecord, hids]
    dsimp only
    rw [if_pos hlength]
    rfl
  · exact nodup_sortBy.mpr (nodup_sortBy.mpr hnodup)
  · exact List.pair_sublist_insertionSort hle (List.pair_sublist_insertionSort hle hsublist)

/-- The outcomes depend on the order of the candidates, where the comparison does not order the
records of a GTIN.

**Proof sketch.** Put the candidates of one of the two records in front, or those of the other. The
conflict of the first record then names the records in the one order, or in the other. -/
theorem rivalsAreOrdered_of_order [Std.TransCmp host.localeCompare]
    (h : ∀ candidates', List.Perm candidates' candidates → ∀ outcome,
      outcome ∈ canonicalCatalogOutcomes host candidates' recordedAt ↔
        outcome ∈ canonicalCatalogOutcomes host candidates recordedAt) :
    RivalsAreOrdered host candidates := by
  refine rivalsAreOrdered_iff.mpr fun id hid id' hid' ean haccepted haccepted' heq => ?_
  by_contra hne
  have hle : (host.localeCompare id id').isLE = true := by rw [heq]; rfl
  have hswap : host.localeCompare id' id = (host.localeCompare id id').swap :=
    Std.OrientedCmp.eq_swap
  have hle' : (host.localeCompare id' id).isLE = true := by rw [hswap, heq]; rfl
  obtain ⟨outcome, hmem, hrecord, ids, hids, hnodup, hsublist⟩ :=
    exists_conflict_withRecordFirst recordedAt hid hid' hne hle haccepted haccepted' (.inl rfl)
  obtain ⟨outcome', hmem', hrecord', ids', hids', -, hsublist'⟩ :=
    exists_conflict_withRecordFirst recordedAt hid' hid (Ne.symm hne) hle' haccepted' haccepted
      (.inr rfl)
  have hsame : outcome = outcome' := List.inj_on_of_nodup_map
    (map_sourceRecordId_perm.nodup_iff.mpr nodup_sourceRecordIds)
    ((h _ (withRecordFirst_perm id) outcome).mp hmem)
    ((h _ (withRecordFirst_perm id') outcome').mp hmem') (hrecord.trans hrecord'.symm)
  obtain rfl : ids = ids' := Option.some.inj (hids.symm.trans (hsame ▸ hids'))
  exact not_sublist_of_sublist hnodup hsublist hsublist'

end Order

/-! ### What the outcomes promise -/

/-- What the outcomes promise. Each record has one outcome, and each GTIN at most one that is
accepted. An accepted record is one that its candidates agree on, and the candidates of no other
record agree on a record of its GTIN. In another order, the candidates have the same outcomes. -/
structure CatalogOutcomesHold (host : Host) (candidates : List CatalogSourceCandidate)
    (recordedAt : ℤ) : Prop where
  one : ((canonicalCatalogOutcomes host candidates recordedAt).map
    CatalogOutcome.sourceRecordId).Perm (candidates.map catalogSourceRecordId).dedup
  unique : ∀ ean, ((canonicalCatalogOutcomes host candidates recordedAt).filter fun outcome =>
    outcome.acceptedEan = some ean).length ≤ 1
  agreed : ∀ outcome,
    CatalogOutcome.accepted outcome ∈ canonicalCatalogOutcomes host candidates recordedAt →
    outcome.subjectEan = outcome.normalizedRecord.ean ∧
      CandidatesAgree (candidatesOf candidates outcome.sourceRecordId) outcome.normalizedRecord ∧
      ∀ candidate ∈ candidates, catalogSourceRecordId candidate ≠ outcome.sourceRecordId →
        ∀ record, CandidatesAgree (candidatesOf candidates (catalogSourceRecordId candidate)) record →
          record.ean ≠ outcome.subjectEan
  order : ∀ candidates', List.Perm candidates' candidates → ∀ outcome,
    outcome ∈ canonicalCatalogOutcomes host candidates' recordedAt ↔
      outcome ∈ canonicalCatalogOutcomes host candidates recordedAt

theorem sourceRecordIds_perm_dedup :
    (sourceRecordIds candidates).Perm (candidates.map catalogSourceRecordId).dedup :=
  (List.perm_ext_iff_of_nodup nodup_sourceRecordIds (List.nodup_dedup _)).mpr fun id => by
    rw [mem_sourceRecordIds, List.mem_dedup, List.mem_map]

theorem eq_of_mem_of_length_le_one {α : Type} {l : List α} {a b : α} (h : l.length ≤ 1) (ha : a ∈ l)
    (hb : b ∈ l) : a = b := by
  cases l with
  | nil => cases ha
  | cons first rest =>
    have hrest : rest = [] := List.length_eq_zero_iff.mp (Nat.le_zero.mp (Nat.le_of_succ_le_succ h))
    rw [hrest, List.mem_singleton] at ha hb
    rw [ha, hb]

/-- An accepted outcome stands for a record that its candidates agree on, as the only one of its
GTIN. -/
theorem agreed_of_accepted {outcome : AcceptedCatalogOutcome}
    (h : CatalogOutcome.accepted outcome ∈ canonicalCatalogOutcomes host candidates recordedAt) :
    outcome.subjectEan = outcome.normalizedRecord.ean ∧
      CandidatesAgree (candidatesOf candidates outcome.sourceRecordId) outcome.normalizedRecord ∧
      ∀ candidate ∈ candidates, catalogSourceRecordId candidate ≠ outcome.sourceRecordId →
        ∀ record, CandidatesAgree (candidatesOf candidates (catalogSourceRecordId candidate)) record →
          record.ean ≠ outcome.subjectEan := by
  obtain ⟨id, hid, hfinal⟩ := mem_canonicalCatalogOutcomes.mp h
  obtain ⟨hkept, haccepted, hone⟩ := acceptedEan_finalOutcome (congrArg CatalogOutcome.acceptedEan hfinal)
  have hrecord := hkept.symm.trans hfinal
  obtain ⟨hagreed, hean⟩ := acceptedRecord_of_accepted hrecord
  have hid' : id = outcome.sourceRecordId :=
    (sourceRecordId_recordOutcome_candidatesOf id).symm.trans
      (congrArg CatalogOutcome.sourceRecordId hrecord)
  subst hid'
  refine ⟨hean, candidatesAgree_of_acceptedRecord hagreed, ?_⟩
  intro candidate hcandidate hne record hagree hrival
  have hother := mem_sourceRecordIds.mpr ⟨candidate, hcandidate, rfl⟩
  have hclaims := (mem_rivalOutcomes host candidates recordedAt outcome.subjectEan).mpr
    ⟨hother, by rw [(acceptedRecord_candidatesOf_iff hother).mpr hagree, Option.map_some, hrival]⟩
  have hself := (mem_rivalOutcomes host candidates recordedAt outcome.subjectEan).mpr
    ⟨hid, by rw [hagreed, Option.map_some, hean]⟩
  rw [← List.length_map (f := CatalogOutcome.sourceRecordId)] at hone
  exact hne (eq_of_mem_of_length_le_one hone hclaims hself)

/-- **The outcomes keep their promise** if and only if the comparison orders the records of each
GTIN. -/
theorem catalogOutcomesHold_iff (host : Host) [Std.TransCmp host.localeCompare]
    (candidates : List CatalogSourceCandidate) (recordedAt : ℤ) :
    CatalogOutcomesHold host candidates recordedAt ↔ RivalsAreOrdered host candidates :=
  ⟨fun h => rivalsAreOrdered_of_order h.order, fun h =>
    { one := map_sourceRecordId_perm.trans sourceRecordIds_perm_dedup
      unique := length_filter_accepted_le
      agreed := fun _ => agreed_of_accepted
      order := fun _ hperm => mem_canonicalCatalogOutcomes_perm hperm h }⟩

namespace Example

theorem isValidGtin_target : isValidGtin (js "70000009") = true := rfl

/-- A record of an exact request, accepted under an identifier. -/
def exact (sourceRecordId : JsString) : CatalogSourceCandidate where
  origin := .exact
  outcome := .accepted
    { sourceRecordId
      retrievedAt := 0
      ean := js "70000009"
      name := js "Melk"
      isValidEan := isValidGtin_target }
  targetEan := js "70000009"

/-- A record that was discovered, and read again under another name, and another one of its GTIN. -/
def reread : List CatalogSourceCandidate :=
  [{ origin := .discovery
     outcome := .accepted
      { sourceRecordId := js "117"
        retrievedAt := 0
        ean := js "70000009"
        name := js "Lettmelk"
        isValidEan := isValidGtin_target }
     targetEan := js "70000009" },
   exact (js "117"), exact (js "118")]

/-- Texts are compared by their canonical decomposition, here of the letter é only. -/
def decomposing : Host :=
  { Host.ascii with
    localeCompare := on
      (fun s : JsString => s.flatMap fun u => if u = 0xE9 then [0x65, 0x301] else [u]) compareText }

/-- Two records of one GTIN, the identifiers of which are one letter, composed or not. -/
def composed : List CatalogSourceCandidate := [exact [0xE9], exact [0x65, 0x301]]

end Example

/-- The comparison orders the two records of one GTIN, so their outcomes do not depend on it. -/
theorem catalogOutcomesHold_reread : CatalogOutcomesHold Host.ascii Example.reread 0 := by
  refine (catalogOutcomesHold_iff Host.ascii Example.reread 0).mpr ?_
  have hids : ∀ candidate ∈ Example.reread, ∀ candidate' ∈ Example.reread,
      Host.ascii.localeCompare (catalogSourceRecordId candidate)
        (catalogSourceRecordId candidate') = .eq →
      catalogSourceRecordId candidate = catalogSourceRecordId candidate' := by decide +kernel
  intro candidate hmem candidate' hmem' _ _ _ _ _ heq
  exact hids candidate hmem candidate' hmem' heq

/-- **The outcomes depend on the order of the candidates** where two identifiers of one GTIN are
equal in the language. -/
theorem not_catalogOutcomesHold_composed :
    ¬ CatalogOutcomesHold Example.decomposing Example.composed 0 := by
  intro h
  have hsame := h.order [Example.exact [0x65, 0x301], Example.exact [0xE9]] (List.Perm.swap _ _ _)
    (catalogConflictOutcome Example.decomposing 2 [[0xE9], [0x65, 0x301]] .subjectEan 0 [0xE9]
      (some (js "70000009")))
  exact absurd (hsame.mpr (by decide +kernel)) (by decide +kernel)

end Handleplan.Kassalapp
