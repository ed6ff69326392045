import Handleplan.Domain.FrontierV2Canonical

/-!
# Travel for all plans or for none

Travel evidence is optional: its entries come from outside and may be anything. They are used only
when they give each valid plan its travel, one entry for each; otherwise all plans are price-only.

## Main definitions

* `FrontierV2.TravelEvidenceInput` — an entry as it comes in.
* `FrontierV2.attachTravelEvidence` — the attachment, with its loop over the entries.
* `FrontierV2.IsEvidenceFor` — the entries are one for each valid plan.
* `FrontierV2.Faulty` — what can be wrong with the entries.
* `FrontierV2.AllOrNothing` — the attachment gives travel to all plans or to none.

## Main results

* `FrontierV2.foldlM_addTravelEntry` — when the loop reaches its end.
* `FrontierV2.exists_isEvidenceFor_iff` — entries without fault are one for each plan.
* `FrontierV2.attachTravelEvidence_record` — on entries of the right shape this is the
  attachment the projection uses.
* `FrontierV2.allOrNothing_attachTravelEvidence` — the attachment is all or nothing.

## Implementation notes

The loop returns early at the first entry it refuses. Whatever it refuses, the outcome is the same,
so an entry of another shape is one value.
-/

namespace Handleplan.FrontierV2

open JsString Sorting

/-! ### Entries -/

/-- An entry of the travel evidence: a record with a plan and its travel, or anything else, such as
a value that is no record, or a record whose `planId` is no text or whose `travel` is no travel
result. -/
inductive TravelEvidenceInput where
  | malformed
  | record (entry : PlanTravelEvidence)

/-- The plan an entry names. -/
def TravelEvidenceInput.planId : TravelEvidenceInput → Option JsString
  | .malformed => none
  | .record entry => some entry.planId

/-- The entry that gives a plan its travel. -/
def travelEntry (e : JsString × CalculatedTravel) : TravelEvidenceInput :=
  .record ⟨e.1, .calculated e.2⟩

/-- One round of the loop over the entries. -/
def addTravelEntry (planIds : List JsString) (travelByPlanId : JsMap JsString CalculatedTravel) :
    TravelEvidenceInput → Option (JsMap JsString CalculatedTravel)
  | .malformed => none
  | .record entry =>
    if ¬ IdentifierSchema entry.planId then none
    else if entry.planId ∉ planIds ∨ travelByPlanId.has entry.planId = true then none
    else
      match acceptedTravel entry with
      | none => none
      | some travel => some (travelByPlanId.set entry.planId travel)

/-- `attachOptionalTravelEvidenceV2`, with the loop over entries of any shape. -/
def attachTravelEvidence (plans : List CandidateInput)
    (travelEvidence : Option (List TravelEvidenceInput)) : List FrontierPlanV2 :=
  let validPlans := (canonicalCandidates plans).map fun c =>
    FrontierPlanV2.mk (canonicalPlan c.plan) none
  let priceOnly := orderCandidates validPlans
  match travelEvidence with
  | none => priceOnly
  | some evidence =>
    if evidence.length ≠ validPlans.length then priceOnly
    else
      match evidence.foldlM (addTravelEntry (validPlans.map (·.id))) [] with
      | none => priceOnly
      | some travelByPlanId =>
        if travelByPlanId.length ≠ validPlans.length then priceOnly
        else
          orderCandidates (validPlans.map fun c =>
            ⟨canonicalPlan c.plan, travelByPlanId.get? c.id⟩)

/-! ### All or nothing -/

/-- The entries are one for each valid plan, which gives it this travel. -/
structure IsEvidenceFor (plans : List CandidateInput) (evidence : List TravelEvidenceInput)
    (travelOf : JsString → CalculatedTravel) : Prop where
  perm : evidence.Perm ((canonicalCandidates plans).map fun c => travelEntry (c.id, travelOf c.id))
  schema : ∀ c ∈ canonicalCandidates plans, TravelCalculatedSchema (travelOf c.id)

/-- An entry that is no record of a plan with a calculated travel, exactly. -/
def Refused : TravelEvidenceInput → Prop
  | .malformed => True
  | .record entry => ¬ IdentifierSchema entry.planId ∨ acceptedTravel entry = none

/-- What can be wrong with the entries. -/
inductive Faulty (plans : List CandidateInput) (evidence : List TravelEvidenceInput) : Prop where
  /-- A valid plan has no entry. -/
  | missing (c : FrontierPlanV2) (valid : c ∈ canonicalCandidates plans)
      (absent : ∀ input ∈ evidence, input.planId ≠ some c.id)
  /-- A plan has two entries. -/
  | duplicate (twice : ¬ (evidence.filterMap (·.planId)).Nodup)
  /-- An entry names no valid plan. -/
  | foreign (input : TravelEvidenceInput) (mem : input ∈ evidence) (id : JsString)
      (named : input.planId = some id) (unknown : id ∉ (canonicalCandidates plans).map (·.id))
  /-- An entry is malformed. -/
  | malformed (input : TravelEvidenceInput) (mem : input ∈ evidence) (refused : Refused input)

/-- **What it means to attach all or nothing.** -/
structure AllOrNothing (plans : List CandidateInput)
    (travelEvidence : Option (List TravelEvidenceInput)) : Prop where
  /-- Every valid plan comes back price-only, or every one with the travel of its one entry. -/
  either : (attachTravelEvidence plans travelEvidence).Perm
      ((canonicalCandidates plans).map fun c => FrontierPlanV2.mk c.plan none) ∨
    ∃ evidence ∈ travelEvidence, ∃ travelOf, IsEvidenceFor plans evidence travelOf ∧
      (attachTravelEvidence plans travelEvidence).Perm
        ((canonicalCandidates plans).map fun c =>
          FrontierPlanV2.mk c.plan (some (travelOf c.id)))
  /-- A fault anywhere gives what is given without evidence. -/
  priceOnly : ∀ evidence ∈ travelEvidence, Faulty plans evidence →
    attachTravelEvidence plans travelEvidence = attachTravelEvidence plans none
  /-- Without fault each valid plan gets its travel. -/
  travel : ∀ evidence ∈ travelEvidence, ¬ Faulty plans evidence →
    ∃ travelOf, IsEvidenceFor plans evidence travelOf ∧
      (attachTravelEvidence plans travelEvidence).Perm
        ((canonicalCandidates plans).map fun c =>
          FrontierPlanV2.mk c.plan (some (travelOf c.id)))
  /-- The order of the entries does not matter. -/
  order : ∀ evidence ∈ travelEvidence, ∀ evidence', evidence'.Perm evidence →
    attachTravelEvidence plans (some evidence') = attachTravelEvidence plans travelEvidence

/-! ### The loop -/

section Loop

variable {planIds : List JsString} {evidence : List TravelEvidenceInput}

/-- The loop goes on from an entry that gives a known plan an accepted travel, its first. -/
theorem addTravelEntry_eq_some_iff {held after : JsMap JsString CalculatedTravel}
    {input : TravelEvidenceInput} :
    addTravelEntry planIds held input = some after ↔
      ∃ e : JsString × CalculatedTravel, input = travelEntry e ∧ IdentifierSchema e.1 ∧
        TravelCalculatedSchema e.2 ∧ e.1 ∈ planIds ∧ e.1 ∉ held.keys ∧
          after = held.set e.1 e.2 := by
  constructor
  · intro h
    cases input with
    | malformed => cases h
    | record entry =>
      unfold addTravelEntry at h
      dsimp only at h
      split_ifs at h with hidentifier hknown
      rw [not_or, not_not, JsMap.has_iff_mem_keys] at hknown
      split at h
      · cases h
      · rename_i travel htravel
        obtain ⟨planId, result⟩ := entry
        obtain ⟨rfl, hschema⟩ : result = .calculated travel ∧ TravelCalculatedSchema travel := by
          unfold acceptedTravel at htravel
          split at htravel
          · rename_i t hresult
            split_ifs at htravel with hschema
            cases htravel
            exact ⟨hresult, hschema⟩
          · cases htravel
        exact ⟨(planId, travel), rfl, hidentifier, hschema, hknown.1, hknown.2,
          (Option.some.inj h).symm⟩
  · rintro ⟨⟨planId, travel⟩, rfl, hidentifier, hschema, hknown, hfirst, rfl⟩
    simp only [travelEntry, addTravelEntry]
    rw [if_neg (not_not.mpr hidentifier), if_neg, acceptedTravel_calculated hschema]
    rw [not_or, not_not, JsMap.has_iff_mem_keys]
    exact ⟨hknown, hfirst⟩

/-- **When the loop reaches its end**: the entries are those of distinct known plans with accepted
travels, which the loop has collected. -/
theorem foldlM_addTravelEntry {held after : JsMap JsString CalculatedTravel} :
    evidence.foldlM (addTravelEntry planIds) held = some after ↔
      ∃ entries : List (JsString × CalculatedTravel), evidence = entries.map travelEntry ∧
        (∀ e ∈ entries, IdentifierSchema e.1 ∧ TravelCalculatedSchema e.2 ∧ e.1 ∈ planIds) ∧
          (∀ e ∈ entries, e.1 ∉ held.keys) ∧ (entries.map (·.1)).Nodup ∧
            after = held ++ entries := by
  induction evidence generalizing held with
  | nil =>
    simp only [List.foldlM_nil, Option.pure_def, Option.some.injEq]
    constructor
    · rintro rfl
      exact ⟨[], rfl, by simp, by simp, List.nodup_nil, by simp⟩
    · rintro ⟨entries, hnil, -, -, -, rfl⟩
      rw [List.map_eq_nil_iff.mp hnil.symm, List.append_nil]
  | cons input evidence ih =>
    rw [List.foldlM_cons, Option.bind_eq_bind, Option.bind_eq_some_iff]
    constructor
    · rintro ⟨next, hnext, hrest⟩
      obtain ⟨e, rfl, hidentifier, hschema, hknown, hfirst, rfl⟩ :=
        addTravelEntry_eq_some_iff.mp hnext
      obtain ⟨entries, rfl, hvalid, hfresh, hnodup, rfl⟩ := ih.mp hrest
      have hkeys : ∀ e' ∈ entries, e'.1 ≠ e.1 ∧ e'.1 ∉ held.keys := by
        intro e' he'
        have hnot := hfresh e' he'
        rw [JsMap.mem_keys_set, not_or] at hnot
        exact hnot
      refine ⟨e :: entries, rfl, List.forall_mem_cons.mpr ⟨⟨hidentifier, hschema, hknown⟩, hvalid⟩,
        List.forall_mem_cons.mpr ⟨hfirst, fun e' he' => (hkeys e' he').2⟩, ?_, ?_⟩
      · rw [List.map_cons, List.nodup_cons]
        refine ⟨fun hmem => ?_, hnodup⟩
        obtain ⟨e', he', heq⟩ := List.mem_map.mp hmem
        exact (hkeys e' he').1 heq
      · rw [JsMap.set_of_notMem hfirst, List.append_assoc]
        rfl
    · rintro ⟨entries, hentries, hvalid, hfresh, hnodup, rfl⟩
      obtain ⟨e, entries, rfl, rfl, rfl⟩ := List.map_eq_cons_iff.mp hentries.symm
      obtain ⟨⟨hidentifier, hschema, hknown⟩, hrest⟩ := List.forall_mem_cons.mp hvalid
      obtain ⟨hfirst, hfreshRest⟩ := List.forall_mem_cons.mp hfresh
      obtain ⟨hnotMem, hnodupRest⟩ := List.nodup_cons.mp hnodup
      refine ⟨_, addTravelEntry_eq_some_iff.mpr
        ⟨e, rfl, hidentifier, hschema, hknown, hfirst, rfl⟩, ih.mpr
          ⟨entries, rfl, hrest, fun e' he' => ?_, hnodupRest, ?_⟩⟩
      · rw [JsMap.mem_keys_set, not_or]
        refine ⟨fun heq => hnotMem ?_, hfreshRest e' he'⟩
        exact List.mem_map.mpr ⟨e', he', heq⟩
      · rw [JsMap.set_of_notMem hfirst, List.append_assoc]
        rfl

end Loop

/-! ### Evidence for each plan -/

section Evidence

variable {plans : List CandidateInput} {evidence : List TravelEvidenceInput}
  {travelOf : JsString → CalculatedTravel}

/-- The valid plans, in canonical form and without travel. -/
theorem validPlans_eq (plans : List CandidateInput) :
    ((canonicalCandidates plans).map fun c => FrontierPlanV2.mk (canonicalPlan c.plan) none) =
      (canonicalCandidates plans).map fun c => FrontierPlanV2.mk c.plan none :=
  List.map_congr_left fun c hc => by rw [(schema_of_mem_canonicalCandidates hc).2]

/-- Giving the valid plans their travel keeps their identifiers. -/
theorem map_id_validPlans (plans : List CandidateInput)
    (travel : FrontierPlanV2 → Option CalculatedTravel) :
    ((canonicalCandidates plans).map fun c => FrontierPlanV2.mk c.plan (travel c)).map (·.id) =
      (canonicalCandidates plans).map (·.id) := by
  rw [List.map_map]
  rfl

/-- The valid plans with their travel, in order, are the valid plans with their travel. -/
theorem orderCandidates_validPlans_perm (plans : List CandidateInput)
    (travel : FrontierPlanV2 → Option CalculatedTravel) :
    (orderCandidates ((canonicalCandidates plans).map fun c =>
      FrontierPlanV2.mk c.plan (travel c))).Perm
        ((canonicalCandidates plans).map fun c => FrontierPlanV2.mk c.plan (travel c)) := by
  refine orderCandidates_perm ?_
  rw [map_id_validPlans]
  exact nodup_ids_canonicalCandidates plans

theorem attachTravelEvidence_none (plans : List CandidateInput) :
    attachTravelEvidence plans none =
      orderCandidates ((canonicalCandidates plans).map fun c => FrontierPlanV2.mk c.plan none) := by
  unfold attachTravelEvidence
  rw [validPlans_eq]

/-- The attachment in terms of what the loop collects. -/
theorem attachTravelEvidence_some (plans : List CandidateInput)
    (evidence : List TravelEvidenceInput) :
    attachTravelEvidence plans (some evidence) =
      if evidence.length ≠ (canonicalCandidates plans).length then attachTravelEvidence plans none
      else
        match evidence.foldlM (addTravelEntry ((canonicalCandidates plans).map (·.id))) [] with
        | none => attachTravelEvidence plans none
        | some travelByPlanId =>
          if travelByPlanId.length ≠ (canonicalCandidates plans).length then
            attachTravelEvidence plans none
          else
            orderCandidates ((canonicalCandidates plans).map fun c =>
              ⟨c.plan, travelByPlanId.get? c.id⟩) := by
  have htravel : ∀ travelByPlanId : JsMap JsString CalculatedTravel,
      (((canonicalCandidates plans).map fun c => FrontierPlanV2.mk c.plan none).map fun c =>
        FrontierPlanV2.mk (canonicalPlan c.plan) (travelByPlanId.get? c.id)) =
          (canonicalCandidates plans).map fun c => ⟨c.plan, travelByPlanId.get? c.id⟩ := by
    intro travelByPlanId
    rw [List.map_map]
    refine List.map_congr_left fun c hc => ?_
    rw [Function.comp_apply, (schema_of_mem_canonicalCandidates hc).2]
    rfl
  rw [attachTravelEvidence_none]
  unfold attachTravelEvidence
  rw [validPlans_eq]
  dsimp only
  rw [map_id_validPlans, List.length_map]
  simp only [htravel]

/-- Evidence for the plans is a list of entries the loop accepts, one for each plan. -/
theorem IsEvidenceFor.exists_entries (h : IsEvidenceFor plans evidence travelOf) :
    ∃ entries : List (JsString × CalculatedTravel), evidence = entries.map travelEntry ∧
      entries.Perm ((canonicalCandidates plans).map fun c => (c.id, travelOf c.id)) := by
  have hperm : evidence.Perm
      (((canonicalCandidates plans).map fun c => (c.id, travelOf c.id)).map travelEntry) := by
    rw [List.map_map]
    exact h.perm
  have hcomp := congrFun (congrFun (List.eq_map_comp_perm travelEntry) evidence)
    ((canonicalCandidates plans).map fun c => (c.id, travelOf c.id))
  obtain ⟨entries, heq, hentries⟩ := hcomp.mpr hperm
  exact ⟨entries, heq, hentries⟩

/-- A valid plan has an exact identifier. -/
theorem identifierSchema_of_mem {c : FrontierPlanV2} (hc : c ∈ canonicalCandidates plans) :
    IdentifierSchema c.id := (schema_of_mem_canonicalCandidates hc).1.1.id

/-- **Evidence for the plans gives each of them its travel.** -/
theorem IsEvidenceFor.attachTravelEvidence (h : IsEvidenceFor plans evidence travelOf) :
    FrontierV2.attachTravelEvidence plans (some evidence) =
      orderCandidates ((canonicalCandidates plans).map fun c =>
        FrontierPlanV2.mk c.plan (some (travelOf c.id))) := by
  obtain ⟨entries, rfl, hperm⟩ := h.exists_entries
  have hmem : ∀ e ∈ entries, ∃ c ∈ canonicalCandidates plans, (c.id, travelOf c.id) = e :=
    fun e he => List.mem_map.mp (hperm.mem_iff.mp he)
  have hids : (entries.map (·.1)).Perm ((canonicalCandidates plans).map (·.id)) := by
    have hfst := hperm.map (·.1)
    rwa [List.map_map] at hfst
  have hnodup : (entries.map (·.1)).Nodup :=
    hids.nodup_iff.mpr (nodup_ids_canonicalCandidates plans)
  have hfold : (entries.map travelEntry).foldlM
      (addTravelEntry ((canonicalCandidates plans).map (·.id))) [] = some entries := by
    refine foldlM_addTravelEntry.mpr
      ⟨entries, rfl, fun e he => ?_, fun e _ => List.not_mem_nil, hnodup, rfl⟩
    obtain ⟨c, hc, rfl⟩ := hmem e he
    exact ⟨identifierSchema_of_mem hc, h.schema c hc, List.mem_map_of_mem hc⟩
  have hlength : entries.length = (canonicalCandidates plans).length := by
    rw [hperm.length_eq, List.length_map]
  rw [attachTravelEvidence_some, if_neg (by rw [List.length_map, hlength, not_not]), hfold]
  dsimp only
  rw [if_neg (not_not.mpr hlength)]
  congr 1
  refine List.map_congr_left fun c hc => ?_
  congr 1
  refine (JsMap.mem_iff_get? hnodup _ _).mp (hperm.mem_iff.mpr ?_)
  exact List.mem_map.mpr ⟨c, hc, rfl⟩

/-- Accepted entries of distinct plans, as many as there are valid ones and all for valid ones, are
evidence for the plans. -/
theorem exists_isEvidenceFor_of_entries {entries : List (JsString × CalculatedTravel)}
    (hschema : ∀ e ∈ entries, TravelCalculatedSchema e.2)
    (hnodup : (entries.map (·.1)).Nodup)
    (hids : (entries.map (·.1)).Perm ((canonicalCandidates plans).map (·.id))) :
    ∃ travelOf, IsEvidenceFor plans (entries.map travelEntry) travelOf := by
  -- the value of a plan without entry is never asked for
  let travelOf : JsString → CalculatedTravel := fun id =>
    (JsMap.get? entries id).getD ⟨0, 0, [], 0, []⟩
  have hself : ∀ e ∈ entries, travelOf e.1 = e.2 := by
    intro e he
    have hget := (JsMap.mem_iff_get? hnodup e.1 e.2).mp he
    simp only [travelOf, hget, Option.getD_some]
  refine ⟨travelOf, ?_, fun c hc => ?_⟩
  · have hentries : entries = (entries.map (·.1)).map fun id => (id, travelOf id) := by
      rw [List.map_map]
      refine ((List.map_congr_left fun e he => ?_).trans (List.map_id entries)).symm
      exact Prod.ext rfl (hself e he)
    have hperm := (hids.map fun id => (id, travelOf id)).map travelEntry
    rw [← hentries, List.map_map, List.map_map] at hperm
    exact hperm
  · obtain ⟨e, he, heq⟩ := List.mem_map.mp (hids.mem_iff.mpr (List.mem_map_of_mem hc))
    rw [← heq, hself e he]
    exact hschema e he

/-- **Without evidence for the plans they are price-only.** -/
theorem attachTravelEvidence_of_not (h : ¬ ∃ travelOf, IsEvidenceFor plans evidence travelOf) :
    attachTravelEvidence plans (some evidence) = attachTravelEvidence plans none := by
  rw [attachTravelEvidence_some]
  split_ifs with hlength
  · rfl
  · split
    · rfl
    · rename_i travelByPlanId hfold
      obtain ⟨entries, rfl, hvalid, -, hnodup, -⟩ := foldlM_addTravelEntry.mp hfold
      have hsubset : entries.map (·.1) ⊆ (canonicalCandidates plans).map (·.id) :=
        List.forall_mem_map.mpr fun e he => (hvalid e he).2.2
      have hids := (List.subperm_of_subset hnodup hsubset).perm_of_length_le (by
        rw [List.length_map] at hlength
        rw [List.length_map, List.length_map]
        omega)
      exact absurd (exists_isEvidenceFor_of_entries (fun e he => (hvalid e he).2.1) hnodup hids) h

/-! ### Faults -/

theorem planId_travelEntry (entries : List (JsString × CalculatedTravel)) :
    (entries.map travelEntry).filterMap (·.planId) = entries.map (·.1) := by
  rw [List.filterMap_map]
  exact congrFun (List.filterMap_eq_map (f := fun e : JsString × CalculatedTravel => e.1)) entries

/-- An entry that is not refused gives a plan its travel. -/
theorem exists_travelEntry_of_not_refused {input : TravelEvidenceInput} (h : ¬ Refused input) :
    ∃ e, input = travelEntry e ∧ TravelCalculatedSchema e.2 := by
  cases input with
  | malformed => exact absurd trivial h
  | record entry =>
    obtain ⟨planId, result⟩ := entry
    have haccepted := (not_or.mp h).2
    unfold acceptedTravel at haccepted
    split at haccepted
    · rename_i t hresult
      obtain rfl : result = .calculated t := hresult
      split_ifs at haccepted with hschema
      · exact ⟨(planId, t), rfl, hschema⟩
      · exact absurd rfl haccepted
    · exact absurd rfl haccepted

theorem exists_entries_of_not_refused (h : ∀ input ∈ evidence, ¬ Refused input) :
    ∃ entries : List (JsString × CalculatedTravel), evidence = entries.map travelEntry ∧
      ∀ e ∈ entries, TravelCalculatedSchema e.2 := by
  induction evidence with
  | nil => exact ⟨[], rfl, by simp⟩
  | cons input evidence ih =>
    obtain ⟨hinput, hrest⟩ := List.forall_mem_cons.mp h
    obtain ⟨e, rfl, hschema⟩ := exists_travelEntry_of_not_refused hinput
    obtain ⟨entries, rfl, hentries⟩ := ih hrest
    exact ⟨e :: entries, rfl, List.forall_mem_cons.mpr ⟨hschema, hentries⟩⟩

/-- **Entries without fault are one for each valid plan.** -/
theorem exists_isEvidenceFor_iff :
    (∃ travelOf, IsEvidenceFor plans evidence travelOf) ↔ ¬ Faulty plans evidence := by
  constructor
  · rintro ⟨travelOf, h⟩ hfaulty
    have hmem : ∀ input ∈ evidence, ∃ c ∈ canonicalCandidates plans,
        travelEntry (c.id, travelOf c.id) = input := fun input hinput =>
      List.mem_map.mp (h.perm.mem_iff.mp hinput)
    cases hfaulty with
    | missing c valid absent =>
      exact absent _ (h.perm.mem_iff.mpr (List.mem_map.mpr ⟨c, valid, rfl⟩)) rfl
    | duplicate twice =>
      obtain ⟨entries, rfl, hperm⟩ := h.exists_entries
      rw [planId_travelEntry] at twice
      have hfst := hperm.map (·.1)
      rw [List.map_map] at hfst
      exact twice (hfst.nodup_iff.mpr (nodup_ids_canonicalCandidates plans))
    | foreign input mem id named unknown =>
      obtain ⟨c, hc, rfl⟩ := hmem input mem
      obtain rfl : c.id = id := Option.some.inj named
      exact unknown (List.mem_map_of_mem hc)
    | malformed input mem refused =>
      obtain ⟨c, hc, rfl⟩ := hmem input mem
      rcases refused with hidentifier | haccepted
      · exact hidentifier (identifierSchema_of_mem hc)
      · rw [acceptedTravel_calculated (h.schema c hc)] at haccepted
        cases haccepted
  · intro hfault
    obtain ⟨entries, rfl, hschema⟩ := exists_entries_of_not_refused fun input hinput hrefused =>
      hfault (.malformed input hinput hrefused)
    have hnodup : (entries.map (·.1)).Nodup := by
      by_contra htwice
      exact hfault (.duplicate (by rwa [planId_travelEntry]))
    refine exists_isEvidenceFor_of_entries hschema hnodup ?_
    refine (List.perm_ext_iff_of_nodup hnodup (nodup_ids_canonicalCandidates plans)).mpr
      fun id => ⟨fun hid => ?_, fun hid => ?_⟩
    · obtain ⟨e, he, rfl⟩ := List.mem_map.mp hid
      by_contra hunknown
      exact hfault (.foreign (travelEntry e) (List.mem_map_of_mem he) e.1 rfl hunknown)
    · obtain ⟨c, hc, rfl⟩ := List.mem_map.mp hid
      by_contra habsent
      refine hfault (.missing c hc (List.forall_mem_map.mpr fun e he heq => habsent ?_))
      exact List.mem_map.mpr ⟨e, he, Option.some.inj heq⟩

/-- Evidence for the plans in another order is evidence for the plans. -/
theorem IsEvidenceFor.of_perm (h : IsEvidenceFor plans evidence travelOf)
    {evidence' : List TravelEvidenceInput} (hperm : evidence'.Perm evidence) :
    IsEvidenceFor plans evidence' travelOf := ⟨hperm.trans h.perm, h.schema⟩

/-! ### The attachment the projection uses -/

theorem planId_record (entries : List PlanTravelEvidence) :
    (entries.map TravelEvidenceInput.record).filterMap (·.planId) = entries.map (·.planId) := by
  rw [List.filterMap_map]
  exact congrFun (List.filterMap_eq_map (f := PlanTravelEvidence.planId)) entries

/-- Records that are complete evidence are without fault. -/
theorem not_faulty_of_complete {entries : List PlanTravelEvidence}
    (h : CompleteTravelEvidence ((canonicalCandidates plans).map (·.id)) entries) :
    ¬ Faulty plans (entries.map .record) := by
  intro hfaulty
  cases hfaulty with
  | missing c valid absent =>
    obtain ⟨entry, hentry, hid⟩ := h.exists_mem (List.mem_map_of_mem valid)
    exact absent (.record entry) (List.mem_map_of_mem hentry) (congrArg some hid)
  | duplicate twice =>
    rw [planId_record] at twice
    exact twice h.2.2
  | foreign input mem id named unknown =>
    obtain ⟨entry, hentry, rfl⟩ := List.mem_map.mp mem
    obtain rfl : entry.planId = id := Option.some.inj named
    exact unknown (h.2.1 entry hentry).2.1
  | malformed input mem refused =>
    obtain ⟨entry, hentry, rfl⟩ := List.mem_map.mp mem
    obtain ⟨hidentifier, -, haccepted⟩ := h.2.1 entry hentry
    rcases refused with hrefused | hrefused
    · exact hrefused hidentifier
    · rw [hrefused] at haccepted
      cases haccepted

/-- Records that are evidence for the plans are complete evidence with the travel of each. -/
theorem IsEvidenceFor.complete {entries : List PlanTravelEvidence}
    (h : IsEvidenceFor plans (entries.map .record) travelOf) :
    CompleteTravelEvidence ((canonicalCandidates plans).map (·.id)) entries ∧
      ∀ c ∈ canonicalCandidates plans,
        travelByPlanId entries c.id = some (travelOf c.id) := by
  have hfault : ¬ Faulty plans (entries.map .record) := exists_isEvidenceFor_iff.mp ⟨travelOf, h⟩
  have hnodup : (entries.map (·.planId)).Nodup := by
    by_contra htwice
    exact hfault (.duplicate (by rwa [planId_record]))
  refine ⟨⟨?_, fun entry hentry => ?_, hnodup⟩, fun c hc => ?_⟩
  · have hlength := h.perm.length_eq
    rw [List.length_map, List.length_map] at hlength
    rw [List.length_map, hlength]
  · obtain ⟨c, hc, heq⟩ := List.mem_map.mp (h.perm.mem_iff.mp (List.mem_map_of_mem hentry))
    obtain rfl := TravelEvidenceInput.record.inj heq
    refine ⟨identifierSchema_of_mem hc, List.mem_map_of_mem hc, ?_⟩
    rw [acceptedTravel_calculated (h.schema c hc)]
    rfl
  · obtain ⟨entry, hentry, heq⟩ :=
      List.mem_map.mp (h.perm.mem_iff.mpr (List.mem_map.mpr ⟨c, hc, rfl⟩))
    obtain rfl := TravelEvidenceInput.record.inj heq
    exact (travelByPlanId_of_mem hnodup hentry).trans (acceptedTravel_calculated (h.schema c hc))

/-- **On records the attachment is the one the projection uses.** -/
theorem attachTravelEvidence_record (entries : Option (List PlanTravelEvidence)) :
    attachTravelEvidence plans (entries.map (·.map .record)) =
      attachOptionalTravelEvidenceV2 plans entries := by
  cases entries with
  | none => rfl
  | some entries =>
    rw [Option.map_some]
    unfold attachOptionalTravelEvidenceV2
    dsimp only
    rw [validPlans_eq, map_id_validPlans]
    by_cases hcomplete :
        CompleteTravelEvidence ((canonicalCandidates plans).map (·.id)) entries
    · obtain ⟨travelOf, h⟩ := exists_isEvidenceFor_iff.mpr (not_faulty_of_complete hcomplete)
      rw [if_pos hcomplete, h.attachTravelEvidence, List.map_map]
      congr 1
      refine List.map_congr_left fun c hc => ?_
      rw [Function.comp_apply, (schema_of_mem_canonicalCandidates hc).2, ← h.complete.2 c hc]
      rfl
    · rw [if_neg hcomplete, attachTravelEvidence_of_not fun ⟨travelOf, h⟩ =>
        hcomplete h.complete.1, attachTravelEvidence_none]

/-! ### All or nothing -/

/-- **Travel is attached to all valid plans or to none.** -/
theorem allOrNothing_attachTravelEvidence (plans : List CandidateInput)
    (travelEvidence : Option (List TravelEvidenceInput)) : AllOrNothing plans travelEvidence := by
  have hnone : (attachTravelEvidence plans none).Perm
      ((canonicalCandidates plans).map fun c => FrontierPlanV2.mk c.plan none) := by
    rw [attachTravelEvidence_none]
    exact orderCandidates_validPlans_perm plans fun _ => none
  have hsome : ∀ evidence travelOf, IsEvidenceFor plans evidence travelOf →
      (attachTravelEvidence plans (some evidence)).Perm
        ((canonicalCandidates plans).map fun c =>
          FrontierPlanV2.mk c.plan (some (travelOf c.id))) := by
    intro evidence travelOf h
    rw [h.attachTravelEvidence]
    exact orderCandidates_validPlans_perm plans fun c => some (travelOf c.id)
  cases travelEvidence with
  | none => exact ⟨.inl hnone, by simp, by simp, by simp⟩
  | some evidence =>
    refine
      { either := ?_
        priceOnly := ?_
        travel := ?_
        order := ?_ }
    · by_cases h : ∃ travelOf, IsEvidenceFor plans evidence travelOf
      · obtain ⟨travelOf, h⟩ := h
        exact .inr ⟨evidence, rfl, travelOf, h, hsome evidence travelOf h⟩
      · rw [attachTravelEvidence_of_not h]
        exact .inl hnone
    · rintro _ ⟨⟩ hfaulty
      exact attachTravelEvidence_of_not fun h => exists_isEvidenceFor_iff.mp h hfaulty
    · rintro _ ⟨⟩ hfault
      obtain ⟨travelOf, h⟩ := exists_isEvidenceFor_iff.mpr hfault
      exact ⟨travelOf, h, hsome evidence travelOf h⟩
    · rintro _ ⟨⟩ evidence' hperm
      by_cases h : ∃ travelOf, IsEvidenceFor plans evidence travelOf
      · obtain ⟨travelOf, h⟩ := h
        rw [h.attachTravelEvidence, (h.of_perm hperm).attachTravelEvidence]
      · rw [attachTravelEvidence_of_not h, attachTravelEvidence_of_not]
        rintro ⟨travelOf, h'⟩
        exact h ⟨travelOf, h'.of_perm hperm.symm⟩

end Evidence

end Handleplan.FrontierV2
