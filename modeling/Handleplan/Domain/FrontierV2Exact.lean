import Handleplan.Domain.FrontierV2

/-!
# The frontier is exact

The published frontier holds exactly the canonical forms of the valid candidates that no valid
candidate of their cohort dominates, in an order that does not depend on the order of the input.

## Main definitions

* `FrontierV2.Cohort` — all plans of a list have travel, or none has.
* `FrontierV2.FrontierIsExact` — soundness, completeness, order independence and
  endpoints of the frontier.

## Main results

* `FrontierV2.mem_canonicalCandidates` — what a valid candidate is.
* `FrontierV2.orderCohortBy_perm`, `orderCohortBy_eq_of_perm` — ordering a cohort permutes it
  and does not depend on its order.
* `FrontierV2.frontierIsExact` — the frontier is exact.
-/

namespace Handleplan.FrontierV2

open JsString Sorting

/-! ### Valid candidates -/

variable {c : FrontierPlanV2} {candidates : List CandidateInput}

/-- What is parsed: a valid plan, and travel that is calculated. -/
theorem parseCandidate_eq_some_iff {input : CandidateInput} :
    parseCandidate input = some c ↔
      ∃ plan, PlanResultV2Schema plan ∧ (∀ t ∈ c.travel, TravelCalculatedSchema t) ∧
        input = .record plan (c.travel.map .calculated) ∧ c.plan = canonicalPlan plan := by
  obtain ⟨cplan, ctravel⟩ := c
  cases input with
  | malformed id => simp [parseCandidate]
  | record plan travel =>
    by_cases hplan : PlanResultV2Schema plan
    · rcases travel with _ | _ | reason | t
      · cases ctravel <;> simp [parseCandidate, hplan, eq_comm]
      · cases ctravel <;> simp [parseCandidate, hplan]
      · cases ctravel <;> simp [parseCandidate, hplan]
      · by_cases ht : TravelCalculatedSchema t
        · cases ctravel with
          | none => simp [parseCandidate, hplan, ht]
          | some t' =>
            simp only [parseCandidate, hplan, ht, not_true_eq_false, if_false, if_true,
              Option.some.injEq, FrontierPlanV2.mk.injEq, Option.mem_some_iff, forall_eq',
              Option.map_some, CandidateInput.record.injEq, TravelResult.calculated.injEq]
            constructor
            · rintro ⟨rfl, rfl⟩
              exact ⟨plan, hplan, ht, ⟨rfl, rfl⟩, rfl⟩
            · rintro ⟨plan', -, -, ⟨rfl, rfl⟩, rfl⟩
              exact ⟨rfl, rfl⟩
        · cases ctravel with
          | none => simp [parseCandidate, hplan, ht]
          | some t' =>
            simp only [parseCandidate, hplan, ht, not_true_eq_false, if_false, reduceCtorEq,
              Option.mem_some_iff, forall_eq', Option.map_some, CandidateInput.record.injEq,
              Option.some.injEq, TravelResult.calculated.injEq, false_iff]
            rintro ⟨plan', -, ht', ⟨-, rfl⟩, -⟩
            exact ht ht'
    · simp only [parseCandidate, hplan, not_false_eq_true, if_true, reduceCtorEq,
        CandidateInput.record.injEq, false_iff]
      rintro ⟨plan', hplan', -, ⟨rfl, -⟩, -⟩
      exact hplan hplan'

/-- **A valid candidate** is the canonical form of a schema-exact record of the input whose
identifier no other raw candidate has. -/
theorem mem_canonicalCandidates :
    c ∈ canonicalCandidates candidates ↔
      (∃ plan, PlanResultV2Schema plan ∧ (∀ t ∈ c.travel, TravelCalculatedSchema t) ∧
        CandidateInput.record plan (c.travel.map .calculated) ∈ candidates ∧
        c.plan = canonicalPlan plan) ∧
      (rawIds candidates).count c.id = 1 := by
  simp only [canonicalCandidates, List.mem_filter, List.mem_filterMap, decide_eq_true_eq,
    parseCandidate_eq_some_iff]
  refine and_congr_left fun _ => ⟨?_, ?_⟩
  · rintro ⟨input, hmem, plan, hplan, htravel, rfl, hcanonical⟩
    exact ⟨plan, hplan, htravel, hmem, hcanonical⟩
  · rintro ⟨plan, hplan, htravel, hmem, hcanonical⟩
    exact ⟨_, hmem, plan, hplan, htravel, rfl, hcanonical⟩

/-- The identifiers of what is parsed are among the raw ones. -/
theorem sublist_rawIds (candidates : List CandidateInput) :
    ((candidates.filterMap parseCandidate).map (·.id)).Sublist (rawIds candidates) := by
  induction candidates with
  | nil => exact List.Sublist.refl _
  | cons input candidates ih =>
    cases hparse : parseCandidate input with
    | none =>
      rw [List.filterMap_cons_none hparse]
      refine ih.trans ?_
      simp only [rawIds, List.filterMap_cons]
      cases input.id with
      | none => exact List.Sublist.refl _
      | some id => exact (List.sublist_cons_self id _).filter _
    | some c =>
      obtain ⟨plan, hplan, -, rfl, hcanonical⟩ := parseCandidate_eq_some_iff.mp hparse
      have hid : c.id = plan.id := by
        rw [FrontierPlanV2.id, hcanonical]
        rfl
      rw [List.filterMap_cons_some hparse, List.map_cons, hid]
      have hraw : rawIds (.record plan (c.travel.map .calculated) :: candidates) =
          plan.id :: rawIds candidates :=
        List.filter_cons_of_pos (decide_eq_true hplan.id)
      rw [hraw]
      exact ih.cons_cons _

/-- Valid candidates have distinct identifiers. -/
theorem nodup_ids_canonicalCandidates (candidates : List CandidateInput) :
    ((canonicalCandidates candidates).map (·.id)).Nodup := by
  rw [List.nodup_iff_count_le_one]
  intro id
  by_cases hid : id ∈ (canonicalCandidates candidates).map (·.id)
  · obtain ⟨c, hc, rfl⟩ := List.mem_map.mp hid
    have hone := (mem_canonicalCandidates.mp hc).2
    have hsub : ((canonicalCandidates candidates).map (·.id)).Sublist (rawIds candidates) :=
      (List.filter_sublist.map _).trans (sublist_rawIds candidates)
    exact (hsub.count_le _).trans hone.le
  · rw [List.count_eq_zero_of_not_mem hid]
    exact Nat.zero_le 1

theorem rawIds_perm {candidates' : List CandidateInput} (h : candidates.Perm candidates') :
    (rawIds candidates).Perm (rawIds candidates') :=
  (h.filterMap _).filter _

theorem canonicalCandidates_perm {candidates' : List CandidateInput}
    (h : candidates.Perm candidates') :
    (canonicalCandidates candidates).Perm (canonicalCandidates candidates') := by
  have hcount : (fun c : FrontierPlanV2 => decide ((rawIds candidates).count c.id = 1)) =
      fun c => decide ((rawIds candidates').count c.id = 1) := by
    funext c
    rw [(rawIds_perm h).count_eq]
  unfold canonicalCandidates
  rw [hcount]
  exact (h.filterMap _).filter _

/-! ### Dominance -/

theorem durationSeconds_of_not_hasTravel (h : hasTravel c = false) :
    durationSeconds c = 0 := by
  obtain ⟨plan, travel⟩ := c
  cases travel with
  | none => rfl
  | some t => cases h

/-- Dominance in the four quantities; a plan without travel takes no time. -/
theorem dominates_iff {left right : FrontierPlanV2} :
    dominates left right = true ↔ hasTravel left = hasTravel right ∧
      (left.plan.totalOre ≤ right.plan.totalOre ∧
        left.plan.chains.length ≤ right.plan.chains.length ∧
        left.plan.substitutions.length ≤ right.plan.substitutions.length ∧
        durationSeconds left ≤ durationSeconds right) ∧
      (left.plan.totalOre < right.plan.totalOre ∨
        left.plan.chains.length < right.plan.chains.length ∨
        left.plan.substitutions.length < right.plan.substitutions.length ∨
        durationSeconds left < durationSeconds right) := by
  unfold dominates
  by_cases hsame : hasTravel left = hasTravel right
  · rw [if_neg (not_not.mpr hsame)]
    cases hright : hasTravel right with
    | true => simp [hsame, hright, and_assoc, or_assoc]
    | false =>
      have hleft := hsame.trans hright
      simp [hleft, durationSeconds_of_not_hasTravel hleft, durationSeconds_of_not_hasTravel hright,
        and_assoc, or_assoc]
  · simp [hsame]

theorem strictOn_dominates (l : List FrontierPlanV2) : Pareto.StrictOn dominates l where
  irrefl c _ := by
    rw [Bool.eq_false_iff, Ne, dominates_iff]
    omega
  trans a _ b _ c _ hab hbc := by
    rw [dominates_iff] at hab hbc ⊢
    exact ⟨hab.1.trans hbc.1, by omega, by omega⟩

/-- Among plans with distinct identifiers the identifiers need not be compared. -/
theorem frontier_eq {l : List FrontierPlanV2} (h : (l.map (·.id)).Nodup) :
    Pareto.frontier (fun other c => other.id ≠ c.id && dominates other c) l =
      Pareto.frontier dominates l := by
  refine Pareto.frontier_congr fun c hc other hother => ?_
  by_cases hid : other.id = c.id
  · obtain rfl := List.inj_on_of_nodup_map h hother hc hid
    simp [(strictOn_dominates l).irrefl other hother]
  · simp [hid]

/-! ### Ordering a cohort -/

section Cohort

/-- All plans of the list have travel, or none has. -/
def Cohort (l : List FrontierPlanV2) : Prop := ∀ a ∈ l, ∀ b ∈ l, hasTravel a = hasTravel b

/-- The order of travel times. -/
abbrev compareDuration : FrontierPlanV2 → FrontierPlanV2 → Ordering := compareOn durationSeconds

variable {travel : FrontierPlanV2 → FrontierPlanV2 → Ordering} {l l' : List FrontierPlanV2}

instance [Std.TransCmp travel] : Std.TransCmp (compareConvenience travel) :=
  inferInstanceAs (Std.TransCmp (compareLex _ _))

instance [Std.TransCmp travel] : Std.TransCmp (compareSavings travel) :=
  inferInstanceAs (Std.TransCmp (compareLex _ _))

instance [Std.TransCmp travel] : Std.TransCmp (compareMiddle travel) :=
  inferInstanceAs (Std.TransCmp (compareLex _ _))

variable {a b : FrontierPlanV2}

theorem id_eq_of_compareConvenience (h : compareConvenience travel a b = .eq) : a.id = b.id := by
  simp only [compareConvenience, compareLex_eq_iff, on_eq_iff] at h
  exact h.2.2.2.2

theorem id_eq_of_compareSavings (h : compareSavings travel a b = .eq) : a.id = b.id := by
  simp only [compareSavings, compareLex_eq_iff, on_eq_iff] at h
  exact h.2.2.2.2

theorem id_eq_of_compareMiddle (h : compareMiddle travel a b = .eq) : a.id = b.id := by
  simp only [compareMiddle, compareLex_eq_iff, on_eq_iff] at h
  exact h.2.2.2.2

section

variable (h : hasTravel a = hasTravel b)

include h

/-- In a cohort durations are compared between all plans. -/
theorem compareTravel_eq :
    compareTravel a b = compareDuration a b := by
  unfold compareTravel compareDuration compareOn
  cases hb : hasTravel b with
  | true => simp [h, hb]
  | false =>
    simp [h, hb, durationSeconds_of_not_hasTravel hb,
      durationSeconds_of_not_hasTravel (h.trans hb)]

theorem compareConvenience_congr :
    compareConvenience compareTravel a b = compareConvenience compareDuration a b := by
  simp only [compareConvenience, compareLex, compareTravel_eq h]

theorem compareSavings_congr :
    compareSavings compareTravel a b = compareSavings compareDuration a b := by
  simp only [compareSavings, compareLex, compareTravel_eq h]

theorem compareMiddle_congr :
    compareMiddle compareTravel a b = compareMiddle compareDuration a b := by
  simp only [compareMiddle, compareLex, compareTravel_eq h]

end

/-- A cohort is ordered as by durations. -/
theorem orderCohort_eq (h : Cohort l) : orderCohort l = orderCohortBy compareDuration l := by
  have hmiddle : ∀ p : FrontierPlanV2 → Bool,
      sortBy (compareMiddle compareTravel) (l.filter p) =
        sortBy (compareMiddle compareDuration) (l.filter p) := fun p =>
    sortBy_congr fun a ha b hb => compareMiddle_congr
      (h a (List.mem_of_mem_filter ha) b (List.mem_of_mem_filter hb))
  unfold orderCohort orderCohortBy
  rw [least_congr fun a ha b hb => compareConvenience_congr (h a ha b hb),
    least_congr fun a ha b hb => compareSavings_congr (h a ha b hb)]
  simp only [hmiddle]

/-- Taking a plan to the front permutes a list of plans with distinct identifiers. -/
theorem cons_filter_perm (h : (l.map (·.id)).Nodup) {c : FrontierPlanV2} (hc : c ∈ l) :
    (c :: l.filter fun x => x.id ≠ c.id).Perm l := by
  obtain ⟨pre, post, rfl⟩ := List.append_of_mem hc
  simp only [List.map_append, List.map_cons] at h
  have hnot := List.nodup_middle.mp h
  simp only [List.nodup_cons, List.mem_append, List.mem_map, not_or, not_exists, not_and] at hnot
  have hkeep : ((pre ++ c :: post).filter fun x => x.id ≠ c.id) = pre ++ post := by
    rw [List.filter_append, List.filter_cons_of_neg (by simp),
      List.filter_eq_self.mpr fun x hx => decide_eq_true (hnot.1.1 x hx),
      List.filter_eq_self.mpr fun x hx => decide_eq_true (hnot.1.2 x hx)]
  rw [hkeep]
  exact List.perm_middle.symm

/-- Ordering a cohort loses nothing. -/
theorem orderCohortBy_perm (h : (l.map (·.id)).Nodup) : (orderCohortBy travel l).Perm l := by
  unfold orderCohortBy
  split_ifs with hlength
  · exact List.Perm.refl l
  · cases hconvenience : least (compareConvenience travel) l with
    | none => exact List.Perm.refl l
    | some convenience =>
      cases hsavings : least (compareSavings travel) l with
      | none => exact List.Perm.refl l
      | some savings =>
        have hfront := cons_filter_perm h (least_mem hconvenience)
        dsimp only
        split_ifs with hid
        · exact ((sortBy_perm _ _).cons _).trans hfront
        · have hrest : ((l.filter fun x => x.id ≠ convenience.id).map (·.id)).Nodup :=
            h.sublist (List.filter_sublist.map _)
          have hlast := cons_filter_perm hrest (c := savings)
            (List.mem_filter.mpr ⟨least_mem hsavings, decide_eq_true (Ne.symm hid)⟩)
          have hboth : (l.filter fun c => c.id ≠ convenience.id ∧ c.id ≠ savings.id) =
              (l.filter fun x => x.id ≠ convenience.id).filter fun x => x.id ≠ savings.id := by
            rw [List.filter_filter]
            exact List.filter_congr fun x _ => by simp [Bool.and_comm]
          rw [hboth]
          refine List.Perm.trans (List.Perm.cons _ ?_) hfront
          refine List.Perm.trans ?_ hlast
          exact ((sortBy_perm _ _).append_right _).trans List.perm_append_comm

/-- The order of a cohort does not depend on the order of the input. -/
theorem orderCohortBy_eq_of_perm [Std.TransCmp travel] (h : (l.map (·.id)).Nodup)
    (hp : l.Perm l') : orderCohortBy travel l = orderCohortBy travel l' := by
  have hinj : ∀ a ∈ l, ∀ b ∈ l, a.id = b.id → a = b := fun a ha b hb hid =>
    List.inj_on_of_nodup_map h ha hb hid
  have hmiddle : ∀ p : FrontierPlanV2 → Bool,
      sortBy (compareMiddle travel) (l.filter p) = sortBy (compareMiddle travel) (l'.filter p) :=
    fun p => sortBy_eq_of_perm (hp.filter p) fun a ha b hb hab =>
      hinj a (List.mem_of_mem_filter ha) b (List.mem_of_mem_filter hb) (id_eq_of_compareMiddle hab)
  have hfirst : least (compareConvenience travel) l = least (compareConvenience travel) l' :=
    least_eq_of_perm hp fun a ha b hb hab => hinj a ha b hb (id_eq_of_compareConvenience hab)
  have hlast : least (compareSavings travel) l = least (compareSavings travel) l' :=
    least_eq_of_perm hp fun a ha b hb hab => hinj a ha b hb (id_eq_of_compareSavings hab)
  unfold orderCohortBy
  rw [← hp.length_eq, ← hfirst, ← hlast]
  simp only [hmiddle]
  split_ifs with hlength
  · match l, l', hlength, hp with
    | [], l', _, hp => exact hp.nil_eq
    | [a], l', _, hp => exact (List.singleton_perm.mp hp)
  · obtain ⟨a, ha⟩ := List.exists_mem_of_length_pos (show 0 < l.length by omega)
    obtain ⟨convenience, hconvenience⟩ := exists_least (compareConvenience travel) ha
    obtain ⟨savings, hsavings⟩ := exists_least (compareSavings travel) ha
    rw [hconvenience, hsavings]

/-- An ordered cohort begins with its convenience minimum. -/
theorem head?_orderCohortBy (travel : FrontierPlanV2 → FrontierPlanV2 → Ordering)
    (l : List FrontierPlanV2) :
    (orderCohortBy travel l).head? = least (compareConvenience travel) l := by
  unfold orderCohortBy
  split_ifs with hlength
  · match l, hlength with
    | [], _ => rfl
    | [a], _ => rfl
  · obtain ⟨a, ha⟩ := List.exists_mem_of_length_pos (show 0 < l.length by omega)
    obtain ⟨convenience, hconvenience⟩ := exists_least (compareConvenience travel) ha
    obtain ⟨savings, hsavings⟩ := exists_least (compareSavings travel) ha
    rw [hconvenience, hsavings]
    dsimp only
    split_ifs <;> rfl

/-- An ordered cohort ends with its savings minimum, unless that is the convenience minimum too. -/
theorem getLast?_orderCohortBy {convenience savings : FrontierPlanV2}
    (hconvenience : least (compareConvenience travel) l = some convenience)
    (hsavings : least (compareSavings travel) l = some savings)
    (hid : convenience.id ≠ savings.id) : (orderCohortBy travel l).getLast? = some savings := by
  have hlength : ¬ l.length < 2 := by
    intro hlength
    match l, hlength with
    | [], _ => simp at hconvenience
    | [a], _ =>
      simp only [least_singleton, Option.some.injEq] at hconvenience hsavings
      exact hid (by rw [← hconvenience, ← hsavings])
  unfold orderCohortBy
  rw [if_neg hlength, hconvenience, hsavings]
  dsimp only
  rw [if_neg hid, ← List.cons_append, List.getLast?_concat]

/-- A dominating plan comes first in both orders. -/
theorem compareConvenience_of_dominates (h : dominates a b = true) :
    (compareConvenience compareDuration a b).isLE = true := by
  obtain ⟨-, ⟨htotal, hchains, hsubstitutions, hduration⟩, hstrict⟩ := dominates_iff.mp h
  simp only [compareConvenience, isLE_compareLex_compareOn_iff]
  rcases hchains.lt_or_eq with hlt | heqChains
  · exact Or.inl hlt
  rcases hduration.lt_or_eq with hlt | heqDuration
  · exact Or.inr ⟨heqChains, Or.inl hlt⟩
  rcases htotal.lt_or_eq with hlt | heqTotal
  · exact Or.inr ⟨heqChains, Or.inr ⟨heqDuration, Or.inl hlt⟩⟩
  · exact Or.inr ⟨heqChains, Or.inr ⟨heqDuration, Or.inr ⟨heqTotal, Or.inl (by omega)⟩⟩⟩

theorem compareSavings_of_dominates (h : dominates a b = true) :
    (compareSavings compareDuration a b).isLE = true := by
  obtain ⟨-, ⟨htotal, hchains, hsubstitutions, hduration⟩, hstrict⟩ := dominates_iff.mp h
  simp only [compareSavings, isLE_compareLex_compareOn_iff]
  rcases htotal.lt_or_eq with hlt | heqTotal
  · exact Or.inl hlt
  rcases hduration.lt_or_eq with hlt | heqDuration
  · exact Or.inr ⟨heqTotal, Or.inl hlt⟩
  rcases hsubstitutions.lt_or_eq with hlt | heqSubstitutions
  · exact Or.inr ⟨heqTotal, Or.inr ⟨heqDuration, Or.inl hlt⟩⟩
  · exact Or.inr ⟨heqTotal, Or.inr ⟨heqDuration, Or.inr ⟨heqSubstitutions, Or.inl (by omega)⟩⟩⟩

theorem cohort_filter (p : Bool) (hp : ∀ c ∈ l, hasTravel c = p) : Cohort l := fun a ha b hb =>
  (hp a ha).trans (hp b hb).symm

/-! ### Ordering both cohorts -/

theorem cohort_without (l : List FrontierPlanV2) : Cohort (l.filter fun c => !hasTravel c) :=
  cohort_filter false fun _ hc => by simpa using (List.mem_filter.mp hc).2

theorem cohort_with (l : List FrontierPlanV2) : Cohort (l.filter hasTravel) :=
  cohort_filter true fun _ hc => (List.mem_filter.mp hc).2

theorem orderCandidates_eq (l : List FrontierPlanV2) :
    orderCandidates l = orderCohortBy compareDuration (l.filter fun c => !hasTravel c) ++
      orderCohortBy compareDuration (l.filter hasTravel) := by
  rw [orderCandidates, orderCohort_eq (cohort_without l), orderCohort_eq (cohort_with l)]

theorem orderCandidates_perm (h : (l.map (·.id)).Nodup) : (orderCandidates l).Perm l := by
  have hsub : ∀ p : FrontierPlanV2 → Bool, ((l.filter p).map (·.id)).Nodup := fun p =>
    h.sublist (List.filter_sublist.map _)
  rw [orderCandidates_eq]
  refine ((orderCohortBy_perm (hsub _)).append (orderCohortBy_perm (hsub _))).trans ?_
  have hsplit := List.filter_append_perm (fun c => !hasTravel c) l
  simpa using hsplit

theorem orderCandidates_eq_of_perm (h : (l.map (·.id)).Nodup) (hp : l.Perm l') :
    orderCandidates l = orderCandidates l' := by
  have hsub : ∀ p : FrontierPlanV2 → Bool, ((l.filter p).map (·.id)).Nodup := fun p =>
    h.sublist (List.filter_sublist.map _)
  rw [orderCandidates_eq, orderCandidates_eq, orderCohortBy_eq_of_perm (hsub _) (hp.filter _),
    orderCohortBy_eq_of_perm (hsub _) (hp.filter _)]

/-- When all plans have travel or none has, there is one cohort. -/
theorem orderCandidates_of_cohort (h : Cohort l) :
    orderCandidates l = orderCohortBy compareDuration l := by
  rw [orderCandidates_eq]
  cases l with
  | nil => rfl
  | cons a t =>
    cases ha : hasTravel a with
    | true =>
      have hall : ∀ c ∈ a :: t, hasTravel c = true := fun c hc =>
        (h c hc a List.mem_cons_self).trans ha
      rw [List.filter_eq_self.mpr hall,
        List.filter_eq_nil_iff.mpr fun c hc => by simp [hall c hc]]
      rfl
    | false =>
      have hall : ∀ c ∈ a :: t, hasTravel c = false := fun c hc =>
        (h c hc a List.mem_cons_self).trans ha
      rw [List.filter_eq_self.mpr fun c hc => by simp [hall c hc],
        List.filter_eq_nil_iff.mpr fun c hc => by simp [hall c hc]]
      exact List.append_nil _

end Cohort

/-! ### The frontier -/

section Frontier

variable {candidates : List CandidateInput}

/-- The valid candidates that no valid candidate dominates. -/
abbrev undominated (candidates : List CandidateInput) : List FrontierPlanV2 :=
  Pareto.frontier dominates (canonicalCandidates candidates)

theorem nodup_ids_undominated (candidates : List CandidateInput) :
    ((undominated candidates).map (·.id)).Nodup :=
  (nodup_ids_canonicalCandidates candidates).sublist ((Pareto.frontier_sublist _ _).map _)

theorem paretoFrontierV2_eq (candidates : List CandidateInput) :
    paretoFrontierV2 candidates = orderCandidates (undominated candidates) := by
  rw [paretoFrontierV2, frontier_eq (nodup_ids_canonicalCandidates candidates)]

theorem mem_paretoFrontierV2 {c : FrontierPlanV2} :
    c ∈ paretoFrontierV2 candidates ↔ c ∈ canonicalCandidates candidates ∧
      ∀ other ∈ canonicalCandidates candidates, dominates other c = false := by
  rw [paretoFrontierV2_eq, (orderCandidates_perm (nodup_ids_undominated candidates)).mem_iff,
    Pareto.mem_frontier]

/-- A valid candidate that no other comes before, by a comparator. -/
def IsMinimum (cmp : FrontierPlanV2 → FrontierPlanV2 → Ordering)
    (candidates : List CandidateInput) (c : FrontierPlanV2) : Prop :=
  c ∈ canonicalCandidates candidates ∧
    ∀ other ∈ canonicalCandidates candidates, (cmp c other).isLE = true

/-- **What the frontier of a list of candidates is.** -/
structure FrontierIsExact (candidates : List CandidateInput) : Prop where
  /-- Each plan of the frontier is the canonical form of a schema-exact record of the input with an
  identifier of its own, and no valid candidate of its cohort dominates it. -/
  sound : ∀ c ∈ paretoFrontierV2 candidates,
    (∃ plan, PlanResultV2Schema plan ∧
      CandidateInput.record plan (c.travel.map .calculated) ∈ candidates ∧
      c.plan = canonicalPlan plan) ∧
    (rawIds candidates).count c.id = 1 ∧
    ∀ other ∈ canonicalCandidates candidates, dominates other c = false
  /-- Each valid candidate is on the frontier or dominated by a plan of its cohort on it. -/
  complete : ∀ c ∈ canonicalCandidates candidates, ∃ p ∈ paretoFrontierV2 candidates,
    hasTravel p = hasTravel c ∧ (p = c ∨ dominates p c = true)
  /-- The order of the input does not matter. -/
  perm : ∀ candidates', candidates.Perm candidates' →
    paretoFrontierV2 candidates' = paretoFrontierV2 candidates
  /-- The frontier begins with the convenience minimum. -/
  first : ∀ c, (paretoFrontierV2 candidates).head? = some c →
    IsMinimum (compareConvenience compareTravel) candidates c
  /-- The frontier ends with the savings minimum, unless it begins with it. -/
  last : ∀ first last, (paretoFrontierV2 candidates).head? = some first →
    (paretoFrontierV2 candidates).getLast? = some last →
      ¬ IsMinimum (compareSavings compareTravel) candidates first →
        IsMinimum (compareSavings compareTravel) candidates last

/-- The least plan of the frontier of a cohort is least among all valid candidates, for an order in
which a dominating plan comes first. -/
theorem isMinimum_of_least {cmp cmp' : FrontierPlanV2 → FrontierPlanV2 → Ordering}
    [Std.TransCmp cmp'] (hcohort : Cohort (canonicalCandidates candidates))
    (hcmp : ∀ a b, hasTravel a = hasTravel b → cmp a b = cmp' a b)
    (hdominates : ∀ a b, dominates a b = true → (cmp' a b).isLE = true) {c : FrontierPlanV2}
    (h : least cmp' (undominated candidates) = some c) : IsMinimum cmp candidates c := by
  have hc := (Pareto.mem_frontier.mp (least_mem h)).1
  refine ⟨hc, fun other hother => ?_⟩
  rw [hcmp c other (hcohort c hc other hother)]
  obtain ⟨m, hm, rfl | hdom⟩ := Pareto.exists_mem_frontier (strictOn_dominates _) hother
  · exact least_isLE h hm
  · exact Std.TransCmp.isLE_trans (least_isLE h hm) (hdominates m other hdom)

/-- **The frontier is exact**, for candidates of which all or none have travel. -/
theorem frontierIsExact (hcohort : Cohort (canonicalCandidates candidates)) :
    FrontierIsExact candidates := by
  have hundominated : Cohort (undominated candidates) := fun a ha b hb =>
    hcohort a (Pareto.mem_frontier.mp ha).1 b (Pareto.mem_frontier.mp hb).1
  have hordered : paretoFrontierV2 candidates =
      orderCohortBy compareDuration (undominated candidates) := by
    rw [paretoFrontierV2_eq, orderCandidates_of_cohort hundominated]
  have hconvenience : ∀ c, least (compareConvenience compareDuration) (undominated candidates) =
      some c → IsMinimum (compareConvenience compareTravel) candidates c := fun c =>
    isMinimum_of_least hcohort (fun _ _ => compareConvenience_congr)
      fun _ _ => compareConvenience_of_dominates
  have hsavings : ∀ c, least (compareSavings compareDuration) (undominated candidates) =
      some c → IsMinimum (compareSavings compareTravel) candidates c := fun c =>
    isMinimum_of_least hcohort (fun _ _ => compareSavings_congr)
      fun _ _ => compareSavings_of_dominates
  refine ⟨fun c hc => ?_, fun c hc => ?_, fun candidates' hperm => ?_, fun _ hc => ?_,
    fun first last hfirst hlast hnot => ?_⟩
  · obtain ⟨hmem, hdom⟩ := mem_paretoFrontierV2.mp hc
    obtain ⟨⟨plan, hplan, -, hinput, hcanonical⟩, hcount⟩ := mem_canonicalCandidates.mp hmem
    exact ⟨⟨plan, hplan, hinput, hcanonical⟩, hcount, hdom⟩
  · obtain ⟨p, hp, hpc⟩ := Pareto.exists_mem_frontier (strictOn_dominates _) hc
    refine ⟨p, mem_paretoFrontierV2.mpr (Pareto.mem_frontier.mp hp), ?_, hpc⟩
    exact hcohort p (Pareto.mem_frontier.mp hp).1 c hc
  · rw [paretoFrontierV2_eq, paretoFrontierV2_eq]
    have hfrontier : (undominated candidates).Perm (undominated candidates') := by
      have hvalid := canonicalCandidates_perm hperm
      exact Pareto.frontier_perm hvalid
    exact (orderCandidates_eq_of_perm (nodup_ids_undominated candidates) hfrontier).symm
  · rw [hordered, head?_orderCohortBy] at hc
    exact hconvenience _ hc
  · rw [hordered, head?_orderCohortBy] at hfirst
    obtain ⟨savings, hleast⟩ := exists_least (compareSavings compareDuration)
      (least_mem hfirst)
    by_cases hid : first.id = savings.id
    · have hsame : first = savings :=
        List.inj_on_of_nodup_map (nodup_ids_undominated candidates) (least_mem hfirst)
          (least_mem hleast) hid
      exact absurd (hsavings first (hsame ▸ hleast)) hnot
    · rw [hordered, getLast?_orderCohortBy hfirst hleast hid] at hlast
      exact hsavings last (by rw [hleast, Option.some.inj hlast])

/-! ### Two plans that differ in their identifier only -/

/-- An assignment at Extra for 1 krone. -/
def extraAssignment (needId : JsString) : PlanAssignmentV2 where
  needId := needId
  canonicalProductId := js "p"
  ean := js "00000000"
  chain := .extra
  costOre := 100
  observedAt := 1782907200000
  source := js "s"
  fulfilment := ⟨needId, js "p", ⟨1, .package⟩, ⟨1, .package⟩, 1, ⟨1, .package⟩, ⟨0, .package⟩⟩
  checkout := ordinaryCheckoutCost 100
  officialOffer := none

/-- A plan of two needs, not listed in the order of their identifiers. -/
def twinPlan (id : JsString) : PlanResultV2 where
  id := id
  assignments := [extraAssignment (js "n2"), extraAssignment (js "n1")]
  totalOre := 200
  chains := [.extra]
  substitutions := []
  freshness := [js "n2", js "n1"]

/-- Two candidates without travel. -/
def twinCandidates : List CandidateInput :=
  [.record (twinPlan (js "a")) none, .record (twinPlan (js "b")) none]

theorem frontierIsExact_twinCandidates : FrontierIsExact twinCandidates :=
  frontierIsExact (by
    unfold Cohort
    decide +kernel)

/-- Plans are published in canonical form, and a frontier whose first plan is both the most
convenient and the cheapest does not end with the cheapest plan. -/
theorem twinCandidates_canonical_and_last :
    (∃ c ∈ paretoFrontierV2 twinCandidates, c.toInput ∉ twinCandidates) ∧
      ∃ c, (paretoFrontierV2 twinCandidates).getLast? = some c ∧
        ¬ IsMinimum (compareSavings compareTravel) twinCandidates c := by
  refine ⟨by decide +kernel, ⟨canonicalPlan (twinPlan (js "b")), none⟩, by decide +kernel, ?_⟩
  unfold IsMinimum
  decide +kernel

end Frontier

end Handleplan.FrontierV2
