import Handleplan.Domain.FrontierV2Projection

/-!
# Published plans are canonical

Whoever receives the published plans projects them again, with the travel evidence that came along,
and compares. The projection of a projected list is the list itself.

## Main definitions

* `FrontierV2.Published` — what a projected list of a cohort satisfies.
* `FrontierV2.AcceptedTravelEvidence`, `survivingEvidence` — travel evidence for all
  plans or none, and its part for the published plans.
* `FrontierV2.ProjectionIsStable` — projecting again changes nothing, and both verifiers
  accept the plans.

## Main results

* `FrontierV2.canonicalPlan_canonicalPlan` — the canonical form is one.
* `FrontierV2.orderCohortBy_of_represents` — representatives of an ordered cohort are
  ordered.
* `FrontierV2.Published.canonicalProjectedPlanResultsV2` — a published list is projected
  to itself.
* `FrontierV2.projectionIsStable` — the projection is stable.

## Design

The endpoints stay and whatever is between them keeps its order, so the projection of a published
list meets the same endpoints and the same sorted middle. Nothing else about the choice of the
representatives matters for a verifier.
-/

namespace Handleplan.FrontierV2

open JsString Sorting

/-! ### Canonical plans -/

instance : Std.TransCmp compareAssignments := inferInstanceAs (Std.TransCmp (compareLex _ _))

variable {plan : PlanResultV2}

section

variable (h : PlanResultV2Schema plan)

include h

theorem nodup_freshness :
    plan.freshness.Nodup := by
  have hsorted : (sortBy compareText plan.freshness).Nodup := by
    rw [← h.covered]
    exact nodup_sortBy.mpr h.uniqueNeeds
  exact nodup_sortBy.mp hsorted

/-- Bringing the keys of `freshness` into canonical order permutes them. -/
theorem canonicalFreshness_perm :
    (canonicalPlan plan).freshness.Perm plan.freshness := by
  have hproto : (sortBy compareText plan.freshness).filter (· ≠ protoKey) =
      sortBy compareText plan.freshness := by
    rw [List.filter_eq_self]
    intro id hid
    exact decide_eq_true (h.freshness id (mem_sortBy.mp hid)).2
  have hkeys := ownKeys_perm ((sortBy_perm compareText _).nodup_iff.mpr (nodup_freshness h))
  rw [hproto] at hkeys
  exact hkeys.trans (sortBy_perm _ _)

/-- The canonical form is the same for plans that differ in the order of their parts only. -/
theorem sortBy_canonicalFreshness :
    sortBy compareText (canonicalPlan plan).freshness = sortBy compareText plan.freshness :=
  sortBy_eq_of_perm (canonicalFreshness_perm h) fun _ _ _ _ => compareText_eq_iff.mp

/-- **The canonical form of a plan is canonical.** -/
theorem canonicalPlan_canonicalPlan :
    canonicalPlan (canonicalPlan plan) = canonicalPlan plan := by
  have hfreshness : (canonicalPlan (canonicalPlan plan)).freshness =
      (canonicalPlan plan).freshness := congrArg ownKeys (sortBy_canonicalFreshness h)
  simp only [canonicalPlan, sortBy_sortBy, PlanResultV2.mk.injEq, true_and] at hfreshness ⊢
  exact hfreshness

/-- The canonical form of a plan is a plan. -/
theorem planResultV2Schema_canonicalPlan :
    PlanResultV2Schema (canonicalPlan plan) := by
  have hassignments : (canonicalPlan plan).assignments.Perm plan.assignments := sortBy_perm _ _
  have hneeds := hassignments.map (·.needId)
  refine
    { id := h.id
      length_assignments := by simpa [canonicalPlan] using h.length_assignments
      assignments := fun a ha => h.assignments a (mem_sortBy.mp ha)
      totalOre := h.totalOre
      length_chains := by simpa [canonicalPlan] using h.length_chains
      length_substitutions := by simpa [canonicalPlan] using h.length_substitutions
      substitutions := fun id hid => h.substitutions id (mem_sortBy.mp hid)
      freshness := fun id hid => h.freshness id ((canonicalFreshness_perm h).mem_iff.mp hid)
      uniqueChains := nodup_sortBy.mpr h.uniqueChains
      describedChains := by simpa [canonicalPlan] using h.describedChains
      total := ?_
      uniqueNeeds := hneeds.nodup_iff.mpr h.uniqueNeeds
      covered := ?_
      uniqueSubstitutions := nodup_sortBy.mpr h.uniqueSubstitutions
      assignedSubstitutions := fun id hid =>
        hneeds.mem_iff.mpr (h.assignedSubstitutions id (mem_sortBy.mp hid)) }
  · rw [(hassignments.map (·.costOre)).sum_eq]
    exact h.total
  · rw [sortBy_canonicalFreshness h, ← h.covered]
    exact sortBy_eq_of_perm hneeds fun _ _ _ _ => compareText_eq_iff.mp

end

/-! ### Representatives of an ordered cohort -/

section Cohort

variable {travel : FrontierPlanV2 → FrontierPlanV2 → Ordering} {l P : List FrontierPlanV2}

theorem orderCohortBy_of_length_lt (h : P.length < 2) : orderCohortBy travel P = P := if_pos h

/-- The cases of an ordered cohort of two plans or more. -/
theorem orderCohortBy_cases (travel : FrontierPlanV2 → FrontierPlanV2 → Ordering)
    {l : List FrontierPlanV2} (h : 2 ≤ l.length) :
    ∃ convenience savings, least (compareConvenience travel) l = some convenience ∧
      least (compareSavings travel) l = some savings ∧
      ((convenience.id = savings.id ∧ orderCohortBy travel l =
          convenience ::
            sortBy (compareMiddle travel) (l.filter fun c => c.id ≠ convenience.id)) ∨
        (convenience.id ≠ savings.id ∧ orderCohortBy travel l =
          convenience ::
            (sortBy (compareMiddle travel)
              (l.filter fun c => c.id ≠ convenience.id ∧ c.id ≠ savings.id) ++ [savings]))) := by
  obtain ⟨a, ha⟩ := List.exists_mem_of_length_pos (by omega : 0 < l.length)
  obtain ⟨convenience, hconvenience⟩ := exists_least (compareConvenience travel) ha
  obtain ⟨savings, hsavings⟩ := exists_least (compareSavings travel) ha
  refine ⟨convenience, savings, hconvenience, hsavings, ?_⟩
  unfold orderCohortBy
  rw [if_neg (by omega), hconvenience, hsavings]
  dsimp only
  by_cases hid : convenience.id = savings.id
  · exact Or.inl ⟨hid, if_pos hid⟩
  · exact Or.inr ⟨hid, if_neg hid⟩

/-- **Representatives of an ordered cohort are ordered.**

**Proof sketch.** Both ends of the cohort are among the representatives, so they are the least of
them in convenience and in savings. What is between them is a sublist of the sorted middle. -/
theorem orderCohortBy_of_represents [Std.TransCmp travel] (h : (l.map (·.id)).Nodup)
    (hP : Represents (orderCohortBy travel l) P) : orderCohortBy travel P = P := by
  by_cases hshort : P.length < 2
  · exact orderCohortBy_of_length_lt hshort
  have hperm : (orderCohortBy travel l).Perm l := orderCohortBy_perm h
  have hsub : ∀ c ∈ P, c ∈ l := fun c hc => hperm.mem_iff.mp (hP.sublist.subset hc)
  have hnodup : (P.map (·.id)).Nodup :=
    ((hperm.map (·.id)).nodup_iff.mpr h).sublist (hP.sublist.map _)
  have hinj : ∀ a ∈ l, ∀ b ∈ l, a.id = b.id → a = b := fun a ha b hb hid =>
    List.inj_on_of_nodup_map h ha hb hid
  obtain ⟨hfirst, hlast⟩ := hP.ends (by omega)
  have hlength : 2 ≤ l.length := by
    have := hP.sublist.length_le
    rw [hperm.length_eq] at this
    omega
  obtain ⟨convenience, savings, hconvenience, hsavings, hcases⟩ :=
    orderCohortBy_cases travel hlength
  obtain ⟨convenience', savings', hconvenience', hsavings', hcases'⟩ :=
    orderCohortBy_cases travel (l := P) (by omega)
  have hfirstMem : convenience ∈ P := by
    rcases hcases with ⟨-, heq⟩ | ⟨-, heq⟩ <;>
    · rw [heq, List.head?_cons] at hfirst
      exact List.mem_of_mem_head? hfirst
  have hlastMem : savings ∈ P := by
    rcases hcases with ⟨hid, -⟩ | ⟨-, heq⟩
    · rwa [← hinj _ (least_mem hconvenience) _ (least_mem hsavings) hid]
    · rw [heq, ← List.cons_append, List.getLast?_concat] at hlast
      exact List.mem_of_getLast? hlast
  rw [least_of_subset hconvenience hfirstMem hsub fun a ha b hb hab =>
    hinj a ha b hb (id_eq_of_compareConvenience hab), Option.some.injEq] at hconvenience'
  rw [least_of_subset hsavings hlastMem hsub fun a ha b hb hab =>
    hinj a ha b hb (id_eq_of_compareSavings hab), Option.some.injEq] at hsavings'
  subst hconvenience' hsavings'
  have hsublist := hP.sublist
  rcases hcases with ⟨hid, heq⟩ | ⟨hid, heq⟩
  · obtain ⟨-, heq'⟩ := hcases'.resolve_right fun hne => hne.1 hid
    rw [heq, List.head?_cons] at hfirst
    obtain ⟨M, rfl⟩ := List.head?_eq_some_iff.mp hfirst
    rw [heq] at hsublist
    have hmiddle : M.Sublist _ := List.cons_sublist_cons.mp hsublist
    have hrest : (convenience :: M).filter (fun c => c.id ≠ convenience.id) = M := by
      rw [List.filter_cons_of_neg (by simp), List.filter_eq_self]
      intro c hc
      have hnot := (List.nodup_cons.mp hnodup).1
      exact decide_eq_true fun hid => hnot (List.mem_map.mpr ⟨c, hc, hid⟩)
    rw [heq', hrest, sortBy_of_pairwise ((pairwise_sortBy _ _).sublist hmiddle)]
  · obtain ⟨-, heq'⟩ := hcases'.resolve_left fun hne => hid hne.1
    rw [heq, List.head?_cons] at hfirst
    obtain ⟨M, rfl⟩ := List.head?_eq_some_iff.mp hfirst
    rw [heq, ← List.cons_append, List.getLast?_concat] at hlast
    obtain ⟨M, rfl⟩ : ∃ M', M = M' ++ [savings] := by
      rcases List.eq_nil_or_concat' M with rfl | ⟨M', a, rfl⟩
      · simp at hshort
      · rw [← List.cons_append, List.getLast?_concat, Option.some.injEq] at hlast
        exact ⟨M', by rw [hlast]⟩
    rw [heq] at hsublist
    have hmiddle : M.Sublist _ :=
      (List.append_sublist_append_right _).mp (List.cons_sublist_cons.mp hsublist)
    have hrest : (convenience :: (M ++ [savings])).filter
        (fun c => c.id ≠ convenience.id ∧ c.id ≠ savings.id) = M := by
      rw [List.map_cons, List.map_append, List.map_singleton, List.nodup_cons] at hnodup
      rw [List.filter_cons_of_neg (by simp), List.filter_append,
        List.filter_cons_of_neg (by simp), List.filter_nil, List.append_nil, List.filter_eq_self]
      intro c hc
      have hcid : c.id ∈ M.map (·.id) := List.mem_map_of_mem hc
      refine decide_eq_true ⟨fun hid => ?_, fun hid => ?_⟩
      · exact hnodup.1 (hid ▸ List.mem_append_left _ hcid)
      · exact List.disjoint_of_nodup_append hnodup.2 (hid ▸ hcid) (List.mem_singleton_self _)
    rw [heq', hrest, sortBy_of_pairwise ((pairwise_sortBy _ _).sublist hmiddle)]

end Cohort

/-! ### Published lists -/

/-- **A published list of plans**: canonical, uniquely identified plans of one cohort, none of them
dominated, in order. -/
structure Published (P : List FrontierPlanV2) : Prop where
  schema : ∀ c ∈ P, PlanResultV2Schema c.plan ∧ ∀ t ∈ c.travel, TravelCalculatedSchema t
  canonical : ∀ c ∈ P, canonicalPlan c.plan = c.plan
  nodup : (P.map (·.id)).Nodup
  cohort : Cohort P
  antichain : ∀ c ∈ P, ∀ other ∈ P, dominates other c = false
  ordered : orderCandidates P = P

/-- Plans with distinct identifiers are all valid candidates among themselves. -/
theorem canonicalCandidates_map {P : List FrontierPlanV2}
    (hschema : ∀ c ∈ P, PlanResultV2Schema c.plan ∧ ∀ t ∈ c.travel, TravelCalculatedSchema t)
    (hnodup : (P.map (·.id)).Nodup) :
    canonicalCandidates (P.map (·.toInput)) =
      P.map fun c => FrontierPlanV2.mk (canonicalPlan c.plan) c.travel := by
  have hparse : (P.map (·.toInput)).filterMap parseCandidate =
      P.map fun c => FrontierPlanV2.mk (canonicalPlan c.plan) c.travel := by
    rw [List.filterMap_map]
    refine (List.filterMap_congr fun c hc => ?_).trans (congrFun List.filterMap_eq_map P)
    exact parseCandidate_eq_some_iff.mpr ⟨c.plan, (hschema c hc).1, (hschema c hc).2, rfl, rfl⟩
  have hraw : rawIds (P.map (·.toInput)) = P.map (·.id) := by
    unfold rawIds
    rw [List.filterMap_map, List.filter_eq_self.mpr]
    · exact congrFun (List.filterMap_eq_map (f := fun c : FrontierPlanV2 => c.id)) P
    · intro id hid
      rw [List.mem_filterMap] at hid
      obtain ⟨c, hc, hid⟩ := hid
      obtain rfl : c.plan.id = id := Option.some.inj hid
      exact decide_eq_true (hschema c hc).1.id
  rw [canonicalCandidates, hparse, hraw, List.filter_eq_self]
  refine List.forall_mem_map.mpr fun c hc => ?_
  exact decide_eq_true (List.count_eq_one_of_mem hnodup (List.mem_map.mpr ⟨c, hc, rfl⟩))

/-- Canonical plans with distinct identifiers are the valid candidates among themselves. -/
theorem canonicalCandidates_eq {P : List FrontierPlanV2}
    (hschema : ∀ c ∈ P, PlanResultV2Schema c.plan ∧ ∀ t ∈ c.travel, TravelCalculatedSchema t)
    (hcanonical : ∀ c ∈ P, canonicalPlan c.plan = c.plan) (hnodup : (P.map (·.id)).Nodup) :
    canonicalCandidates (P.map (·.toInput)) = P := by
  rw [canonicalCandidates_map hschema hnodup]
  refine (List.map_congr_left fun c hc => ?_).trans (List.map_id P)
  rw [hcanonical c hc]
  rfl

/-- Plan records with distinct identifiers are all valid candidates among themselves. -/
theorem canonicalCandidates_planInput {plans : List PlanResultV2}
    (hschema : ∀ plan ∈ plans, PlanResultV2Schema plan) (hnodup : (plans.map (·.id)).Nodup) :
    canonicalCandidates (plans.map planInput) =
      plans.map fun plan => FrontierPlanV2.mk (canonicalPlan plan) none := by
  have hmap := canonicalCandidates_map (P := plans.map fun plan => FrontierPlanV2.mk plan none)
    (List.forall_mem_map.mpr fun plan hplan => ⟨hschema plan hplan, by simp⟩)
    (by rw [List.map_map]; exact hnodup)
  rwa [List.map_map, List.map_map] at hmap

namespace Published

variable {P : List FrontierPlanV2}

theorem paretoFrontierV2 (h : Published P) :
    FrontierV2.paretoFrontierV2 (P.map (·.toInput)) = P := by
  rw [paretoFrontierV2_eq, undominated, canonicalCandidates_eq h.schema h.canonical h.nodup,
    Pareto.frontier_eq_self h.antichain, h.ordered]

/-- A published list has no other representatives. -/
theorem projectRepresentativesV2 (h : Published P) {maximum : ℕ}
    (hmaximum : 1 ≤ maximum ∧ maximum ≤ 7) (hlength : P.length ≤ maximum) :
    FrontierV2.projectRepresentativesV2 (P.map (·.toInput)) maximum = P := by
  unfold FrontierV2.projectRepresentativesV2
  rw [h.paretoFrontierV2, if_neg (by omega)]
  exact if_pos hlength

/-- The plans of a published list, without their travel, are the valid candidates among
themselves. -/
theorem canonicalCandidates_plans (h : Published P) :
    canonicalCandidates (P.map fun c => planInput c.plan) =
      P.map fun c => FrontierPlanV2.mk c.plan none := by
  have hplain := canonicalCandidates_eq (P := P.map fun c => FrontierPlanV2.mk c.plan none)
    (List.forall_mem_map.mpr fun c hc => ⟨(h.schema c hc).1, by simp⟩)
    (List.forall_mem_map.mpr h.canonical)
    (by rw [List.map_map]; exact h.nodup)
  rwa [List.map_map] at hplain

/-- **Attaching the travel a published list came with gives the list back.** -/
theorem attachOptionalTravelEvidenceV2 (h : Published P)
    {travelEvidence : Option (List PlanTravelEvidence)}
    (hnone : travelEvidence = none → ∀ c ∈ P, c.travel = none)
    (hsome : ∀ evidence ∈ travelEvidence, CompleteTravelEvidence (P.map (·.id)) evidence ∧
      ∀ c ∈ P, travelByPlanId evidence c.id = c.travel) :
    FrontierV2.attachOptionalTravelEvidenceV2 (P.map fun c => planInput c.plan) travelEvidence =
      P := by
  have hcanonical : ∀ c ∈ P, ∀ travel,
      FrontierPlanV2.mk (canonicalPlan c.plan) travel = ⟨c.plan, travel⟩ := fun c hc travel => by
    rw [h.canonical c hc]
  have hvalid : ((canonicalCandidates (P.map fun c => planInput c.plan)).map fun c =>
      FrontierPlanV2.mk (canonicalPlan c.plan) none) =
        P.map fun c => FrontierPlanV2.mk c.plan none := by
    rw [h.canonicalCandidates_plans, List.map_map]
    exact List.map_congr_left fun c hc => hcanonical c hc none
  unfold FrontierV2.attachOptionalTravelEvidenceV2
  rw [hvalid]
  cases travelEvidence with
  | none =>
    have hsame : (P.map fun c => FrontierPlanV2.mk c.plan none) = P := by
      refine (List.map_congr_left fun c hc => ?_).trans (List.map_id P)
      obtain ⟨plan, travel⟩ := c
      exact congrArg (FrontierPlanV2.mk plan) (hnone rfl _ hc).symm
    dsimp only
    rw [hsame, h.ordered]
  | some evidence =>
    obtain ⟨hcomplete, htravel⟩ := hsome evidence rfl
    have hids : (P.map fun c => FrontierPlanV2.mk c.plan none).map (·.id) = P.map (·.id) := by
      rw [List.map_map]
      rfl
    have hsame : ((P.map fun c => FrontierPlanV2.mk c.plan none).map fun c =>
        FrontierPlanV2.mk (canonicalPlan c.plan) (travelByPlanId evidence c.id)) = P := by
      rw [List.map_map]
      refine (List.map_congr_left fun c hc => ?_).trans (List.map_id P)
      exact (hcanonical c hc _).trans (congrArg (FrontierPlanV2.mk c.plan) (htravel c hc))
    dsimp only
    rw [hids, if_pos hcomplete, hsame, h.ordered]

/-- **A published list is projected to itself.** -/
theorem canonicalProjectedPlanResultsV2 (h : Published P) {maximum : ℕ}
    (hmaximum : 1 ≤ maximum ∧ maximum ≤ 7) (hlength : P.length ≤ maximum)
    {travelEvidence : Option (List PlanTravelEvidence)}
    (hnone : travelEvidence = none → ∀ c ∈ P, c.travel = none)
    (hsome : ∀ evidence ∈ travelEvidence, CompleteTravelEvidence (P.map (·.id)) evidence ∧
      ∀ c ∈ P, travelByPlanId evidence c.id = c.travel)
    (htravel : travelEvidence.isSome = true → ∀ c ∈ P, hasTravel c = true) :
    FrontierV2.canonicalProjectedPlanResultsV2 (P.map fun c => planInput c.plan) maximum
      travelEvidence = some (P.map (·.plan)) := by
  have hattached := h.attachOptionalTravelEvidenceV2 hnone hsome
  unfold FrontierV2.canonicalProjectedPlanResultsV2
  dsimp only
  rw [hattached, h.paretoFrontierV2, h.projectRepresentativesV2 hmaximum hlength, if_neg,
    if_pos fun c hc => (h.schema c hc).1]
  rintro (hne | ⟨hisSome, c, hc, hnot⟩)
  · exact hne (by rw [List.length_map])
  · rw [htravel hisSome c hc] at hnot
    exact Bool.noConfusion hnot

end Published

/-- A valid candidate is schema-exact, and canonical. -/
theorem schema_of_mem_canonicalCandidates {candidates : List CandidateInput} {c : FrontierPlanV2}
    (h : c ∈ canonicalCandidates candidates) :
    (PlanResultV2Schema c.plan ∧ ∀ t ∈ c.travel, TravelCalculatedSchema t) ∧
      canonicalPlan c.plan = c.plan := by
  obtain ⟨⟨plan, hplan, htravel, -, hcanonical⟩, -⟩ := mem_canonicalCandidates.mp h
  rw [hcanonical]
  exact ⟨⟨planResultV2Schema_canonicalPlan hplan, htravel⟩, canonicalPlan_canonicalPlan hplan⟩

theorem nodup_ids_paretoFrontierV2 (candidates : List CandidateInput) :
    ((paretoFrontierV2 candidates).map (·.id)).Nodup := by
  rw [paretoFrontierV2_eq]
  have hnodup := nodup_ids_undominated candidates
  exact ((orderCandidates_perm hnodup).map (·.id)).nodup_iff.mpr hnodup

/-- **The representatives of a cohort are published.** -/
theorem published_projectRepresentativesV2 {candidates : List CandidateInput}
    (hcohort : Cohort (canonicalCandidates candidates)) (maximum : ℕ) :
    Published (projectRepresentativesV2 candidates maximum) := by
  have hrepresents := represents_projectRepresentativesV2 candidates maximum
  have hmem : ∀ c ∈ projectRepresentativesV2 candidates maximum,
      c ∈ canonicalCandidates candidates ∧
        ∀ other ∈ canonicalCandidates candidates, dominates other c = false := fun c hc =>
    mem_paretoFrontierV2.mp (hrepresents.sublist.subset hc)
  have hnodup := nodup_ids_undominated candidates
  have hundominated : Cohort (undominated candidates) := fun a ha b hb =>
    hcohort a (Pareto.mem_frontier.mp ha).1 b (Pareto.mem_frontier.mp hb).1
  have hself : Cohort (projectRepresentativesV2 candidates maximum) := fun a ha b hb =>
    hcohort a (hmem a ha).1 b (hmem b hb).1
  refine
    { schema := fun c hc => (schema_of_mem_canonicalCandidates (hmem c hc).1).1
      canonical := fun c hc => (schema_of_mem_canonicalCandidates (hmem c hc).1).2
      nodup := (nodup_ids_paretoFrontierV2 candidates).sublist (hrepresents.sublist.map _)
      cohort := hself
      antichain := fun c hc other hother => (hmem c hc).2 other (hmem other hother).1
      ordered := ?_ }
  rw [paretoFrontierV2_eq, orderCandidates_of_cohort hundominated] at hrepresents
  rw [orderCandidates_of_cohort hself]
  exact orderCohortBy_of_represents hnodup hrepresents

/-! ### Projecting again -/

/-- A valid candidate among plans handed in again is one of them, by identifier and travel. -/
theorem exists_of_mem_canonicalCandidates {P : List FrontierPlanV2} {c : FrontierPlanV2}
    (h : c ∈ canonicalCandidates (P.map (·.toInput))) :
    ∃ p ∈ P, c.id = p.id ∧ c.travel = p.travel := by
  obtain ⟨⟨plan, -, -, hmem, hplan⟩, -⟩ := mem_canonicalCandidates.mp h
  obtain ⟨p, hp, heq⟩ := List.mem_map.mp hmem
  obtain ⟨rfl, htravel⟩ := (CandidateInput.record.injEq ..).mp heq
  refine ⟨p, hp, ?_, ?_⟩
  · rw [FrontierPlanV2.id, hplan]
    rfl
  · exact (Option.map_injective (fun _ _ => TravelResult.calculated.inj) htravel).symm

/-- What the projection computes before it gives up the travel of the plans. -/
def projectedFrontier (plans : List CandidateInput)
    (travelEvidence : Option (List PlanTravelEvidence)) (maximum : ℕ) : List FrontierPlanV2 :=
  projectRepresentativesV2
    ((paretoFrontierV2 ((attachOptionalTravelEvidenceV2 plans travelEvidence).map
      (·.toInput))).map (·.toInput)) maximum

/-- The travel evidence of the plans that survive. -/
def survivingEvidence (P : List FrontierPlanV2) (evidence : List PlanTravelEvidence) :
    List PlanTravelEvidence :=
  evidence.filter fun entry => entry.planId ∈ P.map (·.id)

/-- No travel evidence, or travel evidence for exactly the valid plans. -/
def AcceptedTravelEvidence (plans : List CandidateInput)
    (travelEvidence : Option (List PlanTravelEvidence)) : Prop :=
  ∀ evidence ∈ travelEvidence,
    CompleteTravelEvidence ((canonicalCandidates plans).map (·.id)) evidence

/-- The routes a response publishes with its plans: one for each plan, with its travel. -/
structure RoutesOf (routes : List TravelRouteEvidence) (P : List FrontierPlanV2) : Prop where
  schema : CalculatedRoutesSchema routes
  coherent : routes.map (fun route => (route.planId, some route.aggregate.travel)) =
    P.map fun c => (c.id, c.travel)

/-! ### Travel evidence -/

section Evidence

variable {planIds : List JsString} {evidence : List PlanTravelEvidence}

theorem travelByPlanId_of_mem (h : (evidence.map (·.planId)).Nodup) {entry : PlanTravelEvidence}
    (hentry : entry ∈ evidence) :
    travelByPlanId evidence entry.planId = acceptedTravel entry := by
  have hfind : evidence.find? (fun e => e.planId = entry.planId) = some entry := by
    have hsome : (evidence.find? fun e => e.planId = entry.planId).isSome = true :=
      List.find?_isSome.mpr ⟨entry, hentry, by simp⟩
    obtain ⟨found, hfound⟩ := Option.isSome_iff_exists.mp hsome
    have hid : found.planId = entry.planId := by simpa using List.find?_some hfound
    rw [hfound, List.inj_on_of_nodup_map h (List.mem_of_find?_eq_some hfound) hentry hid]
  rw [travelByPlanId, hfind, Option.bind_some]

/-- Complete evidence has an accepted entry for each plan. -/
theorem CompleteTravelEvidence.exists_mem (h : CompleteTravelEvidence planIds evidence)
    {id : JsString} (hid : id ∈ planIds) : ∃ entry ∈ evidence, entry.planId = id := by
  obtain ⟨hlength, hentries, hnodup⟩ := h
  have hsubset : evidence.map (·.planId) ⊆ planIds :=
    List.forall_mem_map.mpr fun entry hentry => (hentries entry hentry).2.1
  have hperm := (List.subperm_of_subset hnodup hsubset).perm_of_length_le
    (by rw [List.length_map, hlength])
  exact List.mem_map.mp (hperm.mem_iff.mpr hid)

theorem CompleteTravelEvidence.isSome_travelByPlanId (h : CompleteTravelEvidence planIds evidence)
    {id : JsString} (hid : id ∈ planIds) : (travelByPlanId evidence id).isSome = true := by
  obtain ⟨entry, hentry, rfl⟩ := h.exists_mem hid
  rw [travelByPlanId_of_mem h.2.2 hentry]
  exact (h.2.1 entry hentry).2.2

variable {P : List FrontierPlanV2}

/-- The evidence that survives is complete for the surviving plans. -/
theorem CompleteTravelEvidence.surviving (h : CompleteTravelEvidence planIds evidence)
    (hnodup : (P.map (·.id)).Nodup) (hsub : ∀ c ∈ P, c.id ∈ planIds) :
    CompleteTravelEvidence (P.map (·.id)) (survivingEvidence P evidence) := by
  have hsurviving : ((survivingEvidence P evidence).map (·.planId)).Nodup :=
    h.2.2.sublist (List.filter_sublist.map _)
  have hperm : ((survivingEvidence P evidence).map (·.planId)).Perm (P.map (·.id)) := by
    refine (List.perm_ext_iff_of_nodup hsurviving hnodup).mpr fun id => ⟨?_, fun hid => ?_⟩
    · rintro hid
      obtain ⟨entry, hentry, rfl⟩ := List.mem_map.mp hid
      exact of_decide_eq_true (List.mem_filter.mp hentry).2
    · obtain ⟨c, hc, rfl⟩ := List.mem_map.mp hid
      obtain ⟨entry, hentry, heq⟩ := h.exists_mem (hsub c hc)
      refine List.mem_map.mpr ⟨entry, List.mem_filter.mpr ⟨hentry, ?_⟩, heq⟩
      exact decide_eq_true (heq ▸ hid)
  refine ⟨?_, fun entry hentry => ?_, hsurviving⟩
  · simpa using hperm.length_eq
  · obtain ⟨hmem, hid⟩ := List.mem_filter.mp hentry
    obtain ⟨hidentifier, -, haccepted⟩ := h.2.1 entry hmem
    exact ⟨hidentifier, of_decide_eq_true hid, haccepted⟩

theorem travelByPlanId_survivingEvidence {c : FrontierPlanV2} (hc : c ∈ P) :
    travelByPlanId (survivingEvidence P evidence) c.id = travelByPlanId evidence c.id := by
  have hid : c.id ∈ P.map (·.id) := List.mem_map_of_mem hc
  unfold travelByPlanId survivingEvidence
  rw [List.find?_filter]
  congr 2
  funext entry
  by_cases heq : entry.planId = c.id
  · simp [heq, hid]
  · simp [heq]

theorem RoutesOf.map_planId {routes : List TravelRouteEvidence} (h : RoutesOf routes P) :
    routes.map (·.planId) = P.map (·.id) := by
  have hfst := congrArg (List.map Prod.fst) h.coherent
  rw [List.map_map, List.map_map] at hfst
  exact hfst

/-- The evidence a verifier makes of the routes is complete and gives the travel of the plans. -/
theorem RoutesOf.completeEvidence {routes : List TravelRouteEvidence} (h : RoutesOf routes P) :
    CompleteTravelEvidence (P.map (·.id)) (routeEvidence routes) ∧
      ∀ c ∈ P, travelByPlanId (routeEvidence routes) c.id = c.travel := by
  have haccepted : ∀ route ∈ routes,
      acceptedTravel ⟨route.planId, .calculated route.aggregate.travel⟩ =
        some route.aggregate.travel := fun route hroute =>
    acceptedTravel_calculated (h.schema.valid route hroute).aggregate.travel
  have hrouted : (routeEvidence routes).map (·.planId) = routes.map (·.planId) := List.map_map
  have hids : (routeEvidence routes).map (·.planId) = P.map (·.id) := hrouted.trans h.map_planId
  have hnodup : ((routeEvidence routes).map (·.planId)).Nodup := by
    rw [hrouted]
    exact h.schema.uniquePlans
  refine ⟨⟨?_, fun entry hentry => ?_, hnodup⟩, fun c hc => ?_⟩
  · simpa using congrArg List.length hids
  · obtain ⟨route, hroute, rfl⟩ := List.mem_map.mp hentry
    refine ⟨(h.schema.valid route hroute).planId, ?_, by rw [haccepted route hroute]; rfl⟩
    rw [← hids]
    exact List.mem_map_of_mem hentry
  · have hpair : (c.id, c.travel) ∈
        routes.map fun route => (route.planId, some route.aggregate.travel) := by
      rw [h.coherent]
      exact List.mem_map_of_mem hc
    obtain ⟨route, hroute, heq⟩ := List.mem_map.mp hpair
    obtain ⟨hid, htravel⟩ := Prod.mk.inj heq
    rw [← hid, ← htravel, ← haccepted route hroute]
    exact travelByPlanId_of_mem hnodup (List.mem_map_of_mem hroute)

end Evidence

/-! ### Stability -/

section Stability

variable {plans : List CandidateInput} {travelEvidence : Option (List PlanTravelEvidence)}

/-- `attachOptionalTravelEvidenceV2` gives each valid plan its travel in the evidence, if there is
evidence. -/
theorem attachOptionalTravelEvidenceV2_perm (h : AcceptedTravelEvidence plans travelEvidence) :
    (attachOptionalTravelEvidenceV2 plans travelEvidence).Perm
      ((canonicalCandidates plans).map fun c =>
        FrontierPlanV2.mk c.plan (travelEvidence.bind (travelByPlanId · c.id))) := by
  have hvalid : ((canonicalCandidates plans).map fun c =>
      FrontierPlanV2.mk (canonicalPlan c.plan) none) =
        (canonicalCandidates plans).map fun c => FrontierPlanV2.mk c.plan none :=
    List.map_congr_left fun c hc => by rw [(schema_of_mem_canonicalCandidates hc).2]
  have hids : ∀ travel : FrontierPlanV2 → Option CalculatedTravel,
      (((canonicalCandidates plans).map fun c =>
        FrontierPlanV2.mk c.plan (travel c)).map (·.id)) =
          (canonicalCandidates plans).map (·.id) := fun travel => by
    rw [List.map_map]
    rfl
  have hnodup : ∀ travel : FrontierPlanV2 → Option CalculatedTravel,
      (((canonicalCandidates plans).map fun c =>
        FrontierPlanV2.mk c.plan (travel c)).map (·.id)).Nodup := fun travel => by
    rw [hids]
    exact nodup_ids_canonicalCandidates plans
  unfold attachOptionalTravelEvidenceV2
  rw [hvalid]
  cases travelEvidence with
  | none => exact orderCandidates_perm (hnodup _)
  | some evidence =>
    have htravel : (((canonicalCandidates plans).map fun c => FrontierPlanV2.mk c.plan none).map
        fun c => FrontierPlanV2.mk (canonicalPlan c.plan) (travelByPlanId evidence c.id)) =
          (canonicalCandidates plans).map fun c =>
            FrontierPlanV2.mk c.plan (travelByPlanId evidence c.id) := by
      rw [List.map_map]
      refine List.map_congr_left fun c hc => ?_
      rw [Function.comp_apply, (schema_of_mem_canonicalCandidates hc).2]
      rfl
    dsimp only
    rw [hids, if_pos (h evidence rfl), htravel]
    exact orderCandidates_perm (hnodup _)

variable {c : FrontierPlanV2} {maximum : ℕ}

section

variable (h : AcceptedTravelEvidence plans travelEvidence)

include h

/-- What `attachOptionalTravelEvidenceV2` gives each plan: its travel in the evidence, if there is
evidence. -/
theorem of_mem_attachOptionalTravelEvidenceV2 (hc : c ∈ attachOptionalTravelEvidenceV2 plans travelEvidence) :
    c.id ∈ (canonicalCandidates plans).map (·.id) ∧
      c.travel = travelEvidence.bind (travelByPlanId · c.id) := by
  rw [(attachOptionalTravelEvidenceV2_perm h).mem_iff] at hc
  obtain ⟨valid, hvalid, rfl⟩ := List.mem_map.mp hc
  exact ⟨List.mem_map.mpr ⟨valid, hvalid, rfl⟩, rfl⟩

/-- All plans have travel, or none has, as there is evidence. -/
theorem hasTravel_of_eq (hid : c.id ∈ (canonicalCandidates plans).map (·.id))
    (htravel : c.travel = travelEvidence.bind (travelByPlanId · c.id)) :
    hasTravel c = travelEvidence.isSome := by
  rw [hasTravel, htravel]
  cases travelEvidence with
  | none => rfl
  | some evidence => exact (h evidence rfl).isSome_travelByPlanId hid

/-- The travel of a plan of the projected frontier is still that of the evidence. -/
theorem of_mem_projectedFrontier (hc : c ∈ projectedFrontier plans travelEvidence maximum) :
    c.id ∈ (canonicalCandidates plans).map (·.id) ∧
      c.travel = travelEvidence.bind (travelByPlanId · c.id) := by
  have hprojected := (represents_projectRepresentativesV2 _ _).sublist.subset hc
  obtain ⟨p, hp, hid, htravel⟩ :=
    exists_of_mem_canonicalCandidates (mem_paretoFrontierV2.mp hprojected).1
  obtain ⟨a, ha, hid', htravel'⟩ :=
    exists_of_mem_canonicalCandidates (mem_paretoFrontierV2.mp hp).1
  rw [hid, htravel, hid', htravel']
  exact of_mem_attachOptionalTravelEvidenceV2 h ha

theorem hasTravel_of_mem_projectedFrontier (hc : c ∈ projectedFrontier plans travelEvidence maximum) :
    hasTravel c = travelEvidence.isSome := by
  obtain ⟨hid, htravel⟩ := of_mem_projectedFrontier h hc
  exact hasTravel_of_eq h hid htravel

/-- The projected frontier is published. -/
theorem published_projectedFrontier (maximum : ℕ) :
    Published (projectedFrontier plans travelEvidence maximum) := by
  refine published_projectRepresentativesV2 (fun a ha b hb => ?_) maximum
  have htravel : ∀ c ∈ canonicalCandidates
      ((paretoFrontierV2 ((attachOptionalTravelEvidenceV2 plans travelEvidence).map
        (·.toInput))).map (·.toInput)), hasTravel c = travelEvidence.isSome := by
    intro c hc
    obtain ⟨p, hp, -, hp'⟩ := exists_of_mem_canonicalCandidates hc
    obtain ⟨q, hq, -, hq'⟩ := exists_of_mem_canonicalCandidates (mem_paretoFrontierV2.mp hp).1
    obtain ⟨hid, heq⟩ := of_mem_attachOptionalTravelEvidenceV2 h hq
    rw [hasTravel, hp', hq', ← hasTravel]
    exact hasTravel_of_eq h hid heq
  rw [htravel a ha, htravel b hb]

end

/-- At most `maximum` plans are projected. -/
theorem length_projectedFrontier_le (hmaximum : 1 ≤ maximum ∧ maximum ≤ 7) :
    (projectedFrontier plans travelEvidence maximum).length ≤ maximum := by
  unfold projectedFrontier
  rw [length_projectRepresentativesV2 _ hmaximum]
  exact min_le_left _ _

/-- Both verifiers accept the plans. -/
def VerifiersAccept (plans : List PlanResultV2) (routes : Option (List TravelRouteEvidence)) :
    Prop :=
  canonicalPlans plans routes = some plans ∧ PlansAreProjected plans routes

/-- **What it means for the projection to be stable**: it gives published plans back, and the plans
the services publish pass both verifiers. -/
structure ProjectionIsStable (plans : List CandidateInput)
    (travelEvidence : Option (List PlanTravelEvidence)) : Prop where
  /-- Projecting the plans again, with the evidence that survives, changes nothing. -/
  idempotent : ∀ maximum, 1 ≤ maximum ∧ maximum ≤ 7 →
    let P := projectedFrontier plans travelEvidence maximum
    canonicalProjectedPlanResultsV2 (P.map fun c => planInput c.plan) maximum
      (travelEvidence.map (survivingEvidence P)) = some (P.map (·.plan))
  /-- In particular for a projection that succeeds. -/
  again : ∀ maximum, 1 ≤ maximum ∧ maximum ≤ 7 → ∀ projected,
    canonicalProjectedPlanResultsV2 plans maximum travelEvidence = some projected →
      canonicalProjectedPlanResultsV2 (projected.map planInput) maximum
        (travelEvidence.map fun evidence =>
          evidence.filter fun entry => entry.planId ∈ projected.map (·.id)) = some projected
  /-- The plans published without travel pass. -/
  priceOnly : ∀ results : List PlanResultV2, plans = results.map planInput →
    VerifiersAccept
      ((projectRepresentativesV2 ((paretoFrontierV2 plans).map (·.toInput)) 7).map (·.plan)) none
  /-- The plans published with travel pass, with their routes. -/
  travel : ∀ routes, travelEvidence.isSome = true →
    RoutesOf routes (projectedFrontier plans travelEvidence 7) →
      VerifiersAccept ((projectedFrontier plans travelEvidence 7).map (·.plan)) (some routes)

/-- Both verifiers accept a published list with its routes. -/
theorem Published.verifiersAccept {P : List FrontierPlanV2} (h : Published P)
    (hlength : P.length ≤ 7) {routes : Option (List TravelRouteEvidence)}
    (hnone : routes = none → ∀ c ∈ P, c.travel = none)
    (hsome : ∀ r ∈ routes, RoutesOf r P) : VerifiersAccept (P.map (·.plan)) routes := by
  have hplans : (P.map (·.plan)).map planInput = P.map fun c => planInput c.plan := List.map_map
  have hprojected : PlansAreProjected (P.map (·.plan)) routes := by
    unfold PlansAreProjected
    rw [hplans]
    refine h.canonicalProjectedPlanResultsV2 (by omega) hlength ?_ ?_ ?_
    · intro hmap
      exact hnone (Option.map_eq_none_iff.mp hmap)
    · intro evidence hevidence
      obtain ⟨r, hr, rfl⟩ := Option.mem_map.mp hevidence
      exact (hsome r hr).completeEvidence
    · intro hisSome c hc
      obtain ⟨r, hr⟩ := Option.isSome_iff_exists.mp (Option.isSome_map ▸ hisSome)
      obtain ⟨hcomplete, htravel⟩ := (hsome r hr).completeEvidence
      rw [hasTravel, ← htravel c hc]
      exact hcomplete.isSome_travelByPlanId (List.mem_map_of_mem hc)
  refine ⟨?_, hprojected⟩
  have hvalid : (∀ plan ∈ P.map (·.plan), PlanResultV2Schema plan) ∧
      (P.map (·.plan)).length ≤ 7 :=
    ⟨List.forall_mem_map.mpr fun c hc => (h.schema c hc).1, by rwa [List.length_map]⟩
  unfold canonicalPlans
  rw [if_neg (not_not.mpr hvalid)]
  cases routes with
  | none => exact if_pos hprojected
  | some routes =>
    have hroutes := hsome routes rfl
    have hids : routes.map (·.planId) = (P.map (·.plan)).map (·.id) := by
      rw [List.map_map]
      exact hroutes.map_planId
    dsimp only
    rw [if_neg (not_not.mpr ⟨hroutes.schema.valid, hroutes.schema.length_routes.2⟩),
      if_neg (not_not.mpr hids)]
    exact if_pos hprojected

/-- **The projection is stable.** -/
theorem projectionIsStable (h : AcceptedTravelEvidence plans travelEvidence) :
    ProjectionIsStable plans travelEvidence := by
  have hidempotent : ∀ maximum, 1 ≤ maximum ∧ maximum ≤ 7 →
      canonicalProjectedPlanResultsV2
        ((projectedFrontier plans travelEvidence maximum).map fun c => planInput c.plan) maximum
        (travelEvidence.map (survivingEvidence (projectedFrontier plans travelEvidence maximum))) =
          some ((projectedFrontier plans travelEvidence maximum).map (·.plan)) := by
    intro maximum hmaximum
    have hpublished := published_projectedFrontier h maximum
    refine hpublished.canonicalProjectedPlanResultsV2 hmaximum
      (length_projectedFrontier_le hmaximum) ?_ ?_ ?_
    · intro hmap c hc
      obtain ⟨-, htravel⟩ := of_mem_projectedFrontier h hc
      rw [htravel, Option.map_eq_none_iff.mp hmap]
      rfl
    · intro surviving hsurviving
      obtain ⟨evidence, hevidence, rfl⟩ := Option.mem_map.mp hsurviving
      refine ⟨(h evidence hevidence).surviving hpublished.nodup fun c hc =>
        (of_mem_projectedFrontier h hc).1, fun c hc => ?_⟩
      rw [travelByPlanId_survivingEvidence hc, (of_mem_projectedFrontier h hc).2, hevidence]
      rfl
    · intro hisSome c hc
      rw [hasTravel_of_mem_projectedFrontier h hc]
      simpa using hisSome
  refine ⟨hidempotent, fun maximum hmaximum projected hprojected => ?_, ?_, ?_⟩
  · have heq : projected = (projectedFrontier plans travelEvidence maximum).map (·.plan) := by
      unfold canonicalProjectedPlanResultsV2 at hprojected
      dsimp only at hprojected
      split_ifs at hprojected
      exact (Option.some.inj hprojected).symm
    have hagain := hidempotent maximum hmaximum
    rw [heq, List.map_map, List.map_map]
    exact hagain
  · rintro results rfl
    have hplain : ∀ c ∈ canonicalCandidates (results.map planInput), c.travel = none := by
      intro c hc
      obtain ⟨⟨plan, -, -, hmem, -⟩, -⟩ := mem_canonicalCandidates.mp hc
      obtain ⟨result, -, heq⟩ := List.mem_map.mp hmem
      exact Option.map_eq_none_iff.mp ((CandidateInput.record.injEq ..).mp heq).2.symm
    have hvalid : ∀ c ∈ canonicalCandidates
        ((paretoFrontierV2 (results.map planInput)).map (·.toInput)), c.travel = none := by
      intro c hc
      obtain ⟨p, hp, -, htravel⟩ := exists_of_mem_canonicalCandidates hc
      rw [htravel]
      exact hplain p (mem_paretoFrontierV2.mp hp).1
    have hcohort : Cohort (canonicalCandidates
        ((paretoFrontierV2 (results.map planInput)).map (·.toInput))) := by
      refine cohort_filter false fun c hc => ?_
      rw [hasTravel, hvalid c hc]
      rfl
    refine (published_projectRepresentativesV2 hcohort 7).verifiersAccept ?_ ?_ (by simp)
    · rw [length_projectRepresentativesV2 _ (by omega)]
      exact min_le_left _ _
    · intro _ c hc
      have hmem := (represents_projectRepresentativesV2 _ _).sublist.subset hc
      exact hvalid c (mem_paretoFrontierV2.mp hmem).1
  · intro routes hisSome hroutes
    refine (published_projectedFrontier h 7).verifiersAccept
      (length_projectedFrontier_le (by omega)) (by simp) ?_
    intro r hr
    rwa [← Option.some.inj hr]

end Stability

/-! ### Two plans with travel -/

/-- Travel evidence for both plans of `twinCandidates`, the second one nearer. -/
def twinTravel : List PlanTravelEvidence :=
  [⟨js "a", .calculated ⟨900, 4000, js "v", 1782907200000, js "r1"⟩⟩,
    ⟨js "b", .calculated ⟨600, 3000, js "v", 1782907200000, js "r2"⟩⟩]

theorem projectionIsStable_twinTravel : ProjectionIsStable twinCandidates (some twinTravel) :=
  projectionIsStable (by
    rintro evidence ⟨⟩
    decide +kernel)

end Handleplan.FrontierV2
