import Handleplan.Domain.PlannerV2Optimality

/-!
# The second planner does not look at the order of its input

Needs, rules, products, prices and offers may come in any order: their keys are unique, so that the
maps of the planner hold the same records and its comparators tell all candidates of a need apart.
Only the order of the keys of `freshness` is that of the needs.

## Main definitions

* `ServerPlanningInputV2.Reorders` — the same input with its lists in another order.
* `PlanResultV2.withFreshness` — a plan with other freshness keys.
* `PlanResultV2.Same` — plans that agree but for the order of these keys.

## Main results

* `PlannerV2.selectedAssignment_reorders` — the same assignment is selected.
* `PlannerV2.planForSubset_reorders` — the same plan is made of a subset of the chains.
* `PlannerV2.calculatePlansV2_reorders` — the same plans come out, in the same order.
-/

namespace Handleplan

open JsString Sorting

/-- The same input with its lists in another order. -/
structure ServerPlanningInputV2.Reorders (input input' : ServerPlanningInputV2) : Prop where
  needs : input.needs.Perm input'.needs
  matchingRules : input.matchingRules.Perm input'.matchingRules
  products : input.products.Perm input'.products
  ordinaryPrices : input.ordinaryPrices.Perm input'.ordinaryPrices
  officialOffers : input.officialOffers.Perm input'.officialOffers
  offerEligibility : input'.offerEligibility = input.offerEligibility
  maxStores : input'.maxStores = input.maxStores

theorem ServerPlanningInputV2.Reorders.symm {input input' : ServerPlanningInputV2}
    (h : input.Reorders input') : input'.Reorders input where
  needs := h.needs.symm
  matchingRules := h.matchingRules.symm
  products := h.products.symm
  ordinaryPrices := h.ordinaryPrices.symm
  officialOffers := h.officialOffers.symm
  offerEligibility := h.offerEligibility.symm
  maxStores := h.maxStores.symm

/-- A plan with other freshness keys. -/
def PlanResultV2.withFreshness (freshness : List JsString) (plan : PlanResultV2) : PlanResultV2 :=
  { plan with freshness := freshness }

/-- Plans that agree but for the order of their freshness keys. -/
structure PlanResultV2.Same (plan plan' : PlanResultV2) : Prop where
  fields : plan' = plan.withFreshness plan'.freshness
  freshness : plan.freshness.Perm plan'.freshness

namespace PlannerV2

variable {host : Host} {input input' : ServerPlanningInputV2} {now : ℤ}

/-! ### Look-ups -/

section

variable (h : input.Reorders input') (hschema : ServerPlanningInputV2Schema host input)

include h

/-- The prices that are eligible are reordered. -/
theorem eligiblePrices_reorders :
    (eligiblePrices input now).Perm (eligiblePrices input' now) :=
  h.ordinaryPrices.filter _

/-- The same chains are available. -/
theorem availableChains_reorders :
    availableChains input' now = availableChains input now := by
  unfold availableChains
  refine List.filter_congr fun chain _ => ?_
  exact (eligiblePrices_reorders h).any_eq.symm

include hschema

/-- A reordered input is as valid. -/
theorem schema_reorders : ServerPlanningInputV2Schema host input' where
  length_needs := h.needs.length_eq ▸ hschema.length_needs
  needs need hneed := hschema.needs need (h.needs.mem_iff.mpr hneed)
  length_matchingRules := h.matchingRules.length_eq ▸ hschema.length_matchingRules
  matchingRules rule hrule := hschema.matchingRules rule (h.matchingRules.mem_iff.mpr hrule)
  length_products := h.products.length_eq ▸ hschema.length_products
  products product hproduct := hschema.products product (h.products.mem_iff.mpr hproduct)
  length_ordinaryPrices := h.ordinaryPrices.length_eq ▸ hschema.length_ordinaryPrices
  ordinaryPrices price hprice := hschema.ordinaryPrices price (h.ordinaryPrices.mem_iff.mpr hprice)
  length_officialOffers := h.officialOffers.length_eq ▸ hschema.length_officialOffers
  officialOffers offer hoffer := hschema.officialOffers offer (h.officialOffers.mem_iff.mpr hoffer)
  offerEligibility := h.offerEligibility ▸ hschema.offerEligibility
  maxStores := h.maxStores ▸ hschema.maxStores
  uniqueNeeds := (h.needs.map _).nodup_iff.mp hschema.uniqueNeeds
  uniqueRules := (h.matchingRules.map _).nodup_iff.mp hschema.uniqueRules
  uniqueProducts := (h.products.map _).nodup_iff.mp hschema.uniqueProducts
  uniqueEans := (h.products.map _).nodup_iff.mp hschema.uniqueEans
  uniqueOffers := (h.officialOffers.map _).nodup_iff.mp hschema.uniqueOffers
  uniquePrices := (h.ordinaryPrices.map _).nodup_iff.mp hschema.uniquePrices
  ruled need hneed := (h.matchingRules.map _).mem_iff.mp
    (hschema.ruled need (h.needs.mem_iff.mpr hneed))

/-- The rules are found alike. -/
theorem ruleById_reorders (id : JsString) :
    ruleById input' id = ruleById input id := by
  refine Option.ext fun rule => ?_
  rw [ruleById_eq_some_iff (schema_reorders h hschema), ruleById_eq_some_iff hschema,
    h.matchingRules.mem_iff]

/-- The products are found alike. -/
theorem productByEan_reorders (ean : JsString) :
    productByEan input' ean = productByEan input ean := by
  refine Option.ext fun product => ?_
  rw [productByEan_eq_some_iff (schema_reorders h hschema), productByEan_eq_some_iff hschema,
    h.products.mem_iff]

/-- The same products match a need. -/
theorem mem_matchingEans_reorders {need : PlanningNeedV2}
    (hneed : need ∈ input.needs) {rule : MatchRule}
    (hrule : ruleById input need.matchRuleId = some rule) (ean : JsString) :
    ean ∈ matchingEans host input' need rule ↔ ean ∈ matchingEans host input need rule := by
  rw [mem_matchingEans_iff (schema_reorders h hschema) (h.needs.mem_iff.mp hneed)
    ((ruleById_reorders h hschema _).trans hrule), mem_matchingEans_iff hschema hneed hrule]
  exact exists_congr fun product => and_congr_left fun _ => h.products.mem_iff.symm

/-- The offers of a product at a chain are sorted by their unique identifiers. -/
theorem indexOfficialOffers_reorders (key : JsString) :
    indexOfficialOffers input'.officialOffers key =
      indexOfficialOffers input.officialOffers key := by
  refine (sortBy_eq_of_perm (h.officialOffers.filter _) fun a ha b hb hab => ?_).symm
  exact List.inj_on_of_nodup_map hschema.uniqueOffers (List.mem_of_mem_filter ha)
    (List.mem_of_mem_filter hb) (on_eq_iff.mp hab)

/-! ### Candidates -/

/-- A price makes the same candidate. -/
theorem candidateAt_reorders (need : PlanningNeedV2) (observation : PriceObservation) :
    candidateAt host input' now need observation = candidateAt host input now need observation := by
  have hcontext : offerContext input' now = offerContext input now := by
    unfold offerContext
    rw [h.offerEligibility]
  unfold candidateAt
  rw [productByEan_reorders h hschema, hcontext]
  simp only [indexOfficialOffers_reorders h hschema]

/-- The candidates are reordered. -/
theorem candidates_reorders {need : PlanningNeedV2}
    (hneed : need ∈ input.needs) {rule : MatchRule}
    (hrule : ruleById input need.matchRuleId = some rule) (subset : List Chain) :
    (candidates host input now subset need rule).Perm
      (candidates host input' now subset need rule) := by
  have hpoint : ∀ observation,
      (if observation.chain ∉ subset ∨ observation.ean ∉ matchingEans host input' need rule then none
        else candidateAt host input' now need observation) =
      (if observation.chain ∉ subset ∨ observation.ean ∉ matchingEans host input need rule then none
        else candidateAt host input now need observation) := by
    intro observation
    simp only [mem_matchingEans_reorders h hschema hneed hrule, candidateAt_reorders h hschema]
  unfold candidates
  rw [funext hpoint]
  exact (eligiblePrices_reorders h).filterMap _

/-- **The same assignment is selected**: the comparator tells all candidates of a need apart. -/
theorem selectedAssignment_reorders {need : PlanningNeedV2}
    (hneed : need ∈ input.needs) (subset : List Chain) :
    selectedAssignment host input' now subset need =
      selectedAssignment host input now subset need := by
  unfold selectedAssignment
  rw [ruleById_reorders h hschema]
  cases hrule : ruleById input need.matchRuleId with
  | none => rfl
  | some rule =>
    exact (least_eq_of_perm (candidates_reorders h hschema hneed hrule subset)
      fun a ha b hb => eq_of_compareCandidates_eq hschema ha hb).symm

end

/-! ### Plans -/

section Plans

variable (h : input.Reorders input') (hschema : ServerPlanningInputV2Schema host input)
include h hschema

/-- The plan record depends on the order of the needs in its freshness keys only. -/
theorem planOfAssignments_reorders {subset : List Chain} {selected selected' : List PlanAssignmentV2}
    (hselected : List.Forall₂ (Serves host input now subset) input.needs selected)
    (hperm : selected.Perm selected') :
    planOfAssignments input' selected' =
      (planOfAssignments input selected).withFreshness (ownKeys (input'.needs.map (·.id))) := by
  have hneedIds : (selected.map (·.needId)).Nodup := by
    rw [needIds_of_serves hschema hselected]
    exact hschema.uniqueNeeds
  have hassignments : sortBy (on PlanAssignmentV2.needId compareText) selected' =
      sortBy (on PlanAssignmentV2.needId compareText) selected := by
    refine (sortBy_eq_of_perm hperm ?_).symm
    intro a ha b hb hab
    exact List.inj_on_of_nodup_map hneedIds ha hb (on_eq_iff.mp hab)
  have hsubstituted : sortBy compareText (substitutedNeeds input') =
      sortBy compareText (substitutedNeeds input) := by
    refine (sortBy_eq_of_perm ?_ fun a _ b _ => compareText_eq_iff.mp).symm
    unfold substitutedNeeds
    simp only [ruleById_reorders h hschema]
    exact (h.needs.filter _).map _
  unfold planOfAssignments PlanResultV2.withFreshness
  rw [hassignments, hsubstituted]

/-- Freshness keys in another order are as valid. -/
theorem planResultV2Schema_withFreshness {plan : PlanResultV2}
    (hfreshness : plan.freshness = ownKeys (input.needs.map (·.id))) :
    PlanResultV2Schema (plan.withFreshness (ownKeys (input'.needs.map (·.id)))) ↔
      PlanResultV2Schema plan := by
  have hkeys : (ownKeys (input.needs.map (·.id))).Perm (ownKeys (input'.needs.map (·.id))) :=
    (ownKeys_perm hschema.uniqueNeeds).trans (((h.needs.map _).filter _).trans
      (ownKeys_perm (schema_reorders h hschema).uniqueNeeds).symm)
  have hsorted : sortBy compareText (ownKeys (input'.needs.map (·.id))) =
      sortBy compareText plan.freshness := by
    rw [hfreshness]
    exact (sortBy_eq_of_perm hkeys fun a _ b _ => compareText_eq_iff.mp).symm
  have hmem : ∀ id, id ∈ ownKeys (input'.needs.map (·.id)) ↔ id ∈ plan.freshness := fun id => by
    rw [hfreshness, hkeys.mem_iff]
  rw [planResultV2Schema_iff, planResultV2Schema_iff]
  simp only [PlanResultV2.withFreshness, hsorted, hmem]

/-- The same assignments are selected for all needs. -/
theorem exists_selected_reorders {subset : List Chain} {selected : List PlanAssignmentV2}
    (hselected : input.needs.mapM (selectedAssignment host input now subset) = some selected) :
    ∃ selected', input'.needs.mapM (selectedAssignment host input' now subset) = some selected' ∧
      selected.Perm selected' := by
  obtain ⟨selected', hselected', hperm⟩ :=
    Choices.exists_forall₂_of_perm h.needs (Choices.mapM_eq_some_iff.mp hselected)
  refine ⟨selected', Choices.mapM_eq_some_iff.mpr ?_, hperm⟩
  refine Choices.forall₂_imp_of_mem hselected' fun need a hneed ha => ?_
  rwa [selectedAssignment_reorders h hschema (h.needs.mem_iff.mpr hneed)]

/-- **The same plan** is made of a subset of the chains, but for the order of its freshness keys. -/
theorem planForSubset_reorders (subset : List Chain) :
    planForSubset host input' now subset = (planForSubset host input now subset).map
      (PlanResultV2.withFreshness (ownKeys (input'.needs.map (·.id)))) := by
  cases hselected : input.needs.mapM (selectedAssignment host input now subset) with
  | none =>
    have hnone : input'.needs.mapM (selectedAssignment host input' now subset) = none := by
      by_contra hsome
      obtain ⟨selected', hselected'⟩ := Option.ne_none_iff_exists'.mp hsome
      obtain ⟨selected, heq, -⟩ :=
        exists_selected_reorders h.symm (schema_reorders h hschema) hselected'
      rw [hselected] at heq
      cases heq
    simp only [planForSubset, hselected, hnone, Option.map_none]
  | some selected =>
    obtain ⟨selected', hselected', hperm⟩ := exists_selected_reorders h hschema hselected
    have hserves : List.Forall₂ (Serves host input now subset) input.needs selected := by
      refine (Choices.mapM_eq_some_iff.mp hselected).imp fun need a ha => ?_
      obtain ⟨rule, hrule, hmem, -⟩ := (selectedAssignment_eq_some_iff hschema).mp ha
      exact ⟨rule, hrule, hmem⟩
    have hplan := planOfAssignments_reorders h hschema hserves hperm
    have hvalid := planResultV2Schema_withFreshness h hschema
      (rfl : (planOfAssignments input selected).freshness = _)
    simp only [planForSubset, hselected, hselected', hplan, h.maxStores, hvalid,
      apply_ite (Option.map _), Option.map_none, Option.map_some]
    rfl

end Plans

/-! ### The planner -/

section Freshness

variable {freshness : List JsString}

theorem comparePlans_withFreshness (a b : PlanResultV2) :
    comparePlans (a.withFreshness freshness) (b.withFreshness freshness) = comparePlans a b := rfl

theorem dominates_withFreshness (a b : PlanResultV2) :
    dominates (a.withFreshness freshness) (b.withFreshness freshness) = dominates a b := rfl

theorem sortBy_map_withFreshness (plans : List PlanResultV2) :
    sortBy comparePlans (plans.map (PlanResultV2.withFreshness freshness)) =
      (sortBy comparePlans plans).map (PlanResultV2.withFreshness freshness) :=
  (map_sortBy _ comparePlans_withFreshness plans).symm

theorem uniqueAssignments_map_withFreshness (plans : List PlanResultV2) :
    uniqueAssignments (plans.map (PlanResultV2.withFreshness freshness)) =
      (uniqueAssignments plans).map (PlanResultV2.withFreshness freshness) := by
  have hentries : (((sortBy comparePlans plans).map (PlanResultV2.withFreshness freshness)).map
      fun plan => (planIdentity plan.assignments, plan)) =
      JsMap.mapValues (PlanResultV2.withFreshness freshness)
        ((sortBy comparePlans plans).map fun plan => (planIdentity plan.assignments, plan)) := by
    simp only [JsMap.mapValues, List.map_map]
    rfl
  unfold uniqueAssignments
  rw [sortBy_map_withFreshness, hentries, JsMap.ofEntries_mapValues]
  simp [JsMap.mapValues, JsMap.values]

end Freshness

/-- **The same plans come out in the same order**, but for the order of their freshness keys.

**Proof sketch.** The subsets of the chains are tried in a fixed order, and each makes the same
plan. Sorting, the map of identities and the frontier do not look at the freshness keys. -/
theorem calculatePlansV2_reorders (h : input.Reorders input') :
    calculatePlansV2 host input' now = (calculatePlansV2 host input now).map
      (PlanResultV2.withFreshness (ownKeys (input'.needs.map (·.id)))) := by
  unfold calculatePlansV2 enumerateCompletePlanCandidatesV2
  by_cases hschema : ServerPlanningInputV2Schema host input
  · have hsubsets : subsetPlans host input' now = (subsetPlans host input now).map
        (PlanResultV2.withFreshness (ownKeys (input'.needs.map (·.id)))) := by
      unfold subsetPlans
      rw [availableChains_reorders h, h.maxStores, funext (planForSubset_reorders h hschema),
        List.map_filterMap]
    rw [if_pos hschema, if_pos (schema_reorders h hschema), hsubsets,
      uniqueAssignments_map_withFreshness, sortBy_map_withFreshness,
      Pareto.frontier_map dominates_withFreshness, sortBy_map_withFreshness]
  · have hschema' : ¬ ServerPlanningInputV2Schema host input' := fun h' =>
      hschema (schema_reorders h.symm h')
    rw [if_neg hschema, if_neg hschema']
    rfl

/-- The plans of both orders agree one by one. -/
theorem same_calculatePlansV2 (h : input.Reorders input') :
    List.Forall₂ PlanResultV2.Same (calculatePlansV2 host input now)
      (calculatePlansV2 host input' now) := by
  rw [calculatePlansV2_reorders h, List.forall₂_map_right_iff, List.forall₂_same]
  intro plan hplan
  obtain ⟨hschema, subset, selected, -, rfl⟩ :=
    exists_bestChoice_of_mem_enumerate (mem_enumerate_of_mem_calculatePlansV2 hplan)
  refine ⟨rfl, (ownKeys_perm hschema.uniqueNeeds).trans (((h.needs.map _).filter _).trans ?_)⟩
  exact (ownKeys_perm (schema_reorders h hschema).uniqueNeeds).symm

end PlannerV2

end Handleplan
