import Handleplan.Domain.PlannerV2Spec

/-!
# Optimality of the second planner

The planner is greedy within each subset of the chains and then keeps one plan for each identity
text. Greed is harmless: within the chains of any feasible choice the least candidates cost no more.
Keeping one plan for each text is not: texts of identifiers with separators in them can coincide,
and the plan kept is the last one in order, not the cheapest.

## Main definitions

* `PlannerV2.AdmissibleChoice`, `FeasibleChoice` — an admissible way to serve a need, and
  one way for every need within the bounds.
* `PlannerV2.PlansAreOptimal` — no feasible choice beats the returned plans.
* `PlannerV2.Survives` — a best choice that no other with its text comes after.
* `PlannerV2.DeduplicationIsHarmless` — what keeping one plan for each text must satisfy.

## Main results

* `PlannerV2.exists_bestChoice` — a feasible choice is matched by a best choice.
* `PlannerV2.plansAreOptimal_iff` — the plans are optimal exactly when keeping one plan
  for each text is harmless.
-/

namespace Handleplan.PlannerV2

open JsString Sorting

variable {host : Host} {input : ServerPlanningInputV2} {now : ℤ}

/-! ### Feasible choices -/

/-- A way to serve a need: an observed price, its product, a fulfilment and a checkout. -/
structure Choice where
  observation : PriceObservation
  product : PlanningProductV2
  fulfilment : FulfilmentV2
  checkout : CheckoutCost

/-- The choice is admissible for a need: a currently eligible price of a matching product, with a
complete fulfilment and a checkout, ordinary or with any official offer. -/
structure AdmissibleChoice (host : Host) (input : ServerPlanningInputV2) (now : ℤ)
    (need : PlanningNeedV2) (c : Choice) : Prop where
  price : c.observation ∈ input.ordinaryPrices
  eligible : classifyFreshness now c.observation.observedAt = .eligible
  product : c.product ∈ input.products
  ean : c.product.ean = c.observation.ean
  matched : ∃ rule ∈ input.matchingRules, rule.id = need.matchRuleId ∧
    matchesConstraints host (toLegacyProduct c.product) rule = true
  fulfilment : calculatePackageFulfilmentV2 c.product.canonicalProductId need.id need.requested
    c.product.packageMeasure = .ok c.fulfilment
  checkout : ∃ offer : Option OfficialOffer, (∀ o ∈ offer, o ∈ input.officialOffers) ∧
    calculateCheckoutCost host c.product.canonicalProductId c.observation.chain.text
      c.fulfilment.packageCount c.observation.amountOre offer (offerContext input now) =
        .ok c.checkout

/-- The cost of choices. -/
def choiceTotalOre (cs : List Choice) : ℕ := (cs.map (·.checkout.totalOre)).sum

/-- The number of distinct chains of choices. -/
def choiceChainCount (cs : List Choice) : ℕ := (cs.map (·.observation.chain)).dedup.length

/-- One admissible choice for every need, within the bounds on cost and chains. -/
structure FeasibleChoice (host : Host) (input : ServerPlanningInputV2) (now : ℤ)
    (cs : List Choice) : Prop where
  admissible : List.Forall₂ (AdmissibleChoice host input now) input.needs cs
  total : choiceTotalOre cs ≤ maxPersistedMoneyOre
  chains : choiceChainCount cs ≤ input.maxStores

/-- A feasible choice is at least as good as a plan in every respect and better in one. All choices
substitute the same needs. -/
def BeatsPlan (input : ServerPlanningInputV2) (cs : List Choice) (plan : PlanResultV2) : Prop :=
  (choiceTotalOre cs ≤ plan.totalOre ∧ choiceChainCount cs ≤ plan.chains.length ∧
    (substitutedNeeds input).length ≤ plan.substitutions.length) ∧
  (choiceTotalOre cs < plan.totalOre ∨ choiceChainCount cs < plan.chains.length ∨
    (substitutedNeeds input).length < plan.substitutions.length)

/-- **Optimality of the planner.** -/
structure PlansAreOptimal (host : Host) (input : ServerPlanningInputV2) (now : ℤ) : Prop where
  /-- Each feasible choice is matched by a returned plan. -/
  covers : ∀ cs, FeasibleChoice host input now cs → ∃ plan ∈ calculatePlansV2 host input now,
    plan.totalOre ≤ choiceTotalOre cs ∧ plan.chains.length ≤ choiceChainCount cs
  /-- No returned plan is beaten by a feasible choice. -/
  unbeaten : ∀ plan ∈ calculatePlansV2 host input now, ∀ cs, FeasibleChoice host input now cs →
    ¬ BeatsPlan input cs plan
  /-- Keeping one plan for each identity text never keeps a dearer one. -/
  keepsCheaper : ∀ plan ∈ subsetPlans host input now,
    ∀ kept ∈ enumerateCompletePlanCandidatesV2 host input now,
      planIdentity kept.assignments = planIdentity plan.assignments →
        kept.totalOre ≤ plan.totalOre

/-! ### Choices and candidates -/

section Choices

variable {need : PlanningNeedV2} {subset : List Chain} {a : PlanAssignmentV2} {c : Choice}

theorem needSchema_toLegacyNeed (h : PlanningNeedV2Schema need) :
    NeedSchema (toLegacyNeed need) :=
  ⟨h.id.ne_nil, h.query.ne_nil, h.requested.1, h.matchRuleId.ne_nil⟩

theorem productSchema_toLegacyProduct {product : PlanningProductV2}
    (h : PlanningProductV2Schema product) : ProductSchema (toLegacyProduct product) where
  ean := gtinShape_of_isValidGtin h.ean
  name := h.name.ne_nil
  brand brand hbrand := (h.brand brand hbrand).ne_nil
  packageQuantity quantity hquantity := by
    cases hquantity
    exact_mod_cast h.packageMeasure.1
  productFamily family hfamily := (h.productFamily family hfamily).ne_nil

section

variable (h : ServerPlanningInputV2Schema host input)

include h

/-- A GTIN is matched for a need when the product with that GTIN satisfies the rule. -/
theorem mem_matchingEans_iff (hneed : need ∈ input.needs) {rule : MatchRule}
    (hrule : ruleById input need.matchRuleId = some rule) {ean : JsString} :
    ean ∈ matchingEans host input need rule ↔
      ∃ product ∈ input.products, product.ean = ean ∧
        matchesConstraints host (toLegacyProduct product) rule = true := by
  obtain ⟨hmem, hid⟩ := (ruleById_eq_some_iff h).mp hrule
  rw [matchingEans, mem_matchProducts_ean (needSchema_toLegacyNeed (h.needs need hneed))
    (h.matchingRules rule hmem) hid.symm]
  constructor
  · rintro ⟨legacy, hlegacy, -, hmatch, rfl⟩
    obtain ⟨product, hproduct, rfl⟩ := List.mem_map.mp hlegacy
    exact ⟨product, hproduct, rfl, hmatch⟩
  · rintro ⟨product, hproduct, rfl, hmatch⟩
    exact ⟨toLegacyProduct product, List.mem_map.mpr ⟨product, hproduct, rfl⟩,
      productSchema_toLegacyProduct (h.products product hproduct), hmatch, rfl⟩

/-- An admissible choice is matched by a candidate at its chain that costs no more. -/
theorem exists_candidate_of_choice (hneed : need ∈ input.needs)
    (hc : AdmissibleChoice host input now need c)
    (hchain : c.observation.chain ∈ subset) :
    ∃ rule a, ruleById input need.matchRuleId = some rule ∧
      a ∈ candidates host input now subset need rule ∧ a.costOre ≤ c.checkout.totalOre := by
  obtain ⟨rule, hmem, hid, hmatch⟩ := hc.matched
  have hrule := (ruleById_eq_some_iff h).mpr ⟨hmem, hid⟩
  have hproduct := (productByEan_eq_some_iff h).mpr ⟨hc.product, hc.ean⟩
  obtain ⟨offer, hoffer, hcost⟩ := hc.checkout
  obtain ⟨best, hbest⟩ := exists_bestCheckout hcost
    (indexOfficialOffers input.officialOffers
      (productChainKey c.product.canonicalProductId c.observation.chain.text))
  have hle : best.checkout.totalOre ≤ c.checkout.totalOre := by
    refine bestCheckout_le hbest hcost fun o ho hchainId hexact => ?_
    rw [← hchainId]
    exact mem_indexOfficialOffers.mpr ⟨hoffer o ho, _, hexact, rfl⟩
  have hcandidate : ∃ a, candidateAt host input now need c.observation = some a ∧
      a.costOre = best.checkout.totalOre := by
    simp only [candidateAt, hproduct, hc.fulfilment, hbest]
    exact ⟨_, rfl, rfl⟩
  obtain ⟨a, ha, hcostOre⟩ := hcandidate
  refine ⟨rule, a, hrule, mem_candidates.mpr ⟨c.observation,
    mem_eligiblePrices.mpr ⟨hc.price, hc.eligible⟩, hchain, ?_, ha⟩, hcostOre ▸ hle⟩
  exact (mem_matchingEans_iff h hneed hrule).mpr ⟨c.product, hc.product, hc.ean, hmatch⟩

/-- A candidate is an admissible choice. -/
theorem exists_choice_of_serves (hneed : need ∈ input.needs)
    (ha : Serves host input now subset need a) :
    ∃ c, AdmissibleChoice host input now need c ∧ c.observation.chain = a.chain ∧
      c.checkout.totalOre = a.costOre := by
  obtain ⟨rule, hrule, hmem⟩ := ha
  obtain ⟨observation, hobservation, -, hmatched, hcandidate⟩ := mem_candidates.mp hmem
  obtain ⟨product, fulfilment, best, hproduct, hfulfilment, hbest, rfl⟩ :=
    candidateAt_spec hcandidate
  obtain ⟨hproductMem, hean⟩ := (productByEan_eq_some_iff h).mp hproduct
  obtain ⟨hruleMem, hid⟩ := (ruleById_eq_some_iff h).mp hrule
  obtain ⟨matched, hmatchedMem, hmatchedEan, hmatch⟩ :=
    (mem_matchingEans_iff h hneed hrule).mp hmatched
  have hsame : matched = product :=
    List.inj_on_of_nodup_map h.uniqueEans hmatchedMem hproductMem (hmatchedEan.trans hean.symm)
  subst hsame
  obtain ⟨hcost, -, hoffers⟩ := bestCheckout_spec hbest
  refine ⟨⟨observation, matched, fulfilment, best.checkout⟩, ?_, rfl, rfl⟩
  exact
    { price := (mem_eligiblePrices.mp hobservation).1
      eligible := (mem_eligiblePrices.mp hobservation).2
      product := hproductMem
      ean := hean
      matched := ⟨rule, hruleMem, hid, hmatch⟩
      fulfilment := hfulfilment
      checkout := ⟨best.offer, fun o ho => (mem_indexOfficialOffers.mp (hoffers o ho)).1, hcost⟩ }

end

end Choices

/-! ### Greed within a subset of the chains -/

/-- **A feasible choice is matched by a best choice** that costs no more and uses no more chains:
the best choice within the chains of the feasible one. -/
theorem exists_bestChoice (h : ServerPlanningInputV2Schema host input) {cs : List Choice}
    (hcs : FeasibleChoice host input now cs) :
    ∃ subset selected, BestChoice host input now subset selected ∧
      totalOre selected ≤ choiceTotalOre cs ∧ chainCount selected ≤ choiceChainCount cs := by
  let used := cs.map (·.observation.chain)
  let subset := (availableChains input now).filter (· ∈ used)
  have hmemSubset : ∀ c ∈ cs, c.observation.chain ∈ subset := by
    intro c hc
    obtain ⟨need, -, hadm⟩ := Choices.exists_mem_of_forall₂ hcs.admissible hc
    refine List.mem_filter.mpr ⟨List.mem_filter.mpr ⟨mem_chainOrder _, ?_⟩, ?_⟩
    · exact List.any_eq_true.mpr ⟨c.observation,
        mem_eligiblePrices.mpr ⟨hadm.price, hadm.eligible⟩, by simp⟩
    · exact decide_eq_true (List.mem_map.mpr ⟨c, hc, rfl⟩)
  have hnodup : subset.Nodup := (nodup_chainOrder.filter _).filter _
  have hcount : subset.length ≤ choiceChainCount cs := by
    refine (List.subperm_of_subset hnodup fun chain hchain => ?_).length_le
    exact List.mem_dedup.mpr (of_decide_eq_true (List.mem_filter.mp hchain).2)
  have hmatched : ∃ selected, List.Forall₂
      (fun need a => selectedAssignment host input now subset need = some a) input.needs selected ∧
      List.Forall₂ (fun c a => a.costOre ≤ c.checkout.totalOre) cs selected := by
    have hadm : List.Forall₂ (fun need c => AdmissibleChoice host input now need c ∧
        c.observation.chain ∈ subset) input.needs cs := by
      refine List.forall₂_iff_get.mpr ⟨hcs.admissible.length_eq, fun i hi hj => ⟨?_, ?_⟩⟩
      · exact hcs.admissible.get hi hj
      · exact hmemSubset _ (List.get_mem _ _)
    refine Choices.exists_forall₂_forall₂ hadm fun need hneed c hc => ?_
    obtain ⟨rule, a, hrule, ha, hle⟩ := exists_candidate_of_choice h hneed hc.1 hc.2
    obtain ⟨least, hleast⟩ := exists_least compareCandidates ha
    refine ⟨least, ?_, (costOre_le_of_isLE (least_isLE hleast ha)).trans hle⟩
    simp only [selectedAssignment, hrule, hleast]
  obtain ⟨selected, hselected, hcheaper⟩ := hmatched
  have htotal : totalOre selected ≤ choiceTotalOre cs := Choices.sum_map_le_of_forall₂ hcheaper
  have hbest : BestChoice host input now subset selected :=
    { nonempty := by
        have hpos : 0 < cs.length := by
          rw [← hcs.admissible.length_eq]
          exact h.length_needs.1
        exact List.ne_nil_of_mem (hmemSubset _ (List.get_mem cs ⟨0, hpos⟩))
      available := List.filter_sublist
      bounded := le_min (hcount.trans hcs.chains)
        ((hcount.trans hcs.chains).trans h.maxStores.2)
      best := hselected.imp fun need a ha => (selectedAssignment_eq_some_iff h).mp ha
      total := htotal.trans hcs.total }
  exact ⟨subset, selected, hbest, htotal, (hbest.chainCount_le h).trans hcount⟩

/-- A best choice is feasible. -/
theorem exists_feasibleChoice (h : ServerPlanningInputV2Schema host input) {subset : List Chain}
    {selected : List PlanAssignmentV2} (hbest : BestChoice host input now subset selected) :
    ∃ cs, FeasibleChoice host input now cs ∧ choiceTotalOre cs = totalOre selected ∧
      choiceChainCount cs = chainCount selected := by
  obtain ⟨cs, hadmissible, hsame⟩ := Choices.exists_forall₂_forall₂ hbest.serves
    fun need hneed a ha => exists_choice_of_serves h hneed ha
  have htotal : choiceTotalOre cs = totalOre selected :=
    congrArg List.sum (Choices.map_eq_map_of_forall₂ hsame fun a c hac => hac.2.symm).symm
  have hchains : choiceChainCount cs = chainCount selected :=
    congrArg (fun l => (List.dedup l).length)
      (Choices.map_eq_map_of_forall₂ hsame fun a c hac => hac.1.symm).symm
  refine ⟨cs, ⟨hadmissible, htotal ▸ hbest.total, ?_⟩, htotal, hchains⟩
  rw [hchains]
  exact (hbest.chainCount_le h).trans (hbest.bounded.trans (Nat.min_le_left _ _))

/-! ### One plan for each identity text -/

variable (selected : List PlanAssignmentV2)

/-- The identity text of the plan of selected assignments. -/
def identityText : JsString :=
  planIdentity (sortBy (on (·.needId) compareText) selected)

/-- A best choice survives: no best choice with its identity text comes after it, by number of
chains and then by cost. -/
def Survives (host : Host) (input : ServerPlanningInputV2) (now : ℤ)
    (selected : List PlanAssignmentV2) : Prop :=
  (∃ subset, BestChoice host input now subset selected) ∧
    ∀ subset other, BestChoice host input now subset other →
      identityText other = identityText selected →
        chainCount other < chainCount selected ∨
          chainCount other = chainCount selected ∧ totalOre other ≤ totalOre selected

/-- **What keeping one plan for each identity text must satisfy.** -/
structure DeduplicationIsHarmless (host : Host) (input : ServerPlanningInputV2) (now : ℤ) :
    Prop where
  /-- A need named `__proto__` has no freshness; it must be that nothing can be planned anyway. -/
  named : protoKey ∈ input.needs.map (·.id) →
    ∀ subset selected, ¬ BestChoice host input now subset selected
  /-- A surviving choice is a cheapest of the best choices with its text. -/
  cheapest : ∀ kept, Survives host input now kept → ∀ subset selected,
    BestChoice host input now subset selected → identityText selected = identityText kept →
      totalOre kept ≤ totalOre selected
  /-- Each best choice is matched by a surviving one. -/
  covered : ∀ subset selected, BestChoice host input now subset selected →
    ∃ kept, Survives host input now kept ∧ totalOre kept ≤ totalOre selected ∧
      chainCount kept ≤ chainCount selected

theorem planIdentity_planOfAssignments :
    planIdentity (planOfAssignments input selected).assignments = identityText selected := rfl

theorem length_substitutions_planOfAssignments :
    (planOfAssignments input selected).substitutions.length = (substitutedNeeds input).length := by
  simp [planOfAssignments]

/-- The plan order, for two plans with the same substitutions and the same text. -/
theorem comparePlans_isLE_iff {left right : PlanResultV2}
    (hsubstitutions : left.substitutions.length = right.substitutions.length)
    (htext : planIdentity left.assignments = planIdentity right.assignments) :
    (comparePlans left right).isLE = true ↔ left.chains.length < right.chains.length ∨
      left.chains.length = right.chains.length ∧ left.totalOre ≤ right.totalOre := by
  have htie : (on (fun plan : PlanResultV2 => planIdentity plan.assignments) compareText left
      right).isLE = true := by
    rw [on_eq_iff (f := fun plan : PlanResultV2 => planIdentity plan.assignments) |>.mpr htext]
    rfl
  rw [comparePlans, isLE_compareLex_compareOn_iff, isLE_compareLex_compareOn_iff,
    isLE_compareLex_compareOn_iff]
  simp only [hsubstitutions, Nat.lt_irrefl, htie, and_true, false_or, true_and,
    Nat.le_iff_lt_or_eq]

variable {plan : PlanResultV2}

/-- The enumerated plans are those of surviving choices. -/
theorem exists_survivor_of_mem_enumerate (h : ServerPlanningInputV2Schema host input)
    (hplan : plan ∈ enumerateCompletePlanCandidatesV2 host input now) :
    protoKey ∉ input.needs.map (·.id) ∧
      ∃ kept, Survives host input now kept ∧ plan = planOfAssignments input kept := by
  obtain ⟨hmem, hlast⟩ := uniqueAssignments_spec ((mem_enumerate_iff h).mp hplan)
  obtain ⟨hproto, subset, kept, hbest, rfl⟩ := (mem_subsetPlans_iff h).mp hmem
  refine ⟨hproto, kept, ⟨⟨subset, hbest⟩, fun subset' other hother htext => ?_⟩, rfl⟩
  have hle := hlast (planOfAssignments input other)
    ((mem_subsetPlans_iff h).mpr ⟨hproto, subset', other, hother, rfl⟩) htext
  rw [comparePlans_isLE_iff (by simp only [length_substitutions_planOfAssignments])
    (by simpa only [planIdentity_planOfAssignments] using htext)] at hle
  simpa only [length_chains_planOfAssignments, totalOre_planOfAssignments] using hle

/-- A surviving choice is enumerated, up to plans with its text, cost and number of chains. -/
theorem exists_mem_enumerate_of_survives (h : ServerPlanningInputV2Schema host input)
    (hproto : protoKey ∉ input.needs.map (·.id)) {kept : List PlanAssignmentV2}
    (hkept : Survives host input now kept) :
    ∃ plan ∈ enumerateCompletePlanCandidatesV2 host input now,
      planIdentity plan.assignments = identityText kept ∧ plan.totalOre = totalOre kept ∧
        plan.chains.length = chainCount kept := by
  obtain ⟨⟨subset, hbest⟩, hlast⟩ := hkept
  obtain ⟨plan, hplan, htext⟩ := exists_mem_uniqueAssignments
    ((mem_subsetPlans_iff h).mpr ⟨hproto, subset, kept, hbest, rfl⟩)
  rw [planIdentity_planOfAssignments] at htext
  have hmem := (mem_enumerate_iff h).mpr hplan
  obtain ⟨-, other, ⟨⟨subset', hother⟩, hlast'⟩, rfl⟩ := exists_survivor_of_mem_enumerate h hmem
  have hle := hlast subset' other hother htext
  have hge := hlast' subset kept hbest htext.symm
  refine ⟨_, hmem, htext, ?_, ?_⟩
  · rw [totalOre_planOfAssignments]
    omega
  · rw [length_chains_planOfAssignments]
    omega

/-! ### Optimality -/

theorem dominates_iff {left right : PlanResultV2} :
    dominates left right = true ↔
      (left.totalOre ≤ right.totalOre ∧ left.chains.length ≤ right.chains.length ∧
        left.substitutions.length ≤ right.substitutions.length) ∧
      (left.totalOre < right.totalOre ∨ left.chains.length < right.chains.length ∨
        left.substitutions.length < right.substitutions.length) := by
  simp [dominates, and_assoc, or_assoc]

theorem strictOn_dominates (plans : List PlanResultV2) : Pareto.StrictOn dominates plans where
  irrefl plan _ := by simp [dominates]
  trans a _ b _ c _ hab hbc := by
    rw [dominates_iff] at hab hbc ⊢
    omega

/-- Each enumerated plan is matched by a returned one. -/
theorem exists_mem_calculatePlansV2
    (hplan : plan ∈ enumerateCompletePlanCandidatesV2 host input now) :
    ∃ returned ∈ calculatePlansV2 host input now,
      returned.totalOre ≤ plan.totalOre ∧ returned.chains.length ≤ plan.chains.length := by
  obtain ⟨returned, hreturned, rfl | hdominates⟩ :=
    Pareto.exists_mem_frontier (strictOn_dominates _) hplan
  · exact ⟨returned, mem_sortBy.mpr hreturned, le_rfl, le_rfl⟩
  · have hle := (dominates_iff.mp hdominates).1
    exact ⟨returned, mem_sortBy.mpr hreturned, hle.1, hle.2.1⟩

theorem mem_enumerate_of_mem_calculatePlansV2 (hplan : plan ∈ calculatePlansV2 host input now) :
    plan ∈ enumerateCompletePlanCandidatesV2 host input now :=
  (Pareto.mem_frontier.mp (mem_sortBy.mp hplan)).1

section

variable (h : ServerPlanningInputV2Schema host input)

include h

/-- A returned plan that matches every feasible choice is beaten by none: a choice that beats a
returned plan is matched by another returned plan, which would dominate the first. -/
theorem unbeaten_of_covers (hcovers : ∀ cs, FeasibleChoice host input now cs → ∃ plan ∈ calculatePlansV2 host input now,
      plan.totalOre ≤ choiceTotalOre cs ∧ plan.chains.length ≤ choiceChainCount cs)
    (hplan : plan ∈ calculatePlansV2 host input now) {cs : List Choice}
    (hcs : FeasibleChoice host input now cs) : ¬ BeatsPlan input cs plan := by
  intro hbeats
  obtain ⟨other, hother, htotal, hchains⟩ := hcovers cs hcs
  have hsubstitutions : ∀ p ∈ calculatePlansV2 host input now,
      p.substitutions.length = (substitutedNeeds input).length := by
    intro p hp
    obtain ⟨-, kept, -, rfl⟩ :=
      exists_survivor_of_mem_enumerate h (mem_enumerate_of_mem_calculatePlansV2 hp)
    exact length_substitutions_planOfAssignments kept
  have hdominates : dominates other plan = true := by
    have hself := hsubstitutions plan hplan
    have hothers := hsubstitutions other hother
    obtain ⟨hle, hlt⟩ := hbeats
    rw [dominates_iff]
    omega
  have hnot := (Pareto.mem_frontier.mp (mem_sortBy.mp hplan)).2 other
    (mem_enumerate_of_mem_calculatePlansV2 hother)
  rw [hdominates] at hnot
  cases hnot

/-- **When the plans are optimal**: exactly when keeping one plan for each identity text is
harmless.

**Proof sketch.** A feasible choice is matched by a best choice, and a best choice is feasible. The
enumerated plans are those of the surviving choices, so what is lost on the way from the best
choices to the plans is what keeping one of each text loses. -/
theorem plansAreOptimal_iff :
    PlansAreOptimal host input now ↔ DeduplicationIsHarmless host input now := by
  constructor
  · intro hoptimal
    have hreturned : ∀ subset selected, BestChoice host input now subset selected →
        ∃ plan ∈ enumerateCompletePlanCandidatesV2 host input now,
          plan.totalOre ≤ totalOre selected ∧ plan.chains.length ≤ chainCount selected := by
      intro subset selected hbest
      obtain ⟨cs, hcs, htotal, hchains⟩ := exists_feasibleChoice h hbest
      obtain ⟨plan, hplan, hle⟩ := hoptimal.covers cs hcs
      rw [htotal, hchains] at hle
      exact ⟨plan, mem_enumerate_of_mem_calculatePlansV2 hplan, hle⟩
    refine ⟨fun hproto subset selected hbest => ?_,
      fun kept hkept subset selected hbest htext => ?_, fun subset selected hbest => ?_⟩
    · obtain ⟨plan, hplan, -⟩ := hreturned subset selected hbest
      exact (exists_survivor_of_mem_enumerate h hplan).1 hproto
    · obtain ⟨some, hsome, -⟩ := hreturned subset selected hbest
      have hproto := (exists_survivor_of_mem_enumerate h hsome).1
      obtain ⟨plan, hplan, hplanText, hplanTotal, -⟩ :=
        exists_mem_enumerate_of_survives h hproto hkept
      have hle := hoptimal.keepsCheaper (planOfAssignments input selected)
        ((mem_subsetPlans_iff h).mpr ⟨hproto, subset, selected, hbest, rfl⟩) plan hplan
        (hplanText.trans htext.symm)
      rwa [hplanTotal, totalOre_planOfAssignments] at hle
    · obtain ⟨plan, hplan, hle⟩ := hreturned subset selected hbest
      obtain ⟨-, kept, hkept, rfl⟩ := exists_survivor_of_mem_enumerate h hplan
      rw [totalOre_planOfAssignments, length_chains_planOfAssignments] at hle
      exact ⟨kept, hkept, hle⟩
  · intro hharmless
    have hcovers : ∀ cs, FeasibleChoice host input now cs →
        ∃ plan ∈ calculatePlansV2 host input now,
          plan.totalOre ≤ choiceTotalOre cs ∧ plan.chains.length ≤ choiceChainCount cs := by
      intro cs hcs
      obtain ⟨subset, selected, hbest, htotal, hchains⟩ := exists_bestChoice h hcs
      have hproto : protoKey ∉ input.needs.map (·.id) :=
        fun hproto => hharmless.named hproto subset selected hbest
      obtain ⟨kept, hkept, hkeptTotal, hkeptChains⟩ := hharmless.covered subset selected hbest
      obtain ⟨plan, hplan, -, hplanTotal, hplanChains⟩ :=
        exists_mem_enumerate_of_survives h hproto hkept
      obtain ⟨returned, hreturned, hle, hleChains⟩ := exists_mem_calculatePlansV2 hplan
      exact ⟨returned, hreturned, by omega, by omega⟩
    refine ⟨hcovers, fun plan hplan cs hcs => unbeaten_of_covers h hcovers hplan hcs, ?_⟩
    intro plan hplan kept hkept htext
    obtain ⟨-, subset, selected, hbest, rfl⟩ := (mem_subsetPlans_iff h).mp hplan
    obtain ⟨-, survivor, hsurvivor, rfl⟩ := exists_survivor_of_mem_enumerate h hkept
    rw [totalOre_planOfAssignments, totalOre_planOfAssignments]
    exact hharmless.cheapest survivor hsurvivor subset selected hbest htext.symm

/-- Keeping one plan for each text is harmless when plans with the same text cost the same and visit
as many chains. -/
theorem deduplicationIsHarmless_of_texts (hproto : protoKey ∉ input.needs.map (·.id))
    (htexts : ∀ p ∈ subsetPlans host input now, ∀ q ∈ subsetPlans host input now,
      planIdentity p.assignments = planIdentity q.assignments →
        p.totalOre = q.totalOre ∧ p.chains.length = q.chains.length) :
    DeduplicationIsHarmless host input now := by
  have hsame : ∀ subset p, BestChoice host input now subset p → ∀ subset' q,
      BestChoice host input now subset' q → identityText p = identityText q →
        totalOre p = totalOre q ∧ chainCount p = chainCount q := by
    intro subset p hp subset' q hq htext
    have heq := htexts _ ((mem_subsetPlans_iff h).mpr ⟨hproto, subset, p, hp, rfl⟩) _
      ((mem_subsetPlans_iff h).mpr ⟨hproto, subset', q, hq, rfl⟩) htext
    simpa only [totalOre_planOfAssignments, length_chains_planOfAssignments] using heq
  refine ⟨fun hin => absurd hin hproto, fun kept hkept subset selected hbest htext => ?_,
    fun subset selected hbest => ⟨selected, ⟨⟨subset, hbest⟩, ?_⟩, le_rfl, le_rfl⟩⟩
  · obtain ⟨⟨subset', hkeptBest⟩, -⟩ := hkept
    exact (hsame subset selected hbest subset' kept hkeptBest htext).1.ge
  · intro subset' other hother htext
    obtain ⟨htotal, hchains⟩ := hsame subset' other hother subset selected hbest htext
    exact Or.inr ⟨hchains, htotal.le⟩

end

/-! ### Two chains, one product each -/

/-- One package of milk, sold at Bunnpris for 1 krone, and at Extra on offer for 2 kroner. -/
def milkInput (bunnprisProductId extraOfferId : JsString) : ServerPlanningInputV2 where
  needs := [⟨js "n", js "melk", ⟨1, .package⟩, js "r"⟩]
  matchingRules := [⟨js "r", .flexible (js "melk"), js "melk"⟩]
  products := [
    ⟨bunnprisProductId, js "00000000", js "melk", none, ⟨1, .package⟩, some (js "melk")⟩,
    ⟨js "q", js "00000017", js "melk", none, ⟨1, .package⟩, some (js "melk")⟩]
  ordinaryPrices := [⟨js "00000000", .bunnpris, 100, 1782907200000, js "s"⟩,
    ⟨js "00000017", .extra, 300, 1782907200000, js "s"⟩]
  officialOffers := [
    { id := extraOfferId
      sourceId := js "s"
      sourceRecordId := js "record"
      chainId := js "extra"
      productMatch := .exact (js "q")
      pricing := .unit 200
      beforePriceOre := none
      conditions := [.everyone]
      applicability := ⟨1782820800000, 1783425600000, .national (js "NO"), [.inStore]⟩
      evidenceLevel := .reviewed
      capturedAt := 1782907200000 }]
  offerEligibility :=
    { maxEvidenceAgeMs := 86400000
      location := ⟨js "NO", none, none, none⟩
      channel := .inStore
      enabledSourceIds := [js "s"]
      enabledMembershipProgramIds := []
      geographicDirectory := none }
  maxStores := 1

/-- With plain identifiers the plans are optimal. -/
theorem plansAreOptimal_plain_identifiers :
    PlansAreOptimal Host.ascii (milkInput (js "p") (js "o")) 1782907260000 := by
  have hvalid : ServerPlanningInputV2Schema Host.ascii (milkInput (js "p") (js "o")) := by decide
  refine (plansAreOptimal_iff hvalid).mpr
    (deduplicationIsHarmless_of_texts hvalid (by decide) ?_)
  decide +kernel

/-- A product identifier that holds the text of the other assignment. -/
def nestedProductId : JsString :=
  js "q:00000017:extra:200:1:package:1:package:1:1:package:0:package:o"

/-- An offer identifier that ends with the text of the other assignment. -/
def nestedOfferId : JsString :=
  js "o:00000000:bunnpris:100:1:package:1:package:1:1:package:0:package:ordinary"

/-- The cheaper way to serve the need: one package at Bunnpris, at the ordinary price. -/
def bunnprisChoice : Choice where
  observation := ⟨js "00000000", .bunnpris, 100, 1782907200000, js "s"⟩
  product :=
    ⟨nestedProductId, js "00000000", js "melk", none, ⟨1, .package⟩, some (js "melk")⟩
  fulfilment :=
    ⟨js "n", nestedProductId, ⟨1, .package⟩, ⟨1, .package⟩, 1, ⟨1, .package⟩, ⟨0, .package⟩⟩
  checkout := ordinaryCheckoutCost 100

theorem feasibleChoice_bunnprisChoice :
    FeasibleChoice Host.ascii (milkInput nestedProductId nestedOfferId) 1782907260000
      [bunnprisChoice] where
  admissible := .cons
    { price := by decide
      eligible := by decide
      product := by decide
      ean := rfl
      matched := by decide
      fulfilment := by decide
      checkout := ⟨none, by decide, by decide⟩ } .nil
  total := by decide
  chains := by decide

/-- With separators inside identifiers the two plans have one text, and only the dearer is kept. -/
theorem not_plansAreOptimal_nested_identifiers :
    ¬ PlansAreOptimal Host.ascii (milkInput nestedProductId nestedOfferId) 1782907260000 := by
  intro hoptimal
  have hreturned : ∀ plan ∈ calculatePlansV2 Host.ascii (milkInput nestedProductId nestedOfferId)
      1782907260000, plan.totalOre = 200 := by decide +kernel
  obtain ⟨plan, hplan, hle, -⟩ := hoptimal.covers _ feasibleChoice_bunnprisChoice
  have hcost : choiceTotalOre [bunnprisChoice] = 100 := rfl
  rw [hreturned plan hplan, hcost] at hle
  omega

end Handleplan.PlannerV2
