import Handleplan.Domain.Planner
import Handleplan.Domain.PlannerV2Order

/-!
# Where the first planner looks at the order of its input

The first planner takes prices and products with repeated keys. Of several records of one GTIN it
goes by the last, and of two prices that agree on product, chain, amount and time it takes the
first, whatever their sources. When neither makes a difference its plans do not depend on the order
of the input, and the plans of the second planner never do.

## Main definitions

* `PlanRequest.Reorders` — the same request with its lists in another order.
* `Planner.Serves` — a selection of chains of which a plan can be made.
* `Planner.OrderIndependent` — no choice between candidates is left to the input order.

## Main results

* `Planner.exists_reorders_selects` — otherwise the selection of an assignment depends on it.
* `Planner.calculatePlans_reorders` — both planners return the same plans.
-/

namespace Handleplan

open JsString Sorting

/-- The same request with its lists in another order. -/
structure PlanRequest.Reorders (request request' : PlanRequest) : Prop where
  needs : request.needs.Perm request'.needs
  matchingRules : request.matchingRules.Perm request'.matchingRules
  products : request.products.Perm request'.products
  prices : request.prices.Perm request'.prices
  maxStores : request'.maxStores = request.maxStores

theorem PlanRequest.Reorders.symm {request request' : PlanRequest} (h : request.Reorders request') :
    request'.Reorders request where
  needs := h.needs.symm
  matchingRules := h.matchingRules.symm
  products := h.products.symm
  prices := h.prices.symm
  maxStores := h.maxStores.symm

/-- A reordered request is parsed to a reordered request. -/
theorem PlanRequest.Reorders.parse {request request' : PlanRequest}
    (h : request.Reorders request') : request.parse.Reorders request'.parse :=
  { h with prices := h.prices.map _ }

namespace Planner

instance : Std.TransCmp compareCandidates := inferInstanceAs (Std.TransCmp (compareLex _ _))

/-- A candidate of a need within a subset of the chains before which no other one comes. -/
def IsLeast (host : Host) (request : PlanRequest) (now : ℤ) (subset : List Chain) (need : Need)
    (a : PlanAssignment) : Prop :=
  ∃ rule ∈ ruleById request need.matchRuleId, a ∈ candidates host request now subset need rule ∧
    ∀ b ∈ candidates host request now subset need rule, (compareCandidates a b).isLE = true

/-- A subset of the chains serves the required needs: each has a candidate, and the least ones are
not too dear together. -/
def Serves (host : Host) (request : PlanRequest) (now : ℤ) (subset : List Chain) : Prop :=
  ∃ selected, List.Forall₂ (IsLeast host request now subset) (requiredNeeds request) selected ∧
    (selected.map (·.costOre)).sum ≤ maxPersistedMoneyOre

/-- **No choice is left to the input order** of a parsed request: within a subset of the chains that
serves the required needs, with the products in some order, each of them has one least candidate,
which is the same with the products in any order. -/
def OrderIndependent (host : Host) (request : PlanRequest) (now : ℤ) : Prop :=
  ∀ subset ∈ Subsets.combinations (availableChains request now) (min request.maxStores 3),
    ∀ products, request.products.Perm products →
      Serves host { request with products := products } now subset →
        ∀ need ∈ requiredNeeds request, ∃ a, ∀ products', request.products.Perm products' →
          ∀ b, IsLeast host { request with products := products' } now subset need b ↔ b = a

variable {host : Host} {request request' : PlanRequest} {now : ℤ}

/-! ### Look-ups -/

section

variable (h : request.Reorders request')

include h

/-- A reordered request is as plannable. -/
theorem plannable_reorders (hplannable : Plannable request) :
    Plannable request' where
  schema :=
    { needs := fun need hneed => hplannable.schema.needs need (h.needs.mem_iff.mpr hneed)
      matchingRules := fun rule hrule =>
        hplannable.schema.matchingRules rule (h.matchingRules.mem_iff.mpr hrule)
      products := fun product hproduct =>
        hplannable.schema.products product (h.products.mem_iff.mpr hproduct)
      prices := fun price hprice => hplannable.schema.prices price (h.prices.mem_iff.mpr hprice)
      maxStores := h.maxStores ▸ hplannable.schema.maxStores }
  uniqueNeeds := (h.needs.map _).nodup_iff.mp hplannable.uniqueNeeds
  uniqueRules := (h.matchingRules.map _).nodup_iff.mp hplannable.uniqueRules
  quantities need hneed := hplannable.quantities need (h.needs.mem_iff.mpr hneed)

theorem ruleById_reorders (hplannable : Plannable request)
    (id : JsString) : ruleById request' id = ruleById request id := by
  refine Option.ext fun rule => ?_
  unfold ruleById
  rw [PlannerV2.get?_ofEntries_map_eq_some_iff (plannable_reorders h hplannable).uniqueRules,
    PlannerV2.get?_ofEntries_map_eq_some_iff hplannable.uniqueRules, h.matchingRules.mem_iff]

/-- The required needs are in the order of their unique identifiers. -/
theorem requiredNeeds_reorders (hplannable : Plannable request) :
    requiredNeeds request' = requiredNeeds request := by
  refine (sortBy_eq_of_perm (h.needs.filter _) ?_).symm
  intro a ha b hb hab
  exact List.inj_on_of_nodup_map hplannable.uniqueNeeds (List.mem_of_mem_filter ha)
    (List.mem_of_mem_filter hb) (on_eq_iff.mp hab)

theorem eligiblePrices_reorders :
    (eligiblePrices request now).Perm (eligiblePrices request' now) :=
  h.prices.filter _

theorem availableChains_reorders :
    availableChains request' now = availableChains request now := by
  unfold availableChains
  refine List.filter_congr fun chain _ => ?_
  exact (eligiblePrices_reorders h).any_eq.symm

end

/-! ### Candidates -/

variable {subset : List Chain} {need : Need} {a : PlanAssignment}

/-- The candidates of a need are a matter of the order of the products alone: in another order of the
other lists they are the same, in another order. -/
theorem candidates_reorders (h : request.Reorders request') (need : Need) (rule : MatchRule) :
    (candidates host { request with products := request'.products } now subset need rule).Perm
      (candidates host request' now subset need rule) :=
  (eligiblePrices_reorders h).filterMap _

theorem isLeast_reorders (h : request.Reorders request') (hplannable : Plannable request) :
    IsLeast host request' now subset need a ↔
      IsLeast host { request with products := request'.products } now subset need a := by
  have hmem : ∀ rule b, b ∈ candidates host request' now subset need rule ↔
      b ∈ candidates host { request with products := request'.products } now subset need rule :=
    fun rule b => (candidates_reorders h need rule).symm.mem_iff
  simp only [IsLeast, ruleById_reorders h hplannable, hmem]
  rfl

theorem serves_reorders (h : request.Reorders request') (hplannable : Plannable request)
    (hserves : Serves host request' now subset) :
    Serves host { request with products := request'.products } now subset := by
  obtain ⟨selected, hselected, hsum⟩ := hserves
  rw [requiredNeeds_reorders h hplannable] at hselected
  exact ⟨selected, hselected.imp fun _ _ => (isLeast_reorders h hplannable).mp, hsum⟩

/-- What is selected is a least candidate. -/
theorem isLeast_of_selectedAssignment (h : selectedAssignment host request now subset need = some a) :
    IsLeast host request now subset need a := by
  unfold selectedAssignment at h
  cases hrule : ruleById request need.matchRuleId with
  | none =>
    rw [hrule] at h
    cases h
  | some rule =>
    rw [hrule] at h
    exact ⟨rule, hrule, least_mem h, fun b => least_isLE h⟩

/-- Where there is a least candidate, one is selected. -/
theorem exists_selectedAssignment (h : IsLeast host request now subset need a) :
    ∃ b, selectedAssignment host request now subset need = some b := by
  obtain ⟨rule, hrule, ha, -⟩ := h
  rw [selectedAssignment, Option.mem_def.mp hrule]
  exact exists_least compareCandidates ha

/-- A single least candidate is selected. -/
theorem selectedAssignment_eq (h : ∀ b, IsLeast host request now subset need b ↔ b = a) :
    selectedAssignment host request now subset need = some a := by
  obtain ⟨b, hb⟩ := exists_selectedAssignment ((h a).mpr rfl)
  rw [hb, (h b).mp (isLeast_of_selectedAssignment hb)]

/-- Each least candidate is selected in some order of the prices: the one that has its price
first. -/
theorem exists_reorders_selectedAssignment (h : IsLeast host request now subset need a) :
    ∃ prices, request.prices.Perm prices ∧
      selectedAssignment host { request with prices := prices } now subset need = some a := by
  obtain ⟨rule, hrule, ha, hle⟩ := h
  obtain ⟨observation, hobservation, hcandidate⟩ := List.mem_filterMap.mp ha
  obtain ⟨hprice, heligible⟩ := List.mem_filter.mp hobservation
  obtain ⟨later, hperm⟩ : ∃ later, request.prices.Perm (observation :: later) :=
    ⟨_, List.perm_cons_erase hprice⟩
  refine ⟨observation :: later, hperm, ?_⟩
  have hfirst : candidates host { request with prices := observation :: later } now subset need
      rule = a :: candidates host { request with prices := later } now subset need rule := by
    rw [candidates, eligiblePrices, List.filter_cons, if_pos heligible]
    exact List.filterMap_cons_some hcandidate
  have hall : (candidates host request now subset need rule).Perm
      (candidates host { request with prices := observation :: later } now subset need rule) :=
    (hperm.filter _).filterMap _
  have hrule : ruleById { request with prices := observation :: later } need.matchRuleId =
      some rule := hrule
  unfold selectedAssignment
  rw [hrule]
  refine (congrArg _ hfirst).trans (least_cons_eq fun b hb => hle b (hall.mem_iff.mpr ?_))
  rw [hfirst]
  exact List.mem_cons_of_mem a hb

/-- **Where a choice is left to the input order, it decides what is selected**: within a subset of
the chains that serves the needs, two orders of the products and the prices select different
assignments.

**Proof sketch.** Let the first order be one that serves the needs. A need that has not one least
candidate throughout has, in a second order of the products, another least candidate or not the one
selected in the first; put first, its price is selected. -/
theorem exists_reorders_selects (hdependent : ¬ OrderIndependent host request now) :
    ∃ subset ∈ Subsets.combinations (availableChains request now) (min request.maxStores 3),
      ∃ first second, request.Reorders first ∧ request.Reorders second ∧
        Serves host first now subset ∧ ∃ need ∈ requiredNeeds request,
          selectedAssignment host first now subset need ≠
            selectedAssignment host second now subset need := by
  unfold OrderIndependent at hdependent
  push Not at hdependent
  obtain ⟨subset, hsubset, products, hperm, hserves, need, hneed, hnot⟩ := hdependent
  have hreorders : ∀ products prices, request.products.Perm products → request.prices.Perm prices →
      request.Reorders { request with products := products, prices := prices } :=
    fun _ _ hproducts hprices =>
      { needs := .refl _, matchingRules := .refl _, products := hproducts, prices := hprices
        maxStores := rfl }
  obtain ⟨selected, hselected, -⟩ := id hserves
  obtain ⟨a, -, ha⟩ := Choices.exists_choice_of_forall₂ hselected hneed
  obtain ⟨best, hbest⟩ := exists_selectedAssignment ha
  obtain ⟨products', hperm', b, hb⟩ := hnot best
  have hfirst := hreorders products request.prices hperm (.refl _)
  by_cases hsame : selectedAssignment host { request with products := products' } now subset need =
      some best
  · -- the other least candidate is selected where its price is first
    have hother : IsLeast host { request with products := products' } now subset need b ∧
        b ≠ best := by
      have hleast := isLeast_of_selectedAssignment hsame
      grind
    obtain ⟨prices, hprices, hselects⟩ := exists_reorders_selectedAssignment hother.1
    refine ⟨subset, hsubset, _, _, hfirst, hreorders products' prices hperm' hprices, hserves, need,
      hneed, fun heq => hother.2 ?_⟩
    exact Option.some.inj (hselects.symm.trans (heq.symm.trans hbest))
  · refine ⟨subset, hsubset, _, _, hfirst, hreorders products' request.prices hperm' (.refl _),
      hserves, need, hneed, fun heq => hsame (heq.symm.trans hbest)⟩

/-! ### Plans -/

/-- A subset of which a plan is made serves the needs. -/
theorem serves_of_planForSubset {plan : PlanResult}
    (h : planForSubset host request now subset = some plan) : Serves host request now subset := by
  unfold planForSubset at h
  cases hselected : (requiredNeeds request).mapM (selectedAssignment host request now subset) with
  | none =>
    rw [hselected] at h
    cases h
  | some selected =>
    rw [hselected] at h
    dsimp only at h
    split_ifs at h with hdear hchains
    refine ⟨selected, (Choices.mapM_eq_some_iff.mp hselected).imp fun _ _ =>
      isLeast_of_selectedAssignment, ?_⟩
    have hsum := ((sortBy_perm (on (·.needId) compareText) selected).map (·.costOre)).sum_eq
    exact hsum ▸ not_lt.mp hdear

/-- **The same plan** is made of a subset of the chains: none where it serves the needs in no order
of the products, and otherwise that of the single least candidates. -/
theorem planForSubset_reorders (h : request.Reorders request') (hplannable : Plannable request)
    (hindependent : OrderIndependent host request now)
    (hsubset : subset ∈
      Subsets.combinations (availableChains request now) (min request.maxStores 3)) :
    planForSubset host request' now subset = planForSubset host request now subset := by
  by_cases hserves : ∃ products, request.products.Perm products ∧
      Serves host { request with products := products } now subset
  · obtain ⟨products, hperm, hserves⟩ := hserves
    have hselected : (requiredNeeds request).mapM (selectedAssignment host request' now subset) =
        (requiredNeeds request).mapM (selectedAssignment host request now subset) := by
      refine Choices.mapM_congr fun need hneed => ?_
      obtain ⟨a, ha⟩ := hindependent subset hsubset products hperm hserves need hneed
      rw [selectedAssignment_eq fun b =>
          (isLeast_reorders h hplannable).trans (ha _ h.products b),
        selectedAssignment_eq (ha _ (.refl _))]
    have hplan : ∀ selected, planOfAssignments request' selected =
        planOfAssignments request selected := by
      intro selected
      simp only [planOfAssignments, substitutedNeeds, requiredNeeds_reorders h hplannable,
        ruleById_reorders h hplannable]
    simp only [planForSubset, requiredNeeds_reorders h hplannable, hselected, hplan, h.maxStores]
  · have hnone : planForSubset host request now subset = none :=
      Option.eq_none_iff_forall_ne_some.mpr fun _ hplan =>
        hserves ⟨_, .refl _, serves_of_planForSubset hplan⟩
    have hnone' : planForSubset host request' now subset = none :=
      Option.eq_none_iff_forall_ne_some.mpr fun _ hplan =>
        hserves ⟨_, h.products, serves_reorders h hplannable (serves_of_planForSubset hplan)⟩
    rw [hnone, hnone']

/-- **The first planner** returns the same plans when no choice is left to the input order. -/
theorem calculateParsedPlans_reorders (h : request.Reorders request')
    (hindependent : OrderIndependent host request now) :
    calculateParsedPlans host request' now = calculateParsedPlans host request now := by
  unfold calculateParsedPlans
  by_cases hplannable : Plannable request
  · have hsubsets : subsetPlans host request' now = subsetPlans host request now := by
      unfold subsetPlans
      rw [availableChains_reorders h, h.maxStores]
      exact List.filterMap_congr fun subset hsubset =>
        planForSubset_reorders h hplannable hindependent hsubset
    rw [if_neg (not_not.mpr hplannable), if_neg (not_not.mpr (plannable_reorders h hplannable)),
      requiredNeeds_reorders h hplannable, hsubsets]
  · have hplannable' : ¬ Plannable request' := fun h' => hplannable (plannable_reorders h.symm h')
    rw [if_pos hplannable, if_pos hplannable']

/-! ### Both planners -/

/-- **Neither planner looks at the order of its input**: the second one never does, but for the
order of the freshness keys, and the first one does not as long as no choice between candidates is
left to the input order.

**Proof sketch.** A reordered input holds the same records under its unique keys, so that each need
has the candidates of a reordering of the products alone, in another order. A subset of the chains
that serves the needs in no order of the products makes no plan; any other one makes the plan of the
single least candidates. The subsets are tried in a fixed order. -/
theorem calculatePlans_reorders (h : request.Reorders request')
    (hindependent : OrderIndependent host request.parse now) :
    calculatePlans host request' now = calculatePlans host request now ∧
      ∀ input input' : ServerPlanningInputV2, input.Reorders input' →
        List.Forall₂ PlanResultV2.Same (PlannerV2.calculatePlansV2 host input now)
          (PlannerV2.calculatePlansV2 host input' now) :=
  ⟨calculateParsedPlans_reorders h.parse hindependent,
    fun _ _ hinput => PlannerV2.same_calculatePlansV2 hinput⟩

/-! ### Milk from two sources -/

/-- The clock of the example: 2026-07-01T12:00:00.000Z. -/
def clock : ℤ := 1782907200000

/-- The price of a litre of milk, as a source reports it. -/
def milkPriceFrom (source : JsString) : PriceObservation where
  ean := js "00000000"
  chain := .bunnpris
  amountOre := 2000
  observedAt := clock
  source := source

/-- A need for one litre of milk. -/
def milkNeed (id : JsString) : Need where
  id := id
  query := js "melk"
  quantity := 1
  quantityUnit := .each
  matchRuleId := js "regel"
  required := true

/-- A request for milk. -/
def milkPlanRequest (needs : List Need) (prices : List PriceObservation) : PlanRequest where
  needs := needs
  matchingRules := [⟨js "regel", .exact (js "00000000"), js "Eksakt produkt"⟩]
  products := [⟨js "00000000", js "Melk", none, some 1000, some .ml, none⟩]
  prices := prices
  maxStores := 1

/-- One price of one product leaves no choice. -/
theorem orderIndependent_one_price (needs : List Need) :
    OrderIndependent Host.ascii (milkPlanRequest needs [milkPriceFrom (js "a")]).parse clock := by
  intro subset _ products hperm hserves need hneed
  obtain ⟨selected, hselected, -⟩ := hserves
  obtain ⟨a, -, ha⟩ := Choices.exists_choice_of_forall₂ hselected hneed
  refine ⟨a, fun products' hperm' b => ?_⟩
  obtain rfl := List.singleton_perm.mp hperm
  obtain rfl := List.singleton_perm.mp hperm'
  refine ⟨fun hb => ?_, fun hb => hb ▸ ha⟩
  obtain ⟨rule, hrule, ha, -⟩ := ha
  obtain ⟨rule', hrule', hb, -⟩ := hb
  obtain rfl := Option.some.inj (hrule.symm.trans hrule')
  obtain ⟨observation, hobservation, ha⟩ := List.mem_filterMap.mp ha
  obtain ⟨observation', hobservation', hb⟩ := List.mem_filterMap.mp hb
  have hsame : observation = observation' :=
    (List.mem_singleton.mp (List.mem_of_mem_filter hobservation)).trans
      (List.mem_singleton.mp (List.mem_of_mem_filter hobservation')).symm
  subst hsame
  exact Option.some.inj (hb.symm.trans ha)

/-- Two needs for milk make the same plan in either order. -/
theorem calculatePlans_reorders_two_needs :
    calculatePlans Host.ascii (milkPlanRequest [milkNeed (js "b"), milkNeed (js "a")]
        [milkPriceFrom (js "a")]) clock =
      calculatePlans Host.ascii (milkPlanRequest [milkNeed (js "a"), milkNeed (js "b")]
        [milkPriceFrom (js "a")]) clock := by
  have hreorders : (milkPlanRequest [milkNeed (js "a"), milkNeed (js "b")]
      [milkPriceFrom (js "a")]).Reorders (milkPlanRequest [milkNeed (js "b"), milkNeed (js "a")]
        [milkPriceFrom (js "a")]) :=
    { needs := .swap _ _ _, matchingRules := .refl _, products := .refl _, prices := .refl _
      maxStores := rfl }
  exact (calculatePlans_reorders hreorders (orderIndependent_one_price _)).1

/-- Two sources report the same price at the same time: the source of the plan is the one that comes
first in the request. -/
theorem not_calculatePlans_reorders_sources :
    (milkPlanRequest [milkNeed (js "a")] [milkPriceFrom (js "a"), milkPriceFrom (js "b")]).Reorders
        (milkPlanRequest [milkNeed (js "a")] [milkPriceFrom (js "b"), milkPriceFrom (js "a")]) ∧
      Plannable (milkPlanRequest [milkNeed (js "a")]
        [milkPriceFrom (js "a"), milkPriceFrom (js "b")]).parse ∧
      calculatePlans Host.ascii (milkPlanRequest [milkNeed (js "a")]
          [milkPriceFrom (js "b"), milkPriceFrom (js "a")]) clock ≠
        calculatePlans Host.ascii (milkPlanRequest [milkNeed (js "a")]
          [milkPriceFrom (js "a"), milkPriceFrom (js "b")]) clock :=
  ⟨{ needs := .refl _, matchingRules := .refl _, products := .refl _, prices := .swap _ _ _
     maxStores := rfl }, by decide +kernel, by decide +kernel⟩

end Planner

end Handleplan
