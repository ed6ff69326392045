import Handleplan.Domain.PlannerV2
import Handleplan.Lib.Choices

/-!
# What the steps of the second planner compute

One lemma for each step: the best checkout, the candidates of a need, the selected assignment and
the plan of a subset of chains.

## Main results

* `PlannerV2.bestCheckout_le` — no admissible checkout is cheaper than the best one.
* `PlannerV2.le_bestCheckout_iff` — the best checkout charges the least of what the
  offers at hand and the ordinary prices make.
* `PlannerV2.selectedAssignment_eq_some_iff` — the selected assignment is the least
  candidate.
* `PlannerV2.planResultV2Schema_planOfAssignments` — a plan of selected assignments
  passes its schema exactly when no need is named `__proto__`.
* `PlannerV2.mem_subsetPlans_iff` — the plans of the subsets.
-/

namespace Handleplan.PlannerV2

open JsString Sorting

variable {host : Host}

/-! ### Comparators -/

instance : Std.TransCmp compareCheckoutChoices := inferInstanceAs (Std.TransCmp (compareLex _ _))

instance : Std.TransCmp compareCandidates := inferInstanceAs (Std.TransCmp (compareLex _ _))

instance : Std.TransCmp comparePlans := inferInstanceAs (Std.TransCmp (compareLex _ _))

theorem totalOre_le_of_isLE {a b : CheckoutChoice} (h : (compareCheckoutChoices a b).isLE = true) :
    a.checkout.totalOre ≤ b.checkout.totalOre :=
  le_of_isLE_compareLex (f := fun choice : CheckoutChoice => choice.checkout.totalOre) h

theorem costOre_le_of_isLE {a b : PlanAssignmentV2} (h : (compareCandidates a b).isLE = true) :
    a.costOre ≤ b.costOre :=
  le_of_isLE_compareLex h

/-! ### The best checkout -/

section Checkout

variable {product : PlanningProductV2} {observation : PriceObservation} {packageCount : ℕ}
  {officialOffers : List OfficialOffer} {context : OfficialOfferEvaluationContext}

/-- An offer is a choice where the checkout applies it. -/
theorem offerChoice_eq_some_iff {offer : OfficialOffer} {choice : CheckoutChoice} :
    offerChoice host product observation packageCount context offer = some choice ↔
      choice.offer = some offer ∧
        calculateCheckoutCost host product.canonicalProductId observation.chain.text packageCount
          observation.amountOre (some offer) context = .ok choice.checkout ∧
        choice.checkout.appliedOfferId = some offer.id := by
  obtain ⟨checkout, applied⟩ := choice
  unfold offerChoice
  cases calculateCheckoutCost host product.canonicalProductId observation.chain.text packageCount
      observation.amountOre (some offer) context with
  | error reason => simp
  | ok cost =>
    dsimp only
    split_ifs with hid
    · simp only [Option.some.injEq, CheckoutChoice.mk.injEq, Except.ok.injEq]
      constructor
      · rintro ⟨rfl, rfl⟩
        exact ⟨rfl, rfl, hid⟩
      · rintro ⟨rfl, rfl, -⟩
        exact ⟨rfl, rfl⟩
    · simp only [Except.ok.injEq, false_iff, not_and]
      rintro rfl rfl
      exact hid

/-- What the choices among a list of offers are: the ordinary checkout, or that of an offer which
applies. -/
structure IsChoice (host : Host) (product : PlanningProductV2) (observation : PriceObservation)
    (packageCount : ℕ) (officialOffers : List OfficialOffer)
    (context : OfficialOfferEvaluationContext) (choice : CheckoutChoice) : Prop where
  cost : calculateCheckoutCost host product.canonicalProductId observation.chain.text packageCount
    observation.amountOre choice.offer context = .ok choice.checkout
  named : choice.checkout.appliedOfferId = choice.offer.map (·.id)
  listed : ∀ offer ∈ choice.offer, offer ∈ officialOffers

/-- What a checkout chooses from: no offer, or one of the list. -/
theorem isChoice_of_mem {ordinary : CheckoutCost}
    (hordinary : calculateCheckoutCost host product.canonicalProductId observation.chain.text
      packageCount observation.amountOre none context = .ok ordinary) {choice : CheckoutChoice}
    (h : choice ∈ ⟨ordinary, none⟩ :: officialOffers.filterMap
      (offerChoice host product observation packageCount context)) :
    IsChoice host product observation packageCount officialOffers context choice := by
  rcases List.mem_cons.mp h with rfl | hoffer
  · obtain ⟨-, -, heq | ⟨offer, hoffer, -⟩⟩ := calculateCheckoutCost_spec hordinary
    · exact ⟨hordinary, by rw [heq]; rfl, by simp⟩
    · cases hoffer
  · obtain ⟨offer, hmem, hchoice⟩ := List.mem_filterMap.mp hoffer
    obtain ⟨hof, hcost, hid⟩ := offerChoice_eq_some_iff.mp hchoice
    refine ⟨by rw [hof]; exact hcost, by rw [hof]; exact hid, ?_⟩
    rw [hof]
    rintro _ ⟨⟩
    exact hmem

variable {best : CheckoutChoice}

/-- What the best checkout is: a calculated cost, with the offer that made it. -/
theorem bestCheckout_spec
    (h : bestCheckout host product observation packageCount officialOffers context = some best) :
    IsChoice host product observation packageCount officialOffers context best := by
  unfold bestCheckout at h
  cases hordinary : calculateCheckoutCost host product.canonicalProductId observation.chain.text
      packageCount observation.amountOre none context with
  | error reason => simp [hordinary] at h
  | ok ordinary =>
    rw [hordinary] at h
    exact isChoice_of_mem hordinary (least_mem h)

/-- The best checkout exists as soon as some checkout can be priced. -/
theorem exists_bestCheckout {offer : Option OfficialOffer} {cost : CheckoutCost}
    (h : calculateCheckoutCost host product.canonicalProductId observation.chain.text packageCount
      observation.amountOre offer context = .ok cost) (officialOffers : List OfficialOffer) :
    ∃ best, bestCheckout host product observation packageCount officialOffers context =
      some best := by
  simp only [bestCheckout, calculateCheckoutCost_ordinary h]
  exact exists_least _ List.mem_cons_self

/-- **No admissible checkout is cheaper** than the best one: neither the ordinary one nor that of
any offer which is at hand whenever it names this product and chain. -/
theorem bestCheckout_le {offer : Option OfficialOffer} {cost : CheckoutCost}
    (h : bestCheckout host product observation packageCount officialOffers context = some best)
    (hcost : calculateCheckoutCost host product.canonicalProductId observation.chain.text
      packageCount observation.amountOre offer context = .ok cost)
    (hoffer : ∀ o ∈ offer, o.chainId = observation.chain.text →
      o.exactProductId = some product.canonicalProductId → o ∈ officialOffers) :
    best.checkout.totalOre ≤ cost.totalOre := by
  have hordinary := calculateCheckoutCost_ordinary hcost
  obtain ⟨htotal, -, hcases⟩ := calculateCheckoutCost_spec hcost
  simp only [bestCheckout, hordinary] at h
  rcases hcases with heq | ⟨applied, happlied, -, hchain, hexact, hid, -, -⟩
  · have hle := totalOre_le_of_isLE (least_isLE h List.mem_cons_self)
    rw [heq, htotal]
    exact hle
  · obtain rfl := Option.mem_def.mp happlied
    have hchoice : offerChoice host product observation packageCount context applied =
        some ⟨cost, some applied⟩ := offerChoice_eq_some_iff.mpr ⟨rfl, hcost, hid⟩
    have hmem := hoffer applied rfl hchain hexact
    exact totalOre_le_of_isLE (least_isLE h
      (List.mem_cons_of_mem _ (List.mem_filterMap.mpr ⟨applied, hmem, hchoice⟩)))

/-- **The best checkout** charges the least of the ordinary total and of what the offers at hand
lower it to. -/
theorem le_bestCheckout_iff
    (h : bestCheckout host product observation packageCount officialOffers context = some best)
    (n : ℕ) :
    n ≤ best.checkout.totalOre ↔ n ≤ packageCount * observation.amountOre ∧
      ∀ offer ∈ officialOffers, Applicable host offer context →
        ∀ total, LowersTo product.canonicalProductId observation.chain.text packageCount
          observation.amountOre offer total → n ≤ total := by
  obtain ⟨hcost, hid, hoffers⟩ := bestCheckout_spec h
  have hordinary := calculateCheckoutCost_ordinary hcost
  have hbound := hcost
  simp only [calculateCheckoutCost, calculateCheckoutCostFrom, ite_error_eq_ok_iff] at hbound
  obtain ⟨hids, hvalid, hbound⟩ := hbound
  have hsafe : safeMoneyProduct packageCount observation.amountOre =
      some (packageCount * observation.amountOre) := by
    cases hsafe : safeMoneyProduct packageCount observation.amountOre with
    | none => simp [hsafe] at hbound
    | some ordinaryTotalOre => rw [(safeMoneyProduct_eq_some_iff.mp hsafe).1]
  have hcalculate : ∀ offer, calculateCheckoutCost host product.canonicalProductId
      observation.chain.text packageCount observation.amountOre (some offer) context =
      .ok (offerCheckoutCost host product.canonicalProductId observation.chain.text packageCount
        observation.amountOre (packageCount * observation.amountOre) offer context) := by
    intro offer
    simp only [calculateCheckoutCost, calculateCheckoutCostFrom, hids, hvalid, if_false, hsafe]
  constructor
  · intro hn
    refine ⟨hn.trans (bestCheckout_le h hordinary (by simp)), fun offer hoffer happlies total
      hlowers => ?_⟩
    obtain ⟨-, -, hlower⟩ | ⟨-, hnot⟩ := offerCheckoutCost_eq host product.canonicalProductId
      observation.chain.text packageCount observation.amountOre offer context
    · have hle := bestCheckout_le h (hcalculate offer) fun o ho _ _ => Option.mem_some.mp ho ▸ hoffer
      obtain rfl := Option.some.inj (hlower.total.symm.trans hlowers.total)
      exact hn.trans hle
    · exact absurd ⟨happlies, hlowers⟩ (hnot total)
  · rintro ⟨hn, hoffersLe⟩
    cases hbest : best.offer with
    | none =>
      rw [hbest, hordinary] at hcost
      rw [← Except.ok.inj hcost]
      exact hn
    | some offer =>
      rw [hbest, hcalculate] at hcost
      have hcheckout := Except.ok.inj hcost
      obtain ⟨-, happlies, hlower⟩ | ⟨heq, -⟩ := offerCheckoutCost_eq host
        product.canonicalProductId observation.chain.text packageCount observation.amountOre offer
        context
      · rw [hcheckout] at hlower
        exact hoffersLe offer (hoffers offer hbest) happlies _ hlower
      · rw [← hcheckout, heq]
        exact hn

end Checkout

/-! ### Look-ups -/

/-- Looking a record up by a unique key finds the record with that key. -/
theorem get?_ofEntries_map_eq_some_iff {α : Type*} {l : List α} {key : α → JsString}
    (h : (l.map key).Nodup) {k : JsString} {a : α} :
    (JsMap.ofEntries (l.map fun x => (key x, x))).get? k = some a ↔ a ∈ l ∧ key a = k := by
  have hkeys : ((l.map fun x => (key x, x)).map Prod.fst).Nodup := by
    rw [List.map_map]
    exact h
  rw [JsMap.ofEntries_of_nodup hkeys, ← JsMap.mem_iff_get? hkeys]
  constructor
  · intro hmem
    obtain ⟨x, hx, heq⟩ := List.mem_map.mp hmem
    cases heq
    exact ⟨hx, rfl⟩
  · rintro ⟨ha, rfl⟩
    exact List.mem_map.mpr ⟨a, ha, rfl⟩

theorem ruleById_eq_some_iff {input : ServerPlanningInputV2}
    (h : ServerPlanningInputV2Schema host input) {id : JsString} {rule : MatchRule} :
    ruleById input id = some rule ↔ rule ∈ input.matchingRules ∧ rule.id = id :=
  get?_ofEntries_map_eq_some_iff h.uniqueRules

theorem productByEan_eq_some_iff {input : ServerPlanningInputV2}
    (h : ServerPlanningInputV2Schema host input) {ean : JsString} {product : PlanningProductV2} :
    productByEan input ean = some product ↔ product ∈ input.products ∧ product.ean = ean :=
  get?_ofEntries_map_eq_some_iff h.uniqueEans

theorem mem_indexOfficialOffers {offers : List OfficialOffer} {key : JsString}
    {offer : OfficialOffer} : offer ∈ indexOfficialOffers offers key ↔
      offer ∈ offers ∧ ∃ canonicalProductId, offer.exactProductId = some canonicalProductId ∧
        productChainKey canonicalProductId offer.chainId = key := by
  simp only [indexOfficialOffers, mem_sortBy, List.mem_filter, Option.any_eq_true, beq_iff_eq]

/-! ### The candidates of a need -/

section Candidates

variable {input : ServerPlanningInputV2} {now : ℤ} {subset : List Chain} {need : PlanningNeedV2}
  {rule : MatchRule} {observation : PriceObservation} {a b : PlanAssignmentV2}

theorem mem_eligiblePrices : observation ∈ eligiblePrices input now ↔
    observation ∈ input.ordinaryPrices ∧
      classifyFreshness now observation.observedAt = .eligible := by
  simp [eligiblePrices, List.mem_filter]

theorem mem_candidates : a ∈ candidates host input now subset need rule ↔
    ∃ observation ∈ eligiblePrices input now, observation.chain ∈ subset ∧
      observation.ean ∈ matchingEans host input need rule ∧
      candidateAt host input now need observation = some a := by
  unfold candidates
  rw [List.mem_filterMap]
  refine exists_congr fun observation => and_congr_right fun _ => ?_
  by_cases hguard : observation.chain ∉ subset ∨ observation.ean ∉ matchingEans host input need rule
  · simp only [if_pos hguard, reduceCtorEq, false_iff]
    tauto
  · simp only [if_neg hguard]
    tauto

/-- What a candidate is made of. -/
theorem candidateAt_spec (h : candidateAt host input now need observation = some a) :
    ∃ product fulfilment best, productByEan input observation.ean = some product ∧
      calculatePackageFulfilmentV2 product.canonicalProductId need.id need.requested
        product.packageMeasure = .ok fulfilment ∧
      bestCheckout host product observation fulfilment.packageCount
        (indexOfficialOffers input.officialOffers
          (productChainKey product.canonicalProductId observation.chain.text))
        (offerContext input now) = some best ∧
      a = { needId := need.id
            canonicalProductId := product.canonicalProductId
            ean := observation.ean
            chain := observation.chain
            costOre := best.checkout.totalOre
            observedAt := observation.observedAt
            source := observation.source
            fulfilment := fulfilment
            checkout := best.checkout
            officialOffer := best.offer.map officialOfferReference } := by
  unfold candidateAt at h
  cases hproduct : productByEan input observation.ean with
  | none => simp [hproduct] at h
  | some product =>
    rw [hproduct] at h
    dsimp only at h
    cases hfulfilment : calculatePackageFulfilmentV2 product.canonicalProductId need.id
        need.requested product.packageMeasure with
    | error reason => simp [hfulfilment] at h
    | ok fulfilment =>
      rw [hfulfilment] at h
      dsimp only at h
      cases hbest : bestCheckout host product observation fulfilment.packageCount
          (indexOfficialOffers input.officialOffers
            (productChainKey product.canonicalProductId observation.chain.text))
          (offerContext input now) with
      | none => simp [hbest] at h
      | some best =>
        rw [hbest] at h
        exact ⟨product, fulfilment, best, rfl, hfulfilment, hbest, (Option.some.inj h).symm⟩

section

variable (h : ServerPlanningInputV2Schema host input)

include h

/-- Candidates of a need that the planner cannot tell apart are equal: prices are unique by GTIN
and chain. -/
theorem eq_of_compareCandidates_eq (ha : a ∈ candidates host input now subset need rule)
    (hb : b ∈ candidates host input now subset need rule) (hab : compareCandidates a b = .eq) :
    a = b := by
  obtain ⟨oa, hoa, -, -, hca⟩ := mem_candidates.mp ha
  obtain ⟨ob, hob, -, -, hcb⟩ := mem_candidates.mp hb
  simp only [compareCandidates, compareLex_eq_iff, on_eq_iff] at hab
  obtain ⟨-, -, hean, hchain, -⟩ := hab
  obtain ⟨_, _, _, _, _, _, rfl⟩ := candidateAt_spec hca
  obtain ⟨_, _, _, _, _, _, rfl⟩ := candidateAt_spec hcb
  have hsame : oa = ob := by
    refine List.inj_on_of_nodup_map h.uniquePrices (mem_eligiblePrices.mp hoa).1
      (mem_eligiblePrices.mp hob).1 ?_
    exact Prod.ext hean hchain
  subst hsame
  exact Option.some.inj (hca.symm.trans hcb)

/-- **The selected assignment** of a need is the candidate before which no other comes. -/
theorem selectedAssignment_eq_some_iff :
    selectedAssignment host input now subset need = some a ↔
      ∃ rule, ruleById input need.matchRuleId = some rule ∧
        a ∈ candidates host input now subset need rule ∧
        ∀ b ∈ candidates host input now subset need rule, (compareCandidates a b).isLE = true := by
  unfold selectedAssignment
  cases ruleById input need.matchRuleId with
  | none => simp
  | some rule =>
    dsimp only
    rw [least_eq_some_iff fun x hx y hy => eq_of_compareCandidates_eq h hx hy]
    simp

/-- A candidate passes its schema. -/
theorem planAssignmentV2Schema_of_mem_candidates (ha : a ∈ candidates host input now subset need rule) :
    PlanAssignmentV2Schema a ∧ a.needId = need.id ∧ a.chain ∈ subset := by
  obtain ⟨observation, hobservation, hchain, -, hcandidate⟩ := mem_candidates.mp ha
  obtain ⟨product, fulfilment, best, hproduct, hfulfilment, hbest, rfl⟩ :=
    candidateAt_spec hcandidate
  obtain ⟨hmem, hean⟩ := (productByEan_eq_some_iff h).mp hproduct
  obtain ⟨hschema, hneedId, hproductId⟩ := fulfilmentV2Schema_of_eq_ok hfulfilment
  obtain ⟨hcost, hid, hoffers⟩ := bestCheckout_spec hbest
  have hcheckout := checkoutCostV2Schema_of_eq_ok hcost
  have hprice := h.ordinaryPrices observation (mem_eligiblePrices.mp hobservation).1
  refine ⟨?_, rfl, hchain⟩
  exact
    { needId := hneedId ▸ hschema.needId
      canonicalProductId := hproductId ▸ hschema.canonicalProductId
      ean := hean ▸ (h.products product hmem).ean
      costOre := hcheckout.totalOre
      observedAt := hprice.observedAt
      source := hprice.source
      fulfilment := hschema
      checkout := hcheckout
      officialOffer := by
        intro reference hreference
        obtain ⟨offer, hoffer, rfl⟩ := Option.mem_map.mp hreference
        have hinput := h.officialOffers offer (mem_indexOfficialOffers.mp (hoffers offer hoffer)).1
        exact ⟨hinput.id, hinput.sourceId, hinput.sourceRecordId, hinput.capturedAt⟩
      cost := rfl
      need := hneedId.symm
      product := hproductId.symm
      offer := by
        rw [hid]
        cases best.offer <;> rfl }

end

end Candidates

/-! ### The plan record -/

section Plan

variable {input : ServerPlanningInputV2} {now : ℤ} {subset : List Chain}
  {selected : List PlanAssignmentV2}

/-- An assignment that could serve a need within a subset of the chains. -/
def Serves (host : Host) (input : ServerPlanningInputV2) (now : ℤ) (subset : List Chain)
    (need : PlanningNeedV2) (a : PlanAssignmentV2) : Prop :=
  ∃ rule, ruleById input need.matchRuleId = some rule ∧
    a ∈ candidates host input now subset need rule

/-- The sum of the costs of assignments. -/
def totalOre (assignments : List PlanAssignmentV2) : ℕ := (assignments.map (·.costOre)).sum

/-- The number of distinct chains of assignments. -/
def chainCount (assignments : List PlanAssignmentV2) : ℕ :=
  (assignments.map (·.chain)).dedup.length

theorem totalOre_planOfAssignments :
    (planOfAssignments input selected).totalOre = totalOre selected := by
  have hperm := sortBy_perm (on PlanAssignmentV2.needId compareText) selected
  exact (hperm.map (·.costOre)).sum_eq

theorem length_chains_planOfAssignments :
    (planOfAssignments input selected).chains.length = chainCount selected := by
  have hperm := sortBy_perm (on PlanAssignmentV2.needId compareText) selected
  simp only [planOfAssignments, length_sortBy, chainCount]
  exact (hperm.map (·.chain)).dedup.length_eq

theorem mem_assignments_planOfAssignments {a : PlanAssignmentV2} :
    a ∈ (planOfAssignments input selected).assignments ↔ a ∈ selected :=
  mem_sortBy

theorem needIds_of_serves (h : ServerPlanningInputV2Schema host input)
    (hselected : List.Forall₂ (Serves host input now subset) input.needs selected) :
    selected.map (·.needId) = input.needs.map (·.id) := by
  refine (Choices.map_eq_map_of_forall₂ hselected fun need a ha => ?_).symm
  obtain ⟨rule, -, ha⟩ := ha
  exact (planAssignmentV2Schema_of_mem_candidates h ha).2.1.symm

/-- Plans have valid identifiers. -/
theorem identifierSchema_plan_id (identity : JsString) :
    IdentifierSchema (js "plan-v2-" ++ stableHash identity) := by
  have hspace : ∀ u ∈ js "plan-v2-" ++ stableHash identity, isSpace u = false := by
    intro u hu
    simp only [stableHash, List.mem_append] at hu
    rcases hu with hu | hu | hu
    · exact (by decide : ∀ u ∈ js "plan-v2-", isSpace u = false) u hu
    · exact isSpace_toString36 _ u hu
    · exact isSpace_toString36 _ u hu
  have hlength : (js "plan-v2-").length = 8 := by decide
  refine ⟨trim_eq_self hspace, ?_, ?_⟩
  · simp only [List.length_append, hlength]
    omega
  · have hhash : (stableHash identity).length ≤ 14 := by
      simp only [stableHash, List.length_append]
      exact Nat.add_le_add (length_toString36_le _) (length_toString36_le _)
    simp only [List.length_append, hlength]
    omega

theorem substitutedNeeds_sublist (input : ServerPlanningInputV2) :
    (substitutedNeeds input).Sublist (input.needs.map (·.id)) :=
  List.filter_sublist.map _

/-- The freshness of a plan covers its needs unless one of them is named `__proto__`. -/
theorem covered_iff (h : ServerPlanningInputV2Schema host input) :
    sortBy compareText (input.needs.map (·.id)) =
        sortBy compareText (ownKeys (input.needs.map (·.id))) ↔
      protoKey ∉ input.needs.map (·.id) := by
  have hperm := ownKeys_perm h.uniqueNeeds
  constructor
  · intro heq hproto
    rw [← @mem_sortBy _ compareText, heq, mem_sortBy, hperm.mem_iff] at hproto
    simp at hproto
  · intro hproto
    have hkeep : (input.needs.map (·.id)).filter (· ≠ protoKey) = input.needs.map (·.id) :=
      List.filter_eq_self.mpr fun id hid => decide_eq_true fun heq => hproto (heq ▸ hid)
    rw [hkeep] at hperm
    exact (sortBy_eq_of_perm hperm fun a _ b _ => compareText_eq_iff.mp).symm

/-- **A plan of assignments that serve the needs** within the bounds on cost and chains passes its
schema exactly when no need is named `__proto__`. -/
theorem planResultV2Schema_planOfAssignments (h : ServerPlanningInputV2Schema host input)
    (hselected : List.Forall₂ (Serves host input now subset) input.needs selected)
    (htotal : totalOre selected ≤ maxPersistedMoneyOre) (hchains : chainCount selected ≤ 3) :
    PlanResultV2Schema (planOfAssignments input selected) ↔
      protoKey ∉ input.needs.map (·.id) := by
  have hneedIds := needIds_of_serves h hselected
  have hsorted : ((planOfAssignments input selected).assignments.map (·.needId)).Perm
      (input.needs.map (·.id)) := by
    rw [← hneedIds]
    exact (sortBy_perm (on PlanAssignmentV2.needId compareText) selected).map _
  have hcovered : sortBy compareText ((planOfAssignments input selected).assignments.map (·.needId))
      = sortBy compareText (input.needs.map (·.id)) :=
    sortBy_eq_of_perm hsorted fun a _ b _ => compareText_eq_iff.mp
  have hlength : selected.length = input.needs.length := hselected.length_eq.symm
  constructor
  · intro hschema
    have hcov := hschema.covered
    rw [hcovered] at hcov
    exact (covered_iff h).mp hcov
  · intro hproto
    have hsubstitutions : ∀ id ∈ (planOfAssignments input selected).substitutions,
        id ∈ input.needs.map (·.id) := fun id hid =>
      (substitutedNeeds_sublist input).subset (mem_sortBy.mp hid)
    have hidentifiers : ∀ id ∈ input.needs.map (·.id), IdentifierSchema id := by
      intro id hid
      obtain ⟨need, hneed, rfl⟩ := List.mem_map.mp hid
      exact (h.needs need hneed).id
    exact
      { id := identifierSchema_plan_id _
        length_assignments := by
          simpa [planOfAssignments, hlength] using h.length_needs
        assignments := by
          intro a ha
          obtain ⟨need, -, rule, -, hcandidate⟩ :=
            Choices.exists_mem_of_forall₂ hselected (mem_assignments_planOfAssignments.mp ha)
          exact (planAssignmentV2Schema_of_mem_candidates h hcandidate).1
        totalOre := by
          unfold MoneyOreSchema
          rw [totalOre_planOfAssignments]
          exact htotal
        length_chains := by
          rw [length_chains_planOfAssignments]
          refine ⟨List.length_pos_iff.mpr ?_, hchains⟩
          have hpos : 0 < selected.length := by
            rw [hlength]
            exact h.length_needs.1
          simpa using List.length_pos_iff.mp hpos
        length_substitutions := by
          simp only [planOfAssignments, length_sortBy]
          refine (substitutedNeeds_sublist input).length_le.trans ?_
          rw [List.length_map]
          exact h.length_needs.2
        substitutions := fun id hid => hidentifiers id (hsubstitutions id hid)
        freshness := by
          intro id hid
          have hmem := (ownKeys_perm h.uniqueNeeds).mem_iff.mp hid
          simp only [List.mem_filter, decide_eq_true_eq] at hmem
          exact ⟨hidentifiers id hmem.1, hmem.2⟩
        uniqueChains := nodup_sortBy.mpr (List.nodup_dedup _)
        describedChains := by
          simp only [planOfAssignments, mem_sortBy, List.mem_dedup, List.mem_map]
          exact ⟨fun chain hchain => hchain, fun a ha => ⟨a, ha, rfl⟩⟩
        total := rfl
        uniqueNeeds := hsorted.nodup_iff.mpr h.uniqueNeeds
        covered := hcovered.trans ((covered_iff h).mpr hproto)
        uniqueSubstitutions := nodup_sortBy.mpr (h.uniqueNeeds.sublist (substitutedNeeds_sublist _))
        assignedSubstitutions := fun id hid => hsorted.mem_iff.mpr (hsubstitutions id hid) }

variable {plan : PlanResultV2}

/-- The plan of a subset, when it has one. -/
theorem planForSubset_eq_some_iff (h : ServerPlanningInputV2Schema host input) :
    planForSubset host input now subset = some plan ↔
      protoKey ∉ input.needs.map (·.id) ∧ ∃ selected,
        List.Forall₂ (fun need a => selectedAssignment host input now subset need = some a)
          input.needs selected ∧
        totalOre selected ≤ maxPersistedMoneyOre ∧ chainCount selected ≤ input.maxStores ∧
        plan = planOfAssignments input selected := by
  have hserves : ∀ {selected : List PlanAssignmentV2},
      List.Forall₂ (fun need a => selectedAssignment host input now subset need = some a)
        input.needs selected →
      List.Forall₂ (Serves host input now subset) input.needs selected := by
    refine fun hselected => hselected.imp fun need a ha => ?_
    obtain ⟨rule, hrule, hmem, -⟩ := (selectedAssignment_eq_some_iff h).mp ha
    exact ⟨rule, hrule, hmem⟩
  have hthree := h.maxStores.2
  unfold planForSubset
  cases hmap : input.needs.mapM (selectedAssignment host input now subset) with
  | none =>
    simp only [reduceCtorEq, false_iff, not_and, not_exists]
    intro _ selected hselected
    rw [Choices.mapM_eq_some_iff.mpr hselected] at hmap
    cases hmap
  | some selected =>
    have hselected := Choices.mapM_eq_some_iff.mp hmap
    have hunique : ∀ {other : List PlanAssignmentV2},
        List.Forall₂ (fun need a => selectedAssignment host input now subset need = some a)
          input.needs other → other = selected := by
      intro other hother
      rw [Choices.mapM_eq_some_iff.mpr hother] at hmap
      exact Option.some.inj hmap
    have hnonempty : chainCount selected ≠ 0 := by
      have hpos : 0 < selected.length := by
        rw [← hselected.length_eq]
        exact h.length_needs.1
      simpa [chainCount] using List.length_pos_iff.mp hpos
    dsimp only
    rw [totalOre_planOfAssignments, length_chains_planOfAssignments]
    constructor
    · intro heq
      split_ifs at heq with htotal hchains hschema
      have hbounds : totalOre selected ≤ maxPersistedMoneyOre ∧
          chainCount selected ≤ input.maxStores := by omega
      refine ⟨?_, selected, hselected, hbounds.1, hbounds.2, (Option.some.inj heq).symm⟩
      exact (planResultV2Schema_planOfAssignments h (hserves hselected) hbounds.1
        (by omega)).mp hschema
    · rintro ⟨hproto, other, hother, htotal, hchains, rfl⟩
      obtain rfl := hunique hother
      have hschema := (planResultV2Schema_planOfAssignments h (hserves hselected) htotal
        (hchains.trans hthree)).mpr hproto
      rw [if_neg (by omega), if_neg (by omega), if_pos hschema]

/-- Assignments that are best within a subset of the available chains: each need takes the
candidate before which no other candidate of the subset comes. -/
structure BestChoice (host : Host) (input : ServerPlanningInputV2) (now : ℤ) (subset : List Chain)
    (selected : List PlanAssignmentV2) : Prop where
  nonempty : subset ≠ []
  available : subset.Sublist (availableChains input now)
  bounded : subset.length ≤ min input.maxStores 3
  best : List.Forall₂ (fun need a => ∃ rule, ruleById input need.matchRuleId = some rule ∧
    a ∈ candidates host input now subset need rule ∧
    ∀ b ∈ candidates host input now subset need rule, (compareCandidates a b).isLE = true)
    input.needs selected
  total : totalOre selected ≤ maxPersistedMoneyOre

theorem BestChoice.serves (hbest : BestChoice host input now subset selected) :
    List.Forall₂ (Serves host input now subset) input.needs selected :=
  hbest.best.imp fun _ _ ⟨rule, hrule, hmem, _⟩ => ⟨rule, hrule, hmem⟩

theorem BestChoice.chainCount_le (h : ServerPlanningInputV2Schema host input)
    (hbest : BestChoice host input now subset selected) :
    chainCount selected ≤ subset.length := by
  refine Choices.length_dedup_map_le fun a ha => ?_
  obtain ⟨need, -, rule, -, hmem⟩ := Choices.exists_mem_of_forall₂ hbest.serves ha
  exact (planAssignmentV2Schema_of_mem_candidates h hmem).2.2

/-- **The plans of the subsets** are those of the best choices, and there are none when a need is
named `__proto__`. -/
theorem mem_subsetPlans_iff (h : ServerPlanningInputV2Schema host input) :
    plan ∈ subsetPlans host input now ↔
      protoKey ∉ input.needs.map (·.id) ∧ ∃ subset selected,
        BestChoice host input now subset selected ∧ plan = planOfAssignments input selected := by
  simp only [subsetPlans, List.mem_filterMap, Subsets.mem_combinations,
    planForSubset_eq_some_iff h, selectedAssignment_eq_some_iff h]
  constructor
  · rintro ⟨subset, ⟨hne, hsub, hlen⟩, hproto, selected, hselected, htotal, -, rfl⟩
    exact ⟨hproto, subset, selected, ⟨hne, hsub, hlen, hselected, htotal⟩, rfl⟩
  · rintro ⟨hproto, subset, selected, hbest, rfl⟩
    have hcount := (hbest.chainCount_le h).trans (hbest.bounded.trans (Nat.min_le_left _ _))
    exact ⟨subset, ⟨hbest.nonempty, hbest.available, hbest.bounded⟩, hproto, selected, hbest.best,
      hbest.total, hcount, rfl⟩

/-! ### The enumerated candidates -/

/-- The plan kept for a text is the last of the plans with that text. -/
theorem uniqueAssignments_spec {plans : List PlanResultV2} {kept : PlanResultV2}
    (h : kept ∈ uniqueAssignments plans) :
    kept ∈ plans ∧ ∀ plan ∈ plans,
      planIdentity plan.assignments = planIdentity kept.assignments →
        (comparePlans plan kept).isLE = true := by
  obtain ⟨pre, post, heq, hpost⟩ := JsMap.mem_values_ofEntries_map.mp h
  have hsorted := pairwise_sortBy comparePlans plans
  rw [heq] at hsorted
  have hmem : ∀ plan, plan ∈ plans ↔ plan ∈ pre ∨ plan = kept ∨ plan ∈ post := by
    intro plan
    rw [← @mem_sortBy _ comparePlans, heq, List.mem_append, List.mem_cons]
  refine ⟨(hmem kept).mpr (Or.inr (Or.inl rfl)), fun plan hplan htext => ?_⟩
  rcases (hmem plan).mp hplan with hpre | rfl | hin
  · exact (List.pairwise_append.mp hsorted).2.2 plan hpre kept (by simp)
  · exact Std.ReflCmp.isLE_rfl
  · exact absurd htext (hpost plan hin)

theorem exists_mem_uniqueAssignments {plans : List PlanResultV2} (h : plan ∈ plans) :
    ∃ kept ∈ uniqueAssignments plans,
      planIdentity kept.assignments = planIdentity plan.assignments :=
  JsMap.exists_mem_values_ofEntries_map (fun plan : PlanResultV2 => planIdentity plan.assignments)
    (mem_sortBy.mpr h)

theorem mem_enumerate_iff (h : ServerPlanningInputV2Schema host input) :
    plan ∈ enumerateCompletePlanCandidatesV2 host input now ↔
      plan ∈ uniqueAssignments (subsetPlans host input now) := by
  rw [enumerateCompletePlanCandidatesV2, if_pos h, mem_sortBy]

section

variable (hplan : plan ∈ enumerateCompletePlanCandidatesV2 host input now)

include hplan

/-- An enumerated plan is the plan of a best choice of a valid input. -/
theorem exists_bestChoice_of_mem_enumerate :
    ServerPlanningInputV2Schema host input ∧ ∃ subset selected,
      BestChoice host input now subset selected ∧ plan = planOfAssignments input selected := by
  have h : ServerPlanningInputV2Schema host input := by
    by_contra hnot
    simp [enumerateCompletePlanCandidatesV2, hnot] at hplan
  have hmem := (uniqueAssignments_spec ((mem_enumerate_iff h).mp hplan)).1
  exact ⟨h, ((mem_subsetPlans_iff h).mp hmem).2⟩

/-- An enumerated plan assigns each need of the input once. -/
theorem length_assignments_of_mem_enumerate :
    plan.assignments.length = input.needs.length := by
  obtain ⟨-, subset, selected, hbest, rfl⟩ := exists_bestChoice_of_mem_enumerate hplan
  simp [planOfAssignments, hbest.best.length_eq]

/-- The identifier of an enumerated plan does not contain NUL. -/
theorem zero_notMem_id_of_mem_enumerate :
    (0 : UInt16) ∉ plan.id := by
  obtain ⟨-, subset, selected, -, rfl⟩ := exists_bestChoice_of_mem_enumerate hplan
  simp only [planOfAssignments, stableHash, List.mem_append, not_or]
  exact ⟨by decide, zero_notMem_toString36 _, zero_notMem_toString36 _⟩

end

/-- Each enumerated plan meets the schema of plans, whatever the input. -/
theorem planResultV2Schema_of_mem_enumerate
    (h : plan ∈ enumerateCompletePlanCandidatesV2 host input now) : PlanResultV2Schema plan := by
  unfold enumerateCompletePlanCandidatesV2 at h
  split_ifs at h with hinput
  · have hmem := (uniqueAssignments_spec (mem_sortBy.mp h)).1
    obtain ⟨subset, -, hplan⟩ := List.mem_filterMap.mp hmem
    unfold planForSubset at hplan
    split at hplan
    · cases hplan
    · dsimp only at hplan
      split_ifs at hplan with _ _ hschema
      rwa [← Option.some.inj hplan]
  · cases h

end Plan

end Handleplan.PlannerV2
