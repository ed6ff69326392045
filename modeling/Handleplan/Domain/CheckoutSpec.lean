import Handleplan.Domain.PlannerV2Spec

/-!
# The checkout charges the least an offer admits

An offer may be redeemed for as many of the packages as it holds for; the others are bought at their
ordinary price. The calculation redeems it as often as it can, or not at all, which is enough since
each redemption changes the cost by the same amount.

## Main definitions

* `redemptionCost` — what the packages cost when an offer is redeemed some number of
  times.
* `Redeems` — a number of redemptions an offer admits.
* `ChecksOut` — what the calculation of one checkout satisfies.
* `PlannerV2.BestCheckoutIsLeast` — what the choice among offers satisfies.

## Main results

* `min_le_redemptionCost` — no number of redemptions is cheaper than none and all.
* `offerTotalOre_eq_some_iff` — the total of an offer is its cost redeemed as often as
  possible, when that is a persisted amount.
* `checksOut_and_bestCheckoutIsLeast` — the checkout is the least an offer admits, and
  the best checkout the least of a list.
-/

namespace Handleplan

open JsString Sorting

/-! ### Redemptions -/

/-- What the packages cost when an offer is redeemed a number of times: for as many packages, or for
as many groups of packages. -/
def redemptionCost (pricing : OfferPricing) (packageCount ordinaryUnitPriceOre redemptions : ℕ) :
    ℕ :=
  match pricing with
  | .unit unitPriceOre =>
    redemptions * unitPriceOre + (packageCount - redemptions) * ordinaryUnitPriceOre
  | .multibuy quantity totalOre =>
    redemptions * totalOre + (packageCount - redemptions * quantity) * ordinaryUnitPriceOre

/-- The packages one redemption is for. -/
def OfferPricing.groupSize : OfferPricing → ℕ
  | .unit _ => 1
  | .multibuy quantity _ => quantity

/-- An offer can be redeemed that often for a number of packages of a product at a chain: it
applies, its minimum quantity is bought, and there are packages for each redemption. -/
structure Redeems (host : Host) (canonicalProductId chainId : JsString) (packageCount : ℕ)
    (offer : OfficialOffer) (offerContext : OfficialOfferEvaluationContext) (redemptions : ℕ) :
    Prop where
  applies : Applicable host offer offerContext
  chain : offer.chainId = chainId
  product : offer.exactProductId = some canonicalProductId
  quantity : minimumQuantity offer ≤ packageCount
  within : redemptions * offer.pricing.groupSize ≤ packageCount

/-- As often as an offer can be redeemed. -/
def mostRedemptions (pricing : OfferPricing) (packageCount : ℕ) : ℕ :=
  packageCount / pricing.groupSize

section Redemptions

variable {pricing : OfferPricing} {packageCount ordinaryUnitPriceOre redemptions : ℕ}

theorem OfferPricing.groupSize_pos (h : OfferPricingSchema pricing) : 0 < pricing.groupSize := by
  cases pricing with
  | unit unitPriceOre => exact Nat.one_pos
  | multibuy quantity totalOre => exact h.1.1

/-- What one redemption charges. -/
def OfferPricing.groupTotalOre : OfferPricing → ℕ
  | .unit unitPriceOre => unitPriceOre
  | .multibuy _ totalOre => totalOre

theorem redemptionCost_eq (pricing : OfferPricing) :
    redemptionCost pricing packageCount ordinaryUnitPriceOre redemptions =
      redemptions * pricing.groupTotalOre +
        (packageCount - redemptions * pricing.groupSize) * ordinaryUnitPriceOre := by
  cases pricing with
  | unit unitPriceOre =>
    simp only [redemptionCost, OfferPricing.groupTotalOre, OfferPricing.groupSize, Nat.mul_one]
  | multibuy quantity totalOre => rfl

/-- A redemption that is not cheaper than its packages does not pay. -/
theorem le_redemptionCost_of_dearer
    (hdearer : pricing.groupSize * ordinaryUnitPriceOre ≤ pricing.groupTotalOre)
    (hwithin : redemptions * pricing.groupSize ≤ packageCount) :
    packageCount * ordinaryUnitPriceOre ≤
      redemptionCost pricing packageCount ordinaryUnitPriceOre redemptions := by
  rw [redemptionCost_eq]
  calc packageCount * ordinaryUnitPriceOre
      = (redemptions * pricing.groupSize + (packageCount - redemptions * pricing.groupSize)) *
          ordinaryUnitPriceOre := by rw [Nat.add_sub_cancel' hwithin]
    _ = redemptions * (pricing.groupSize * ordinaryUnitPriceOre) +
          (packageCount - redemptions * pricing.groupSize) * ordinaryUnitPriceOre := by ring
    _ ≤ _ := Nat.add_le_add_right (Nat.mul_le_mul_left _ hdearer) _

/-- A redemption that is cheaper than its packages pays as often as possible. -/
theorem mostRedemptions_le_of_cheaper
    (hcheaper : pricing.groupTotalOre ≤ pricing.groupSize * ordinaryUnitPriceOre)
    (hpositive : 0 < pricing.groupSize)
    (hwithin : redemptions * pricing.groupSize ≤ packageCount) :
    redemptionCost pricing packageCount ordinaryUnitPriceOre
        (mostRedemptions pricing packageCount) ≤
      redemptionCost pricing packageCount ordinaryUnitPriceOre redemptions := by
  have hmost : mostRedemptions pricing packageCount * pricing.groupSize ≤ packageCount :=
    Nat.div_mul_le_self _ _
  have hle : redemptions ≤ mostRedemptions pricing packageCount :=
    (Nat.le_div_iff_mul_le hpositive).mpr hwithin
  obtain ⟨more, hmore⟩ := Nat.exists_eq_add_of_le hle
  rw [redemptionCost_eq, redemptionCost_eq]
  generalize mostRedemptions pricing packageCount = most at hmost hmore
  subst hmore
  -- the redemptions beyond replace the ordinary price of their packages
  obtain ⟨rest, hrest⟩ := Nat.exists_eq_add_of_le hmost
  have hfewer : packageCount - redemptions * pricing.groupSize =
      more * pricing.groupSize + rest := by
    rw [hrest, Nat.add_mul, Nat.add_assoc, Nat.add_sub_cancel_left]
  rw [hfewer, hrest, Nat.add_sub_cancel_left]
  calc (redemptions + more) * pricing.groupTotalOre + rest * ordinaryUnitPriceOre
      = redemptions * pricing.groupTotalOre + more * pricing.groupTotalOre +
          rest * ordinaryUnitPriceOre := by ring
    _ ≤ redemptions * pricing.groupTotalOre +
          more * (pricing.groupSize * ordinaryUnitPriceOre) + rest * ordinaryUnitPriceOre :=
        Nat.add_le_add_right (Nat.add_le_add_left (Nat.mul_le_mul_left _ hcheaper) _) _
    _ = _ := by ring

/-- **No number of redemptions is cheaper than none and as many as possible.** -/
theorem min_le_redemptionCost (ordinaryUnitPriceOre : ℕ) (hpositive : 0 < pricing.groupSize)
    (hwithin : redemptions * pricing.groupSize ≤ packageCount) :
    min (packageCount * ordinaryUnitPriceOre)
        (redemptionCost pricing packageCount ordinaryUnitPriceOre
          (mostRedemptions pricing packageCount)) ≤
      redemptionCost pricing packageCount ordinaryUnitPriceOre redemptions := by
  rcases le_total (pricing.groupSize * ordinaryUnitPriceOre) pricing.groupTotalOre with
    hdearer | hcheaper
  · exact (min_le_left _ _).trans (le_redemptionCost_of_dearer hdearer hwithin)
  · exact (min_le_right _ _).trans (mostRedemptions_le_of_cheaper hcheaper hpositive hwithin)

/-- **The total of an offer** is its cost redeemed as often as possible, as long as that is an
amount that can be persisted. -/
theorem offerTotalOre_eq_some_iff (hpricing : OfferPricingSchema pricing) {total : ℕ} :
    offerTotalOre pricing packageCount ordinaryUnitPriceOre = some total ↔
      total = redemptionCost pricing packageCount ordinaryUnitPriceOre
        (mostRedemptions pricing packageCount) ∧ total ≤ maxPersistedMoneyOre := by
  cases pricing with
  | unit unitPriceOre =>
    simp only [offerTotalOre, safeMoneyProduct_eq_some_iff, redemptionCost, mostRedemptions,
      OfferPricing.groupSize, Nat.div_one, Nat.sub_self, Nat.zero_mul, Nat.add_zero]
  | multibuy quantity totalOre =>
    have hremainder : packageCount - packageCount / quantity * quantity =
        packageCount % quantity := by
      have hmod := Nat.div_add_mod' packageCount quantity
      omega
    simp only [offerTotalOre, redemptionCost, mostRedemptions, OfferPricing.groupSize, hremainder,
      Option.bind_eq_bind, Option.bind_eq_some_iff, safeMoneyProduct_eq_some_iff]
    constructor
    · rintro ⟨grouped, ⟨rfl, -⟩, remainder, ⟨rfl, -⟩, h⟩
      split_ifs at h with hsum
      cases h
      exact ⟨rfl, hsum⟩
    · rintro ⟨rfl, hsum⟩
      exact ⟨_, ⟨rfl, by omega⟩, _, ⟨rfl, by omega⟩, if_pos hsum⟩

end Redemptions

/-! ### One checkout -/

section Checkout

variable (host : Host)

/-- What the calculation of a checkout asks of its input. -/
structure CheckoutInput (canonicalProductId chainId : JsString)
    (packageCount ordinaryUnitPriceOre : ℕ) : Prop where
  canonicalProductId : IdentifierSchema (trim canonicalProductId)
  chainId : IdentifierSchema (trim chainId)
  packageCount : PositiveSafeInteger packageCount
  ordinaryUnitPriceOre : MoneyOreSchema ordinaryUnitPriceOre

variable {host} {canonicalProductId chainId : JsString} {packageCount ordinaryUnitPriceOre : ℕ}
  {offer : Option OfficialOffer} {offerContext : OfficialOfferEvaluationContext}

theorem not_checkoutInput_iff :
    (¬ IdentifierSchema (trim canonicalProductId) ∨ ¬ IdentifierSchema (trim chainId) ∨
      ¬ PositiveSafeInteger packageCount ∨ ¬ MoneyOreSchema ordinaryUnitPriceOre) ↔
        ¬ CheckoutInput canonicalProductId chainId packageCount ordinaryUnitPriceOre := by
  rw [← not_and_or, ← not_and_or, ← not_and_or, not_iff_not]
  exact ⟨fun ⟨h₁, h₂, h₃, h₄⟩ => ⟨h₁, h₂, h₃, h₄⟩, fun ⟨h₁, h₂, h₃, h₄⟩ => ⟨h₁, h₂, h₃, h₄⟩⟩

/-- The cost of a checkout with an offer, or without. -/
def checkoutCostOf (host : Host) (canonicalProductId chainId : JsString)
    (packageCount ordinaryUnitPriceOre : ℕ) (offer : Option OfficialOffer)
    (offerContext : OfficialOfferEvaluationContext) : CheckoutCost :=
  match offer with
  | none => ordinaryCheckoutCost (packageCount * ordinaryUnitPriceOre)
  | some offer => offerCheckoutCost host canonicalProductId chainId packageCount
      ordinaryUnitPriceOre (packageCount * ordinaryUnitPriceOre) offer offerContext

/-- **The calculation** is invalid or overflows by its ordinary purchase alone, and otherwise gives
a cost. -/
theorem calculateCheckoutCostFrom_eq :
    calculateCheckoutCostFrom host canonicalProductId chainId packageCount ordinaryUnitPriceOre
        offer offerContext =
      if ¬ IdentifierSchema (trim canonicalProductId) ∨ ¬ IdentifierSchema (trim chainId) ∨
          ¬ PositiveSafeInteger packageCount ∨ ¬ MoneyOreSchema ordinaryUnitPriceOre then
        .error .invalid
      else if maxPersistedMoneyOre < packageCount * ordinaryUnitPriceOre then .error .overflow
      else .ok (checkoutCostOf host canonicalProductId chainId packageCount ordinaryUnitPriceOre
        offer offerContext) := by
  unfold calculateCheckoutCostFrom safeMoneyProduct
  split_ifs with hinput hbound hbound'
  · rfl
  · omega
  · cases offer <;> rfl
  · rfl
  · omega

/-- **What a checkout cost satisfies**, for the offer it was calculated with. -/
structure CheckoutCostCorrect (host : Host) (canonicalProductId chainId : JsString)
    (packageCount ordinaryUnitPriceOre : ℕ) (offer : Option OfficialOffer)
    (offerContext : OfficialOfferEvaluationContext) (cost : CheckoutCost) : Prop where
  ordinary : cost.ordinaryTotalOre = packageCount * ordinaryUnitPriceOre
  /-- The total is the ordinary total less the saving. -/
  total : cost.savingOre ≤ cost.ordinaryTotalOre ∧
    cost.ordinaryTotalOre - cost.savingOre = cost.totalOre
  applied : cost.appliedOfferId.isSome = true ↔ 0 < cost.savingOre
  /-- No admissible number of redemptions is cheaper, nor is the ordinary purchase. -/
  least : cost.totalOre ≤ packageCount * ordinaryUnitPriceOre ∧
    ∀ o ∈ offer, ∀ redemptions, Redeems host canonicalProductId chainId packageCount o offerContext
      redemptions →
        cost.totalOre ≤ redemptionCost o.pricing packageCount ordinaryUnitPriceOre redemptions
  /-- The total is one of these. -/
  attained : cost.totalOre = packageCount * ordinaryUnitPriceOre ∨
    ∃ o ∈ offer, ∃ redemptions, Redeems host canonicalProductId chainId packageCount o offerContext
        redemptions ∧
      cost.totalOre = redemptionCost o.pricing packageCount ordinaryUnitPriceOre redemptions
  bound : cost.ordinaryTotalOre ≤ maxPersistedMoneyOre ∧ cost.totalOre ≤ maxPersistedMoneyOre ∧
    cost.savingOre ≤ maxPersistedMoneyOre
  schema : CheckoutCostV2Schema cost

/-- The ordinary cost is the least one where no redemption is cheaper. -/
theorem checkoutCostCorrect_ordinary
    (hbound : packageCount * ordinaryUnitPriceOre ≤ maxPersistedMoneyOre)
    (hleast : ∀ o ∈ offer, ∀ redemptions, Redeems host canonicalProductId chainId packageCount o
      offerContext redemptions → packageCount * ordinaryUnitPriceOre ≤
        redemptionCost o.pricing packageCount ordinaryUnitPriceOre redemptions) :
    CheckoutCostCorrect host canonicalProductId chainId packageCount ordinaryUnitPriceOre offer
      offerContext (ordinaryCheckoutCost (packageCount * ordinaryUnitPriceOre)) where
  ordinary := rfl
  total := ⟨Nat.zero_le _, rfl⟩
  applied := by simp [ordinaryCheckoutCost]
  least := ⟨le_rfl, hleast⟩
  attained := .inl rfl
  bound := ⟨hbound, hbound, Nat.zero_le _⟩
  schema := ⟨hbound, Nat.zero_le _, hbound, by simp [ordinaryCheckoutCost], rfl, by
    simp [ordinaryCheckoutCost]⟩

/-- **An offer charges the least of the ordinary total and of what it admits.** -/
theorem checkoutCostCorrect_offer
    (hbound : packageCount * ordinaryUnitPriceOre ≤ maxPersistedMoneyOre) (o : OfficialOffer) :
    CheckoutCostCorrect host canonicalProductId chainId packageCount ordinaryUnitPriceOre (some o)
      offerContext (offerCheckoutCost host canonicalProductId chainId packageCount
        ordinaryUnitPriceOre (packageCount * ordinaryUnitPriceOre) o offerContext) := by
  have hcost := offerCheckoutCost_eq host canonicalProductId chainId packageCount
    ordinaryUnitPriceOre o offerContext
  have hspec := offerCheckoutCost_spec host canonicalProductId chainId packageCount
    ordinaryUnitPriceOre (packageCount * ordinaryUnitPriceOre) o offerContext
  dsimp only at hcost hspec
  generalize offerCheckoutCost host canonicalProductId chainId packageCount ordinaryUnitPriceOre
    (packageCount * ordinaryUnitPriceOre) o offerContext = cost at hcost hspec
  rcases hcost with ⟨hid, happlies, hlowers⟩ | ⟨rfl, hnot⟩
  · -- the offer lowers the ordinary total to its cost redeemed as often as possible
    obtain ⟨htotal, hpersisted⟩ :=
      (offerTotalOre_eq_some_iff happlies.schema.pricing).mp hlowers.total
    have hpositive := OfferPricing.groupSize_pos happlies.schema.pricing
    have hlower := hlowers.lower
    obtain ⟨hordinary, hsaving, hsum⟩ : cost.ordinaryTotalOre = packageCount * ordinaryUnitPriceOre ∧
        0 < cost.savingOre ∧
          cost.totalOre + cost.savingOre = packageCount * ordinaryUnitPriceOre := by
      rcases hspec with rfl | ⟨-, -, -, -, hordinary, hsaving, hsum⟩
      · cases hid
      · exact ⟨hordinary, hsaving, hsum⟩
    have hmost : Redeems host canonicalProductId chainId packageCount o offerContext
        (mostRedemptions o.pricing packageCount) :=
      ⟨happlies, hlowers.chain, hlowers.product, hlowers.quantity, Nat.div_mul_le_self _ _⟩
    refine
      { ordinary := hordinary
        total := ⟨by omega, by omega⟩
        applied := by simp [hid, hsaving]
        least := ⟨by omega, ?_⟩
        attained := .inr ⟨o, rfl, _, hmost, htotal⟩
        bound := ⟨by omega, by omega, by omega⟩
        schema := ⟨?_, ?_, ?_, ?_, by omega, ?_⟩ }
    · rintro _ ⟨⟩ redemptions hredeems
      have hmin := min_le_redemptionCost ordinaryUnitPriceOre hpositive hredeems.within
      omega
    · unfold MoneyOreSchema
      omega
    · unfold MoneyOreSchema
      omega
    · unfold MoneyOreSchema
      omega
    · simpa [hid] using happlies.schema.id
    · simp only [hid, reduceCtorEq, false_iff]
      omega
  · refine checkoutCostCorrect_ordinary hbound ?_
    rintro _ ⟨⟩ redemptions hredeems
    have hpricing := hredeems.applies.schema.pricing
    have hmin := min_le_redemptionCost ordinaryUnitPriceOre
      (OfferPricing.groupSize_pos hpricing) hredeems.within
    -- else the offer would lower the ordinary total
    by_contra hcheaper
    refine hnot (redemptionCost o.pricing packageCount ordinaryUnitPriceOre
      (mostRedemptions o.pricing packageCount)) ⟨hredeems.applies, hredeems.chain,
        hredeems.product, hredeems.quantity, ?_, by omega⟩
    exact (offerTotalOre_eq_some_iff hpricing).mpr ⟨rfl, by omega⟩

/-- **What the calculation of a checkout satisfies.** An offer is what its parse returns, with trimmed
identifiers. -/
structure ChecksOut (host : Host) (canonicalProductId chainId : JsString)
    (packageCount ordinaryUnitPriceOre : ℕ) (offer : Option OfficialOffer)
    (offerContext : OfficialOfferEvaluationContext) : Prop where
  /-- It is invalid when its input is, whatever the offer. -/
  invalid : calculateCheckoutCostFrom host canonicalProductId chainId packageCount
      ordinaryUnitPriceOre offer offerContext = .error .invalid ↔
    ¬ CheckoutInput canonicalProductId chainId packageCount ordinaryUnitPriceOre
  /-- It overflows when the ordinary purchase does, whatever the offer. -/
  overflow : calculateCheckoutCostFrom host canonicalProductId chainId packageCount
      ordinaryUnitPriceOre offer offerContext = .error .overflow ↔
    CheckoutInput canonicalProductId chainId packageCount ordinaryUnitPriceOre ∧
      maxPersistedMoneyOre < packageCount * ordinaryUnitPriceOre
  /-- Where the packages can be bought without the offer, they can be with it. -/
  available : (∃ cost, calculateCheckoutCostFrom host canonicalProductId chainId packageCount
      ordinaryUnitPriceOre none offerContext = .ok cost) →
    ∃ cost, calculateCheckoutCostFrom host canonicalProductId chainId packageCount
      ordinaryUnitPriceOre offer offerContext = .ok cost
  cost : ∀ cost, calculateCheckoutCostFrom host canonicalProductId chainId packageCount
      ordinaryUnitPriceOre offer offerContext = .ok cost →
    CheckoutCostCorrect host canonicalProductId chainId packageCount ordinaryUnitPriceOre offer
      offerContext cost

/-- **A checkout charges the least** that its offer admits. -/
theorem checksOut (host : Host) (canonicalProductId chainId : JsString)
    (packageCount ordinaryUnitPriceOre : ℕ) (offer : Option OfficialOffer)
    (offerContext : OfficialOfferEvaluationContext) :
    ChecksOut host canonicalProductId chainId packageCount ordinaryUnitPriceOre offer
      offerContext where
  invalid := by
    rw [calculateCheckoutCostFrom_eq, ← not_checkoutInput_iff]
    split_ifs with hinput hbound <;> simp [hinput]
  overflow := by
    rw [calculateCheckoutCostFrom_eq, ← not_not (a := CheckoutInput _ _ _ _),
      ← not_checkoutInput_iff]
    split_ifs with hinput hbound
    · simp [hinput]
    · simp [hinput, hbound]
    · simp [hbound]
  available := by
    simp only [calculateCheckoutCostFrom_eq, ite_error_eq_ok_iff]
    rintro ⟨cost, hinput, hbound, -⟩
    exact ⟨_, hinput, hbound, rfl⟩
  cost cost hcost := by
    simp only [calculateCheckoutCostFrom_eq, ite_error_eq_ok_iff, not_lt] at hcost
    obtain ⟨-, hbound, hcost⟩ := hcost
    cases hcost
    cases offer with
    | none => exact checkoutCostCorrect_ordinary hbound (by simp)
    | some o => exact checkoutCostCorrect_offer hbound o

end Checkout

/-! ### A list of offers -/

namespace PlannerV2

/-- **What the choice among a list of offers satisfies.** -/
structure BestCheckoutIsLeast (host : Host) (product : PlanningProductV2)
    (observation : PriceObservation) (packageCount : ℕ) (officialOffers : List OfficialOffer)
    (offerContext : OfficialOfferEvaluationContext) : Prop where
  /-- There is a best checkout exactly when the packages can be bought without an offer. -/
  available : (∃ best, bestCheckout host product observation packageCount officialOffers
      offerContext = some best) ↔
    ∃ cost, calculateCheckoutCost host product.canonicalProductId observation.chain.text
      packageCount observation.amountOre none offerContext = .ok cost
  /-- It is a checkout of one of the offers, or the ordinary one. -/
  chosen : ∀ best, bestCheckout host product observation packageCount officialOffers offerContext =
      some best →
    (∀ offer ∈ best.offer, offer ∈ officialOffers) ∧
      calculateCheckoutCost host product.canonicalProductId observation.chain.text packageCount
        observation.amountOre best.offer offerContext = .ok best.checkout
  /-- No offer of the list is cheaper by itself, nor is none. -/
  noDearer : ∀ best, bestCheckout host product observation packageCount officialOffers
      offerContext = some best →
    ∀ offer : Option OfficialOffer, (∀ o ∈ offer, o ∈ officialOffers) → ∀ cost,
      calculateCheckoutCost host product.canonicalProductId observation.chain.text packageCount
        observation.amountOre offer offerContext = .ok cost →
          best.checkout.totalOre ≤ cost.totalOre
  /-- The checkout does not depend on the order of the offers. -/
  order : ∀ officialOffers', officialOffers'.Perm officialOffers →
    (bestCheckout host product observation packageCount officialOffers' offerContext).map
        (·.checkout) =
      (bestCheckout host product observation packageCount officialOffers offerContext).map
        (·.checkout)
  /-- Neither does the offer named with it, when the offers have distinct identifiers, as the
  planner checks. -/
  orderOfOffers : (officialOffers.map (·.id)).Nodup → ∀ officialOffers',
    officialOffers'.Perm officialOffers →
      bestCheckout host product observation packageCount officialOffers' offerContext =
        bestCheckout host product observation packageCount officialOffers offerContext

section Choice

variable {host : Host} {product : PlanningProductV2} {observation : PriceObservation}
  {packageCount : ℕ} {officialOffers officialOffers' : List OfficialOffer}
  {offerContext : OfficialOfferEvaluationContext}

/-- A checkout that passes its schema is determined by its totals and the offer it names. -/
theorem checkout_eq_of_schema {a b : CheckoutCost} (ha : CheckoutCostV2Schema a)
    (hb : CheckoutCostV2Schema b) (htotal : a.totalOre = b.totalOre)
    (hordinary : a.ordinaryTotalOre = b.ordinaryTotalOre)
    (hid : a.appliedOfferId.getD [] = b.appliedOfferId.getD []) : a = b := by
  have hsaving : a.savingOre = b.savingOre := by
    have htotalA := ha.total
    have htotalB := hb.total
    omega
  have hoffer : a.appliedOfferId = b.appliedOfferId := by
    cases haId : a.appliedOfferId with
    | none => exact (hb.saving.mpr (hsaving ▸ ha.saving.mp haId)).symm
    | some id =>
      cases hbId : b.appliedOfferId with
      | none =>
        rw [ha.saving.mpr (hsaving.trans (hb.saving.mp hbId))] at haId
        cases haId
      | some id' =>
        rw [haId, hbId] at hid
        exact congrArg some hid
  obtain ⟨ordinaryTotalOre, savingOre, totalOre, appliedOfferId⟩ := a
  obtain ⟨ordinaryTotalOre', savingOre', totalOre', appliedOfferId'⟩ := b
  simp only at htotal hordinary hsaving hoffer
  rw [htotal, hordinary, hsaving, hoffer]

/-- Choices that compare equal are the same checkout. -/
theorem IsChoice.checkout_eq {a b : CheckoutChoice}
    (ha : IsChoice host product observation packageCount officialOffers offerContext a)
    (hb : IsChoice host product observation packageCount officialOffers offerContext b)
    (h : compareCheckoutChoices a b = .eq) : a.checkout = b.checkout := by
  unfold compareCheckoutChoices at h
  rw [compareLex_eq_iff, compareLex_eq_iff] at h
  obtain ⟨htotal, hordinary, hid⟩ := h
  exact checkout_eq_of_schema (checkoutCostV2Schema_of_eq_ok ha.cost)
    (checkoutCostV2Schema_of_eq_ok hb.cost) (Std.LawfulEqCmp.compare_eq_iff_eq.mp htotal)
    (Std.LawfulEqCmp.compare_eq_iff_eq.mp hordinary) (on_eq_iff.mp hid)

/-- Of offers with distinct identifiers, choices of the same checkout name the same offer. -/
theorem IsChoice.eq_of_nodup {a b : CheckoutChoice}
    (hnodup : (officialOffers.map (·.id)).Nodup)
    (ha : IsChoice host product observation packageCount officialOffers offerContext a)
    (hb : IsChoice host product observation packageCount officialOffers offerContext b)
    (h : a.checkout = b.checkout) : a = b := by
  have hids : a.offer.map (·.id) = b.offer.map (·.id) := by rw [← ha.named, ← hb.named, h]
  have hofferA := ha.listed
  have hofferB := hb.listed
  obtain ⟨checkout, offer⟩ := a
  obtain ⟨checkout', offer'⟩ := b
  obtain rfl : checkout = checkout' := h
  cases offer with
  | none =>
    exact congrArg (CheckoutChoice.mk checkout) (Option.map_eq_none_iff.mp hids.symm).symm
  | some o =>
    obtain ⟨o', rfl, hid⟩ := Option.map_eq_some_iff.mp hids.symm
    rw [List.inj_on_of_nodup_map hnodup (hofferA o rfl) (hofferB o' rfl) hid.symm]

/-- **The choice among a list of offers** charges the least and does not depend on their order. -/
theorem bestCheckoutIsLeast (host : Host) (product : PlanningProductV2)
    (observation : PriceObservation) (packageCount : ℕ) (officialOffers : List OfficialOffer)
    (offerContext : OfficialOfferEvaluationContext) :
    BestCheckoutIsLeast host product observation packageCount officialOffers offerContext where
  available := by
    constructor
    · rintro ⟨best, hbest⟩
      exact ⟨_, calculateCheckoutCost_ordinary (bestCheckout_spec hbest).1⟩
    · rintro ⟨cost, hcost⟩
      exact exists_bestCheckout hcost officialOffers
  chosen best hbest := by
    obtain ⟨hcost, -, hoffers⟩ := bestCheckout_spec hbest
    exact ⟨hoffers, hcost⟩
  noDearer best hbest offer hoffer cost hcost :=
    bestCheckout_le hbest hcost fun o ho _ _ => hoffer o ho
  order officialOffers' hperm := by
    unfold bestCheckout
    cases hordinary : calculateCheckoutCost host product.canonicalProductId observation.chain.text
        packageCount observation.amountOre none offerContext with
    | error reason => rfl
    | ok ordinary =>
      dsimp only
      have hchoices := (hperm.filterMap
        (offerChoice host product observation packageCount offerContext)).cons
          (⟨ordinary, none⟩ : CheckoutChoice)
      have hleast : ∀ choices : List CheckoutChoice,
          ∃ a, least compareCheckoutChoices (⟨ordinary, none⟩ :: choices) = some a :=
        fun _ => exists_least _ List.mem_cons_self
      obtain ⟨a, ha⟩ := hleast (officialOffers'.filterMap
        (offerChoice host product observation packageCount offerContext))
      obtain ⟨b, hb⟩ := hleast (officialOffers.filterMap
        (offerChoice host product observation packageCount offerContext))
      have hamem := hchoices.mem_iff.mp (least_mem ha)
      have hbmem := hchoices.mem_iff.mpr (least_mem hb)
      have heq := Std.OrientedCmp.isLE_antisymm (least_isLE ha hbmem) (least_isLE hb hamem)
      rw [ha, hb]
      exact congrArg some (IsChoice.checkout_eq (isChoice_of_mem hordinary hamem)
        (isChoice_of_mem hordinary (least_mem hb)) heq)
  orderOfOffers hnodup officialOffers' hperm := by
    unfold bestCheckout
    cases hordinary : calculateCheckoutCost host product.canonicalProductId observation.chain.text
        packageCount observation.amountOre none offerContext with
    | error reason => rfl
    | ok ordinary =>
      refine (least_eq_of_perm ((hperm.symm.filterMap _).cons _) fun a ha b hb heq => ?_).symm
      have hA := isChoice_of_mem hordinary ha
      have hB := isChoice_of_mem hordinary hb
      exact IsChoice.eq_of_nodup hnodup hA hB (hA.checkout_eq hB heq)

end Choice

end PlannerV2

/-- **A checkout charges the least that its offer admits**, and the best checkout of a list the
least of the list. -/
theorem checksOut_and_bestCheckoutIsLeast (host : Host) :
    (∀ canonicalProductId chainId packageCount ordinaryUnitPriceOre offer offerContext,
      ChecksOut host canonicalProductId chainId packageCount ordinaryUnitPriceOre offer
        offerContext) ∧
    ∀ product observation packageCount officialOffers offerContext,
      PlannerV2.BestCheckoutIsLeast host product observation packageCount officialOffers
        offerContext :=
  ⟨checksOut host, PlannerV2.bestCheckoutIsLeast host⟩

end Handleplan
