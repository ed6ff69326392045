import Handleplan.Domain.Offers

/-!
# Fulfilment and checkout cost

How many whole packages fulfil a need, and what they cost at one chain with or without an official
offer.

## Main definitions

* `FulfilmentV2`, `FulfilmentV2Schema` — a complete fulfilment and its schema.
* `calculatePackageFulfilmentV2` — the fulfilment of a request by one package size.
* `CheckoutCost`, `calculateCheckoutCostFrom` — the cost of the packages.
* `calculateCheckoutCost` — the same, of identifiers without white space.
* `LowersTo` — an offer brings packages below their ordinary total.

## Main results

* `fulfilmentV2Schema_of_eq_ok`, `checkoutCostV2Schema_of_eq_ok` — what is
  calculated passes its schema.
* `offerCheckoutCost_eq` — what an offer charges.
* `calculateCheckoutCost_spec` — a cost is the ordinary total, or that of the offer when
  it is lower.
-/

namespace Handleplan

open JsString

/-! ### Fulfilment -/

/-- `FulfilmentV2`; the surplus may be zero. -/
structure FulfilmentV2 where
  needId : JsString
  canonicalProductId : JsString
  requested : PackageMeasure
  packageMeasure : PackageMeasure
  packageCount : ℕ
  purchased : PackageMeasure
  surplus : PackageMeasure
  deriving DecidableEq

/-- The smallest number of packages that covers a request. -/
def expectedPackageCount (requested packageMeasure : PackageMeasure) : ℕ :=
  if requested.unit = .package then requested.amount
  else (requested.amount + packageMeasure.amount - 1) / packageMeasure.amount

/-- `fulfilmentV2Schema`. -/
@[mk_iff] structure FulfilmentV2Schema (f : FulfilmentV2) : Prop where
  needId : IdentifierSchema f.needId
  canonicalProductId : IdentifierSchema f.canonicalProductId
  requested : PackageMeasureSchema f.requested
  packageMeasure : PackageMeasureSchema f.packageMeasure
  packageCount : PositiveSafeInteger f.packageCount
  purchased : PackageMeasureSchema f.purchased
  surplus : NonNegativeSafeInteger f.surplus.amount
  smallest : f.packageCount = expectedPackageCount f.requested f.packageMeasure
  safe : f.packageMeasure.amount * f.packageCount ≤ maxSafeInteger
  packages : f.requested.unit = .package →
    f.purchased = ⟨f.packageCount, .package⟩ ∧ f.surplus = ⟨0, .package⟩
  units : f.requested.unit ≠ .package →
    f.requested.unit = f.packageMeasure.unit ∧ f.purchased.unit = f.requested.unit ∧
      f.surplus.unit = f.requested.unit ∧
      f.purchased.amount = f.packageMeasure.amount * f.packageCount ∧
      f.surplus.amount + f.requested.amount = f.purchased.amount

instance : DecidablePred FulfilmentV2Schema :=
  fun _ => decidable_of_iff' _ (fulfilmentV2Schema_iff _)

/-- `reason` of a request that a package size cannot fulfil. -/
inductive FulfilmentUnavailable where
  | incompatibleUnit | invalid | overflow
  deriving DecidableEq

/-- `calculatePackageFulfilmentV2`. -/
def calculatePackageFulfilmentV2 (canonicalProductId needId : JsString)
    (requested packageMeasure : PackageMeasure) : Except FulfilmentUnavailable FulfilmentV2 :=
  if ¬ IdentifierSchema canonicalProductId ∨ ¬ IdentifierSchema needId ∨
      ¬ PackageMeasureSchema requested ∨ ¬ PackageMeasureSchema packageMeasure then
    .error .invalid
  else if requested.unit ≠ .package ∧ requested.unit ≠ packageMeasure.unit then
    .error .incompatibleUnit
  else
    let packageCount := expectedPackageCount requested packageMeasure
    let physicalPurchaseAmount := packageCount * packageMeasure.amount
    if maxSafeInteger < packageCount ∨ maxSafeInteger < physicalPurchaseAmount then
      .error .overflow
    else
      let fulfilment : FulfilmentV2 :=
        { needId := needId
          canonicalProductId := canonicalProductId
          requested := requested
          packageMeasure := packageMeasure
          packageCount := packageCount
          purchased :=
            if requested.unit = .package then ⟨packageCount, .package⟩
            else ⟨physicalPurchaseAmount, requested.unit⟩
          surplus :=
            if requested.unit = .package then ⟨0, .package⟩
            else ⟨physicalPurchaseAmount - requested.amount, requested.unit⟩ }
      if FulfilmentV2Schema fulfilment then .ok fulfilment else .error .invalid

variable {canonicalProductId chainId : JsString} {packageCount ordinaryUnitPriceOre : ℕ}
  {offer : Option OfficialOffer} {offerContext : OfficialOfferEvaluationContext}

theorem fulfilmentV2Schema_of_eq_ok {needId : JsString} {requested packageMeasure : PackageMeasure}
    {fulfilment : FulfilmentV2}
    (h : calculatePackageFulfilmentV2 canonicalProductId needId requested packageMeasure = .ok fulfilment) :
    FulfilmentV2Schema fulfilment ∧ fulfilment.needId = needId ∧
      fulfilment.canonicalProductId = canonicalProductId := by
  simp only [calculatePackageFulfilmentV2, ite_error_eq_ok_iff, ite_ok_eq_ok_iff] at h
  obtain ⟨-, -, -, hschema, rfl⟩ := h
  exact ⟨hschema, rfl, rfl⟩

/-! ### Checkout cost -/

/-- `CheckoutCost` (and `CheckoutCostV2`). -/
structure CheckoutCost where
  ordinaryTotalOre : ℕ
  savingOre : ℕ
  totalOre : ℕ
  appliedOfferId : Option JsString
  deriving DecidableEq

variable {cost : CheckoutCost}

/-- `safeMoneyProduct`. -/
def safeMoneyProduct (left right : ℕ) : Option ℕ :=
  if left * right ≤ maxPersistedMoneyOre then some (left * right) else none

/-- `ordinaryCheckoutCost`. -/
def ordinaryCheckoutCost (totalOre : ℕ) : CheckoutCost where
  ordinaryTotalOre := totalOre
  savingOre := 0
  totalOre := totalOre
  appliedOfferId := none

/-- The minimum quantity an offer asks for. -/
def minimumQuantity (offer : OfficialOffer) : ℕ :=
  (offer.conditions.filterMap fun
    | .minimumQuantity quantity => some quantity
    | _ => none).foldl max 1

/-- The total of the packages under the pricing of an offer, when it can be represented. -/
def offerTotalOre (pricing : OfferPricing) (packageCount ordinaryUnitPriceOre : ℕ) : Option ℕ :=
  match pricing with
  | .unit unitPriceOre => safeMoneyProduct packageCount unitPriceOre
  | .multibuy quantity totalOre => do
    let groupedTotal ← safeMoneyProduct (packageCount / quantity) totalOre
    let remainderTotal ← safeMoneyProduct (packageCount % quantity) ordinaryUnitPriceOre
    if groupedTotal + remainderTotal ≤ maxPersistedMoneyOre then
      some (groupedTotal + remainderTotal)
    else none

variable (host : Host)

/-- `calculateCheckoutCost` for one offer, once the ordinary total is known. -/
def offerCheckoutCost (canonicalProductId chainId : JsString)
    (packageCount ordinaryUnitPriceOre ordinaryTotalOre : ℕ) (offer : OfficialOffer)
    (offerContext : OfficialOfferEvaluationContext) : CheckoutCost :=
  match parseApplicableOfficialOffer host offer offerContext with
  | .error _ => ordinaryCheckoutCost ordinaryTotalOre
  | .ok applicableOffer =>
    if applicableOffer.chainId ≠ chainId ∨
        applicableOffer.exactProductId ≠ some canonicalProductId then
      ordinaryCheckoutCost ordinaryTotalOre
    else if packageCount < minimumQuantity applicableOffer then
      ordinaryCheckoutCost ordinaryTotalOre
    else
      match offerTotalOre applicableOffer.pricing packageCount ordinaryUnitPriceOre with
      | none => ordinaryCheckoutCost ordinaryTotalOre
      | some offerTotal =>
        if ordinaryTotalOre ≤ offerTotal then ordinaryCheckoutCost ordinaryTotalOre
        else
          { appliedOfferId := some applicableOffer.id
            ordinaryTotalOre := ordinaryTotalOre
            savingOre := ordinaryTotalOre - offerTotal
            totalOre := offerTotal }

/-- `reason` of a checkout that cannot be priced. -/
inductive CheckoutUnavailable where
  | invalid | overflow
  deriving DecidableEq

/-- `calculateCheckoutCost` on identifiers as they are passed: they are parsed only to be
checked. -/
def calculateCheckoutCostFrom (canonicalProductId chainId : JsString)
    (packageCount ordinaryUnitPriceOre : ℕ) (offer : Option OfficialOffer)
    (offerContext : OfficialOfferEvaluationContext) : Except CheckoutUnavailable CheckoutCost :=
  if ¬ IdentifierSchema (trim canonicalProductId) ∨ ¬ IdentifierSchema (trim chainId) ∨
      ¬ PositiveSafeInteger packageCount ∨ ¬ MoneyOreSchema ordinaryUnitPriceOre then
    .error .invalid
  else
    match safeMoneyProduct packageCount ordinaryUnitPriceOre with
    | none => .error .overflow
    | some ordinaryTotalOre =>
      match offer with
      | none => .ok (ordinaryCheckoutCost ordinaryTotalOre)
      | some offer =>
        .ok (offerCheckoutCost host canonicalProductId chainId packageCount ordinaryUnitPriceOre
          ordinaryTotalOre offer offerContext)

/-- `calculateCheckoutCost` on identifiers that have no white space around them. -/
def calculateCheckoutCost (canonicalProductId chainId : JsString)
    (packageCount ordinaryUnitPriceOre : ℕ) (offer : Option OfficialOffer)
    (offerContext : OfficialOfferEvaluationContext) : Except CheckoutUnavailable CheckoutCost :=
  if ¬ (IdentifierSchema canonicalProductId ∧ IdentifierSchema chainId) then .error .invalid
  else
    calculateCheckoutCostFrom host canonicalProductId chainId packageCount ordinaryUnitPriceOre offer
      offerContext

/-- `checkoutCostV2Schema`. -/
@[mk_iff] structure CheckoutCostV2Schema (c : CheckoutCost) : Prop where
  ordinaryTotalOre : MoneyOreSchema c.ordinaryTotalOre
  savingOre : MoneyOreSchema c.savingOre
  totalOre : MoneyOreSchema c.totalOre
  appliedOfferId : ∀ id ∈ c.appliedOfferId, IdentifierSchema id
  total : c.totalOre + c.savingOre = c.ordinaryTotalOre
  saving : c.appliedOfferId = none ↔ c.savingOre = 0

instance : DecidablePred CheckoutCostV2Schema :=
  fun _ => decidable_of_iff' _ (checkoutCostV2Schema_iff _)

variable {host}

theorem safeMoneyProduct_eq_some_iff {left right n : ℕ} :
    safeMoneyProduct left right = some n ↔ n = left * right ∧ n ≤ maxPersistedMoneyOre := by
  unfold safeMoneyProduct
  split <;> simp only [Option.some.injEq, reduceCtorEq, false_iff, not_and] <;> omega

/-- What an offer can do to an ordinary total: nothing, or apply and lower it. -/
theorem offerCheckoutCost_spec (host : Host) (canonicalProductId chainId : JsString)
    (packageCount ordinaryUnitPriceOre ordinaryTotalOre : ℕ) (offer : OfficialOffer)
    (offerContext : OfficialOfferEvaluationContext) :
    let cost := offerCheckoutCost host canonicalProductId chainId packageCount
      ordinaryUnitPriceOre ordinaryTotalOre offer offerContext
    cost = ordinaryCheckoutCost ordinaryTotalOre ∨
      (Applicable host offer offerContext ∧ offer.chainId = chainId ∧
        offer.exactProductId = some canonicalProductId ∧ cost.appliedOfferId = some offer.id ∧
        cost.ordinaryTotalOre = ordinaryTotalOre ∧ 0 < cost.savingOre ∧
        cost.totalOre + cost.savingOre = ordinaryTotalOre) := by
  intro cost
  simp only [cost, offerCheckoutCost]
  cases happly : parseApplicableOfficialOffer host offer offerContext with
  | error reason => exact Or.inl rfl
  | ok parsed =>
    obtain ⟨happlicable, rfl⟩ := parseApplicableOfficialOffer_eq_ok_iff.mp happly
    dsimp only
    split_ifs with hmatch hminimum
    · exact Or.inl rfl
    · exact Or.inl rfl
    · obtain ⟨hchain, hproduct⟩ := not_or.mp hmatch
      cases offerTotalOre parsed.pricing packageCount ordinaryUnitPriceOre with
      | none => exact Or.inl rfl
      | some offerTotal =>
        dsimp only
        split_ifs with hlower
        · exact Or.inl rfl
        · refine Or.inr ⟨happlicable, not_not.mp hchain, not_not.mp hproduct, rfl, rfl, ?_, ?_⟩
          · dsimp only
            omega
          · dsimp only
            omega

/-- An offer for a product at a chain brings a number of packages below their ordinary total. -/
structure LowersTo (canonicalProductId chainId : JsString)
    (packageCount ordinaryUnitPriceOre : ℕ) (offer : OfficialOffer) (totalOre : ℕ) : Prop where
  chain : offer.chainId = chainId
  product : offer.exactProductId = some canonicalProductId
  quantity : minimumQuantity offer ≤ packageCount
  total : offerTotalOre offer.pricing packageCount ordinaryUnitPriceOre = some totalOre
  lower : totalOre < packageCount * ordinaryUnitPriceOre

/-- **One offer at the checkout**: it charges a total when it applies and lowers the ordinary one to
it, and the ordinary total otherwise. -/
theorem offerCheckoutCost_eq (host : Host) (canonicalProductId chainId : JsString)
    (packageCount ordinaryUnitPriceOre : ℕ) (offer : OfficialOffer)
    (offerContext : OfficialOfferEvaluationContext) :
    let cost := offerCheckoutCost host canonicalProductId chainId packageCount ordinaryUnitPriceOre
      (packageCount * ordinaryUnitPriceOre) offer offerContext
    (cost.appliedOfferId = some offer.id ∧ Applicable host offer offerContext ∧
        LowersTo canonicalProductId chainId packageCount ordinaryUnitPriceOre offer
          cost.totalOre) ∨
      (cost = ordinaryCheckoutCost (packageCount * ordinaryUnitPriceOre) ∧
        ∀ total, ¬ (Applicable host offer offerContext ∧
          LowersTo canonicalProductId chainId packageCount ordinaryUnitPriceOre offer total)) := by
  intro cost
  simp only [cost, offerCheckoutCost]
  cases hparse : parseApplicableOfficialOffer host offer offerContext with
  | error reason =>
    refine Or.inr ⟨rfl, fun total h => ?_⟩
    rw [parseApplicableOfficialOffer_eq_ok_iff.mpr ⟨h.1, rfl⟩] at hparse
    cases hparse
  | ok parsed =>
    obtain ⟨happlies, rfl⟩ := parseApplicableOfficialOffer_eq_ok_iff.mp hparse
    dsimp only
    split_ifs with hmatch hminimum
    · refine Or.inr ⟨rfl, fun total h => ?_⟩
      obtain hchain | hproduct := hmatch
      · exact hchain h.2.chain
      · exact hproduct h.2.product
    · exact Or.inr ⟨rfl, fun total h => absurd h.2.quantity (by omega)⟩
    · obtain ⟨hchain, hproduct⟩ := not_or.mp hmatch
      cases htotal : offerTotalOre parsed.pricing packageCount ordinaryUnitPriceOre with
      | none =>
        refine Or.inr ⟨rfl, fun total h => ?_⟩
        rw [h.2.total] at htotal
        cases htotal
      | some offerTotal =>
        dsimp only
        split_ifs with hlower
        · refine Or.inr ⟨rfl, fun total h => ?_⟩
          obtain rfl := Option.some.inj (h.2.total.symm.trans htotal)
          exact absurd h.2.lower (by omega)
        · exact Or.inl ⟨rfl, happlies,
            { chain := not_not.mp hchain
              product := not_not.mp hproduct
              quantity := by omega
              total := htotal
              lower := not_le.mp hlower }⟩

section

variable (h : calculateCheckoutCost host canonicalProductId chainId packageCount
  ordinaryUnitPriceOre offer offerContext = .ok cost)

include h

/-- **A checkout cost** is the ordinary total, or that of an applicable offer that lowers it. -/
theorem calculateCheckoutCost_spec :
    cost.ordinaryTotalOre = packageCount * ordinaryUnitPriceOre ∧
      cost.ordinaryTotalOre ≤ maxPersistedMoneyOre ∧
      (cost = ordinaryCheckoutCost cost.ordinaryTotalOre ∨
        ∃ applied ∈ offer, Applicable host applied offerContext ∧ applied.chainId = chainId ∧
          applied.exactProductId = some canonicalProductId ∧
          cost.appliedOfferId = some applied.id ∧ 0 < cost.savingOre ∧
          cost.totalOre + cost.savingOre = cost.ordinaryTotalOre) := by
  simp only [calculateCheckoutCost, calculateCheckoutCostFrom, ite_error_eq_ok_iff] at h
  obtain ⟨-, -, h⟩ := h
  cases htotal : safeMoneyProduct packageCount ordinaryUnitPriceOre with
  | none => simp [htotal] at h
  | some ordinaryTotalOre =>
    obtain ⟨hproduct, hbound⟩ := safeMoneyProduct_eq_some_iff.mp htotal
    rw [htotal] at h
    cases offer with
    | none =>
      cases h
      exact ⟨hproduct, hbound, Or.inl rfl⟩
    | some offer =>
      cases h
      rcases offerCheckoutCost_spec host canonicalProductId chainId packageCount
        ordinaryUnitPriceOre ordinaryTotalOre offer offerContext with heq | hoffer
      · rw [heq]
        exact ⟨hproduct, hbound, Or.inl rfl⟩
      · obtain ⟨happlicable, hchain, hexact, hid, hordinary, hsaving, hsum⟩ := hoffer
        rw [hordinary]
        exact ⟨hproduct, hbound, Or.inr ⟨offer, rfl, happlicable, hchain, hexact, hid, hsaving,
          hsum⟩⟩

/-- Without an offer the cost is the ordinary total. -/
theorem calculateCheckoutCost_ordinary :
    calculateCheckoutCost host canonicalProductId chainId packageCount ordinaryUnitPriceOre none
      offerContext = .ok (ordinaryCheckoutCost (packageCount * ordinaryUnitPriceOre)) := by
  simp only [calculateCheckoutCost, calculateCheckoutCostFrom, ite_error_eq_ok_iff] at h ⊢
  obtain ⟨hids, hvalid, h⟩ := h
  refine ⟨hids, hvalid, ?_⟩
  cases htotal : safeMoneyProduct packageCount ordinaryUnitPriceOre with
  | none => simp [htotal] at h
  | some ordinaryTotalOre => rw [(safeMoneyProduct_eq_some_iff.mp htotal).1]

/-- A checkout cost passes its schema. -/
theorem checkoutCostV2Schema_of_eq_ok :
    CheckoutCostV2Schema cost := by
  obtain ⟨-, hbound, heq | ⟨applied, -, happlicable, -, -, hid, hsaving, hsum⟩⟩ :=
    calculateCheckoutCost_spec h
  · rw [heq]
    exact ⟨hbound, Nat.zero_le _, hbound, by simp [ordinaryCheckoutCost], rfl, by
      simp [ordinaryCheckoutCost]⟩
  · refine ⟨hbound, ?_, ?_, ?_, hsum, ?_⟩
    · unfold MoneyOreSchema
      omega
    · unfold MoneyOreSchema
      omega
    · simpa [hid] using happlicable.schema.id
    · simp only [hid, reduceCtorEq, false_iff]
      omega

end

end Handleplan
