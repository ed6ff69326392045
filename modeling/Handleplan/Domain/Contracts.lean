import Mathlib.Algebra.Order.Ring.Unbundled.Rat
import Handleplan.Domain.Primitives

/-!
# Needs, match rules, products and prices

The records shared by the planners, and the freshness of a price observation.

## Main definitions

* `Need`, `MatchRule`, `Product`, `PriceObservation` — the records.
* `NeedSchema`, `MatchRuleSchema`, `ProductSchema`, `PriceObservationSchema` — their
  schemas.
* `classifyFreshness` — the age class of an observation.

## Design

`MatchRule` is a discriminated union of three strict schemas, hence an inductive type: a rule of one
mode cannot carry the constraints of another. The bounds of a size range and the package quantity of
a product are arbitrary positive numbers, so they are rationals.
-/

namespace Handleplan

open JsString

/-! ### Needs and products -/

/-- `quantityUnit` of a need. -/
inductive QuantityUnit where
  | each | g | ml | piece | package
  deriving DecidableEq

/-- `Need`. -/
structure Need where
  id : JsString
  query : JsString
  quantity : ℕ
  quantityUnit : QuantityUnit
  matchRuleId : JsString
  required : Bool

/-- `needSchema`. -/
def NeedSchema (need : Need) : Prop :=
  need.id ≠ [] ∧ need.query ≠ [] ∧ 0 < need.quantity ∧ need.matchRuleId ≠ []

instance : DecidablePred NeedSchema := fun _ => inferInstanceAs (Decidable (_ ∧ _ ∧ _ ∧ _))

/-- `packageUnit` of a product. -/
inductive PackageUnit where
  | g | ml | each
  deriving DecidableEq

/-- The text of a package unit. -/
def PackageUnit.text : PackageUnit → JsString
  | .g => js "g"
  | .ml => js "ml"
  | .each => js "each"

/-- `Product`. -/
structure Product where
  ean : JsString
  name : JsString
  brand : Option JsString
  packageQuantity : Option ℚ
  packageUnit : Option PackageUnit
  productFamily : Option JsString

/-- `productSchema`. -/
@[mk_iff] structure ProductSchema (product : Product) : Prop where
  ean : gtinShape product.ean = true
  name : product.name ≠ []
  brand : ∀ brand ∈ product.brand, brand ≠ []
  packageQuantity : ∀ quantity ∈ product.packageQuantity, 0 < quantity
  productFamily : ∀ family ∈ product.productFamily, family ≠ []

instance : DecidablePred ProductSchema := fun _ => decidable_of_iff' _ (productSchema_iff _)

/-! ### Match rules -/

/-- `unit` of a size range. -/
inductive SizeUnit where
  | g | ml

/-- `sizeRange` of a constrained rule. -/
structure SizeRange where
  min : ℚ
  max : ℚ
  unit : SizeUnit

/-- `sizeRangeSchema`. -/
def SizeRangeSchema (range : SizeRange) : Prop :=
  0 < range.min ∧ 0 < range.max ∧ range.min ≤ range.max

instance : DecidablePred SizeRangeSchema := fun _ => inferInstanceAs (Decidable (_ ∧ _ ∧ _))

/-- The mode of a rule with the constraints that mode admits. -/
inductive MatchMode where
  | exact (exactEan : JsString)
  | constrained (productFamily : Option JsString) (allowedBrands : Option (List JsString))
      (sizeRange : Option SizeRange)
  | flexible (productFamily : JsString)

/-- `MatchRule`. -/
structure MatchRule where
  id : JsString
  mode : MatchMode
  explanation : JsString

/-- Whether the mode of a rule is `exact`. -/
def MatchMode.isExact : MatchMode → Bool
  | .exact _ => true
  | _ => false

/-- The constraints of a mode: those of `exactMatchRuleSchema`, `constrainedMatchRuleSchema` and
`flexibleMatchRuleSchema`. -/
def MatchModeSchema : MatchMode → Prop
  | .exact exactEan => gtinShape exactEan = true
  | .constrained productFamily allowedBrands sizeRange =>
    (∀ family ∈ productFamily, family ≠ []) ∧
      (∀ brands ∈ allowedBrands, brands ≠ [] ∧ ∀ brand ∈ brands, brand ≠ []) ∧
      (∀ range ∈ sizeRange, SizeRangeSchema range) ∧
      (productFamily.isSome ∨ allowedBrands.isSome ∨ sizeRange.isSome)
  | .flexible productFamily => productFamily ≠ []

instance : DecidablePred MatchModeSchema := fun mode => by
  cases mode <;> unfold MatchModeSchema <;> infer_instance

/-- `matchRuleSchema`. -/
def MatchRuleSchema (rule : MatchRule) : Prop :=
  rule.id ≠ [] ∧ rule.explanation ≠ [] ∧ MatchModeSchema rule.mode

instance : DecidablePred MatchRuleSchema := fun _ => inferInstanceAs (Decidable (_ ∧ _ ∧ _))

/-! ### Prices -/

/-- `PriceObservation`. -/
structure PriceObservation where
  ean : JsString
  chain : Chain
  amountOre : ℕ
  observedAt : ℤ
  source : JsString
  deriving DecidableEq

/-- `sourceNeutralPriceObservationSchema`. -/
@[mk_iff] structure PriceObservationSchema (observation : PriceObservation) : Prop where
  ean : gtinShape observation.ean = true
  amountOre : MoneyOreSchema observation.amountOre
  observedAt : CanonicalTimestamp observation.observedAt
  source : IdentifierSchema observation.source

instance : DecidablePred PriceObservationSchema :=
  fun _ => decidable_of_iff' _ (priceObservationSchema_iff _)

/-- `Freshness`. -/
inductive Freshness where
  | eligible | staleVisible | historical | invalid
  deriving DecidableEq

/-- `ELIGIBLE_MAX_AGE_MS`: 72 hours. -/
def eligibleMaxAgeMs : ℤ := 72 * 60 * 60 * 1000

/-- `STALE_VISIBLE_MAX_AGE_MS`: 14 days. -/
def staleVisibleMaxAgeMs : ℤ := 14 * 24 * 60 * 60 * 1000

/-- `classifyFreshness`. -/
def classifyFreshness (now observedAt : ℤ) : Freshness :=
  let elapsedMs := now - observedAt
  if elapsedMs < 0 then .invalid
  else if elapsedMs ≤ eligibleMaxAgeMs then .eligible
  else if elapsedMs ≤ staleVisibleMaxAgeMs then .staleVisible
  else .historical

end Handleplan
