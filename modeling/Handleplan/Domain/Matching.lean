import Handleplan.Domain.Contracts
import Handleplan.Lib.JsMap
import Handleplan.Lib.Sorting

/-!
# Matching products to a need

## Main definitions

* `matchProducts` — the products a rule admits for a need, one for each GTIN.

## Main results

* `mem_matchProducts_ean` — a GTIN is matched exactly when a valid product with that
  GTIN satisfies the constraints of the rule.
* `mem_matchProducts` — when no two products have one GTIN, the products matched.
-/

namespace Handleplan

open JsString Sorting

variable (host : Host)

/-- `normalize`. -/
def normalize (value : JsString) : JsString := host.toLocaleLowerCase (trim value)

variable (product : Product)

/-- Whether a product is of a family. -/
def matchesFamily (family : JsString) : Bool :=
  product.productFamily.any fun own => normalize host own == normalize host family

/-- Whether a product is of one of the brands. -/
def matchesBrands (brands : List JsString) : Bool :=
  product.brand.any fun own => brands.any fun brand => normalize host brand == normalize host own

/-- Whether the package of a product is of a size in the range. -/
def matchesSize (range : SizeRange) : Bool :=
  product.packageQuantity.any fun quantity : ℚ =>
    product.packageUnit == some (match range.unit with | .g => PackageUnit.g | .ml => .ml) &&
      decide (range.min ≤ quantity) && decide (quantity ≤ range.max)

/-- `matchesConstraints`. -/
def matchesConstraints (rule : MatchRule) : Bool :=
  match rule.mode with
  | .exact exactEan => product.ean == exactEan
  | .flexible family => matchesFamily host product family
  | .constrained productFamily allowedBrands sizeRange =>
    productFamily.all (matchesFamily host product) &&
      allowedBrands.all (matchesBrands host product) && sizeRange.all (matchesSize product)

/-- `productKey`. -/
def productKey : JsString :=
  joinWith (js "\x00") [product.ean, product.name, product.brand.getD [],
    (product.packageQuantity.map host.numberToString).getD [],
    (product.packageUnit.map PackageUnit.text).getD [], product.productFamily.getD []]

/-- The first product of each GTIN, as the map `uniqueByEan` keeps them. -/
def uniqueByEan (matched : List Product) : JsMap JsString Product :=
  JsMap.ofFirstEntries (matched.map fun product => (product.ean, product))

/-- `matchProducts`. -/
def matchProducts (need : Need) (rule : MatchRule) (products : List Product) : List Product :=
  if ¬ NeedSchema need ∨ ¬ MatchRuleSchema rule ∨ need.matchRuleId ≠ rule.id then []
  else
    let validProducts := products.filter fun product => ProductSchema product
    let matched := sortBy (on (productKey host) compareText)
      (validProducts.filter fun product => matchesConstraints host product rule)
    sortBy (on (·.ean) compareText) (uniqueByEan matched).values

variable {host}

theorem mem_values_uniqueByEan_ean (matched : List Product) (ean : JsString) :
    ean ∈ (uniqueByEan matched).values.map (·.ean) ↔ ean ∈ matched.map (·.ean) := by
  have hkeys : (uniqueByEan matched).values.map (·.ean) = (uniqueByEan matched).keys := by
    simp only [JsMap.values, JsMap.keys, List.map_map]
    refine List.map_congr_left fun e he => ?_
    obtain ⟨product, -, rfl⟩ := List.mem_map.mp (JsMap.mem_of_mem_ofFirstEntries he)
    rfl
  rw [hkeys, uniqueByEan, JsMap.mem_keys_ofFirstEntries, List.map_map]
  rfl

/-- A GTIN is matched exactly when a valid product with that GTIN satisfies the constraints. -/
theorem mem_matchProducts_ean {need : Need} {rule : MatchRule} {products : List Product}
    (hneed : NeedSchema need) (hrule : MatchRuleSchema rule) (hid : need.matchRuleId = rule.id)
    (ean : JsString) :
    ean ∈ (matchProducts host need rule products).map (·.ean) ↔
      ∃ product ∈ products, ProductSchema product ∧ matchesConstraints host product rule = true ∧
        product.ean = ean := by
  have hguard : ¬ (¬ NeedSchema need ∨ ¬ MatchRuleSchema rule ∨ need.matchRuleId ≠ rule.id) := by
    simp [hneed, hrule, hid]
  simp only [matchProducts, if_neg hguard]
  rw [((sortBy_perm _ _).map _).mem_iff, mem_values_uniqueByEan_ean]
  simp only [List.mem_map, mem_sortBy, List.mem_filter, decide_eq_true_eq, and_assoc]

/-- Of products with distinct GTINs the valid ones that satisfy the constraints are matched. -/
theorem mem_matchProducts {need : Need} {rule : MatchRule} {products : List Product}
    (hneed : NeedSchema need) (hrule : MatchRuleSchema rule) (hid : need.matchRuleId = rule.id)
    (hunique : (products.map (·.ean)).Nodup) {product : Product} :
    product ∈ matchProducts host need rule products ↔
      product ∈ products ∧ ProductSchema product ∧ matchesConstraints host product rule = true := by
  have hsound : ∀ p ∈ matchProducts host need rule products,
      p ∈ products ∧ ProductSchema p ∧ matchesConstraints host p rule = true := by
    have hguard : ¬ (¬ NeedSchema need ∨ ¬ MatchRuleSchema rule ∨ need.matchRuleId ≠ rule.id) := by
      simp [hneed, hrule, hid]
    intro p hp
    simp only [matchProducts, if_neg hguard, mem_sortBy] at hp
    obtain ⟨e, he, rfl⟩ := List.mem_map.mp hp
    obtain ⟨q, hq, rfl⟩ := List.mem_map.mp (JsMap.mem_of_mem_ofFirstEntries he)
    simpa only [mem_sortBy, List.mem_filter, decide_eq_true_eq, and_assoc] using hq
  constructor
  · exact hsound product
  · rintro ⟨hmem, hvalid, hmatch⟩
    obtain ⟨p, hp, hean⟩ := List.mem_map.mp ((mem_matchProducts_ean hneed hrule hid product.ean).mpr
      ⟨product, hmem, hvalid, hmatch, rfl⟩)
    obtain rfl := List.inj_on_of_nodup_map hunique (hsound p hp).1 hmem hean
    exact hp

end Handleplan
