import Handleplan.Domain.Fulfilment

/-!
# The fulfilment schema accepts what is calculated, and nothing else

A fulfilment is calculated from a request and a package size, and checked again wherever it is
handed on. The schema repeats the arithmetic in conditions of its own.

## Main definitions

* `FulfilmentV2.parsed`, `calculatePackageFulfilmentV2From` — both sides on records whose
  identifiers are not trimmed yet.
* `contentOf` — how much of what is requested one package holds.
* `FulfilmentAgrees` — the schema and the calculation agree on a record.

## Main results

* `expectedPackageCount_le_iff` — the packages counted are the fewest that suffice.
* `calculatePackageFulfilmentV2_eq_ok_iff` — what is calculated is what the schema
  accepts for its input.
* `calculatePackageFulfilmentV2_eq_invalid_iff` — the last check of the calculation never
  fails.
* `fulfilmentAgrees` — the schema and the calculation decide the same relation.
-/

namespace Handleplan

open JsString

/-! ### Unparsed records -/

/-- The record that `fulfilmentV2Schema` gives back: its identifiers are trimmed. -/
def FulfilmentV2.parsed (f : FulfilmentV2) : FulfilmentV2 :=
  { f with needId := trim f.needId, canonicalProductId := trim f.canonicalProductId }

/-- `calculatePackageFulfilmentV2`, which parses its input before it calculates. -/
def calculatePackageFulfilmentV2From (canonicalProductId needId : JsString)
    (requested packageMeasure : PackageMeasure) : Except FulfilmentUnavailable FulfilmentV2 :=
  calculatePackageFulfilmentV2 (trim canonicalProductId) (trim needId) requested packageMeasure

/-! ### Counting packages -/

/-- How much of what is requested one package holds: a request in packages counts packages. -/
def contentOf (requested packageMeasure : PackageMeasure) : ℕ :=
  if requested.unit = .package then 1 else packageMeasure.amount

section Counting

variable {requested packageMeasure : PackageMeasure}

/-- **The packages counted are the fewest that hold what is requested.** -/
theorem expectedPackageCount_le_iff (h : PackageMeasureSchema packageMeasure) {n : ℕ} :
    expectedPackageCount requested packageMeasure ≤ n ↔
      requested.amount ≤ n * contentOf requested packageMeasure := by
  unfold expectedPackageCount contentOf
  split_ifs
  · rw [Nat.mul_one]
  · have hpos : 0 < packageMeasure.amount := h.1
    rw [← Nat.lt_succ_iff, Nat.div_lt_iff_lt_mul hpos, Nat.succ_mul]
    omega

theorem le_expectedPackageCount_mul (requested : PackageMeasure)
    (h : PackageMeasureSchema packageMeasure) :
    requested.amount ≤
      expectedPackageCount requested packageMeasure * contentOf requested packageMeasure :=
  (expectedPackageCount_le_iff h).mp le_rfl

/-- One package less would not suffice. -/
theorem expectedPackageCount_mul_lt (hrequested : PackageMeasureSchema requested)
    (h : PackageMeasureSchema packageMeasure) :
    expectedPackageCount requested packageMeasure * contentOf requested packageMeasure <
      requested.amount + contentOf requested packageMeasure := by
  have hfewer : ¬ requested.amount ≤
      (expectedPackageCount requested packageMeasure - 1) * contentOf requested packageMeasure := by
    rw [← expectedPackageCount_le_iff h]
    have hpositive : ¬ expectedPackageCount requested packageMeasure ≤ 0 := by
      rw [expectedPackageCount_le_iff h, Nat.zero_mul]
      exact not_le.mpr hrequested.1
    omega
  rw [Nat.sub_mul, Nat.one_mul] at hfewer
  omega

theorem expectedPackageCount_pos (hrequested : PackageMeasureSchema requested)
    (h : PackageMeasureSchema packageMeasure) :
    0 < expectedPackageCount requested packageMeasure := by
  by_contra hzero
  have hle := not_lt.mp hzero
  rw [expectedPackageCount_le_iff h, Nat.zero_mul] at hle
  exact absurd hrequested.1 (by omega)

end Counting

/-! ### The calculation -/

/-- The record that is calculated, before its last check. -/
def packageFulfilment (canonicalProductId needId : JsString)
    (requested packageMeasure : PackageMeasure) : FulfilmentV2 where
  needId := needId
  canonicalProductId := canonicalProductId
  requested := requested
  packageMeasure := packageMeasure
  packageCount := expectedPackageCount requested packageMeasure
  purchased :=
    if requested.unit = .package then ⟨expectedPackageCount requested packageMeasure, .package⟩
    else ⟨expectedPackageCount requested packageMeasure * packageMeasure.amount, requested.unit⟩
  surplus :=
    if requested.unit = .package then ⟨0, .package⟩
    else ⟨expectedPackageCount requested packageMeasure * packageMeasure.amount -
      requested.amount, requested.unit⟩

/-- What the calculation asks of its input. -/
structure PackageFulfilmentInput (canonicalProductId needId : JsString)
    (requested packageMeasure : PackageMeasure) : Prop where
  canonicalProductId : IdentifierSchema canonicalProductId
  needId : IdentifierSchema needId
  requested : PackageMeasureSchema requested
  packageMeasure : PackageMeasureSchema packageMeasure

section Calculation

variable {canonicalProductId needId : JsString} {requested packageMeasure : PackageMeasure}

theorem not_packageFulfilmentInput_iff :
    (¬ IdentifierSchema canonicalProductId ∨ ¬ IdentifierSchema needId ∨
      ¬ PackageMeasureSchema requested ∨ ¬ PackageMeasureSchema packageMeasure) ↔
        ¬ PackageFulfilmentInput canonicalProductId needId requested packageMeasure := by
  rw [← not_and_or, ← not_and_or, ← not_and_or, not_iff_not]
  exact ⟨fun ⟨h₁, h₂, h₃, h₄⟩ => ⟨h₁, h₂, h₃, h₄⟩, fun ⟨h₁, h₂, h₃, h₄⟩ => ⟨h₁, h₂, h₃, h₄⟩⟩

/-- **What is calculated passes the last check**: the units are compatible, the numbers are safe,
and the schema repeats the arithmetic. -/
theorem fulfilmentV2Schema_packageFulfilment
    (h : PackageFulfilmentInput canonicalProductId needId requested packageMeasure)
    (hunit : requested.unit = .package ∨ requested.unit = packageMeasure.unit)
    (hcount : expectedPackageCount requested packageMeasure ≤ maxSafeInteger)
    (hsafe : expectedPackageCount requested packageMeasure * packageMeasure.amount ≤
      maxSafeInteger) :
    FulfilmentV2Schema (packageFulfilment canonicalProductId needId requested packageMeasure) := by
  have hpositive := expectedPackageCount_pos h.requested h.packageMeasure
  have hcovers := le_expectedPackageCount_mul requested h.packageMeasure
  refine
    { needId := h.needId
      canonicalProductId := h.canonicalProductId
      requested := h.requested
      packageMeasure := h.packageMeasure
      packageCount := ⟨hpositive, hcount⟩
      purchased := ?_
      surplus := ?_
      smallest := rfl
      safe := ?_
      packages := ?_
      units := ?_ }
  · unfold packageFulfilment PackageMeasureSchema
    dsimp only
    split_ifs
    · exact ⟨hpositive, hcount⟩
    · exact ⟨Nat.mul_pos hpositive h.packageMeasure.1, hsafe⟩
  · unfold packageFulfilment NonNegativeSafeInteger
    dsimp only
    split_ifs
    · exact Nat.zero_le _
    · exact (Nat.sub_le _ _).trans hsafe
  · rw [Nat.mul_comm]
    exact hsafe
  · intro hpackage
    change requested.unit = .package at hpackage
    simp only [packageFulfilment, if_pos hpackage]
    exact ⟨trivial, trivial⟩
  · intro hpackage
    change requested.unit ≠ .package at hpackage
    rw [contentOf, if_neg hpackage] at hcovers
    simp only [packageFulfilment, if_neg hpackage]
    refine ⟨hunit.resolve_left hpackage, trivial, trivial, Nat.mul_comm _ _, ?_⟩
    omega

/-- The schema accepts one record only for an input. -/
theorem FulfilmentV2Schema.eq_packageFulfilment {f : FulfilmentV2} (h : FulfilmentV2Schema f) :
    f = packageFulfilment f.canonicalProductId f.needId f.requested f.packageMeasure := by
  have hsmallest := h.smallest
  have hpackages := h.packages
  have hunits := h.units
  obtain ⟨needId, canonicalProductId, requested, packageMeasure, packageCount, purchased,
    surplus⟩ := f
  dsimp only at hsmallest hpackages hunits
  subst hsmallest
  unfold packageFulfilment
  by_cases hpackage : requested.unit = .package
  · obtain ⟨rfl, rfl⟩ := hpackages hpackage
    rw [if_pos hpackage, if_pos hpackage]
  · obtain ⟨-, hpurchased, hsurplus, hamount, hrest⟩ := hunits hpackage
    obtain ⟨purchasedAmount, purchasedUnit⟩ := purchased
    obtain ⟨surplusAmount, surplusUnit⟩ := surplus
    dsimp only at hpurchased hsurplus hamount hrest
    subst hpurchased hsurplus hamount
    simp only [if_neg hpackage]
    rw [Nat.mul_comm packageMeasure.amount] at hrest ⊢
    rw [← hrest, Nat.add_sub_cancel]

/-- **The calculation gives the record that the schema accepts for its input**, when there is
one. -/
theorem calculatePackageFulfilmentV2_eq_ok_iff {f : FulfilmentV2} :
    calculatePackageFulfilmentV2 canonicalProductId needId requested packageMeasure = .ok f ↔
      FulfilmentV2Schema f ∧ f.canonicalProductId = canonicalProductId ∧ f.needId = needId ∧
        f.requested = requested ∧ f.packageMeasure = packageMeasure := by
  constructor
  · intro h
    simp only [calculatePackageFulfilmentV2, ite_error_eq_ok_iff, ite_ok_eq_ok_iff] at h
    obtain ⟨-, -, -, hschema, rfl⟩ := h
    exact ⟨hschema, rfl, rfl, rfl, rfl⟩
  · rintro ⟨hschema, rfl, rfl, rfl, rfl⟩
    have heq := hschema.eq_packageFulfilment
    have hunit : ¬ (f.requested.unit ≠ .package ∧ f.requested.unit ≠ f.packageMeasure.unit) :=
      fun h => h.2 (hschema.units h.1).1
    have hsafe := hschema.safe
    rw [hschema.smallest, Nat.mul_comm] at hsafe
    have hcount := hschema.packageCount.2
    rw [hschema.smallest] at hcount
    simp only [calculatePackageFulfilmentV2, ite_error_eq_ok_iff, ite_ok_eq_ok_iff]
    refine ⟨?_, hunit, by omega, ?_, heq.symm⟩
    · rw [not_packageFulfilmentInput_iff, not_not]
      exact ⟨hschema.canonicalProductId, hschema.needId, hschema.requested, hschema.packageMeasure⟩
    · have hself := hschema
      rw [heq] at hself
      exact hself

/-- **The last check never fails**: the calculation calls its input invalid only when it is. -/
theorem calculatePackageFulfilmentV2_eq_invalid_iff :
    calculatePackageFulfilmentV2 canonicalProductId needId requested packageMeasure =
        .error .invalid ↔
      ¬ PackageFulfilmentInput canonicalProductId needId requested packageMeasure := by
  rw [← not_packageFulfilmentInput_iff]
  constructor
  · intro h
    by_contra hinput
    unfold calculatePackageFulfilmentV2 at h
    rw [if_neg hinput] at h
    rw [not_packageFulfilmentInput_iff, not_not] at hinput
    by_cases hunit : requested.unit ≠ .package ∧ requested.unit ≠ packageMeasure.unit
    · rw [if_pos hunit] at h
      cases h
    by_cases hoverflow : maxSafeInteger < expectedPackageCount requested packageMeasure ∨
        maxSafeInteger < expectedPackageCount requested packageMeasure * packageMeasure.amount
    · rw [if_neg hunit, if_pos hoverflow] at h
      cases h
    rw [if_neg hunit, if_neg hoverflow] at h
    have hschema := fulfilmentV2Schema_packageFulfilment hinput
      (by rw [not_and_or, not_not, not_not] at hunit; exact hunit) (by omega) (by omega)
    unfold packageFulfilment at hschema
    rw [if_pos hschema] at h
    cases h
  · intro h
    unfold calculatePackageFulfilmentV2
    rw [if_pos h]

end Calculation

/-! ### Agreement -/

/-- **The schema and the calculation agree on a record**, and on what they let through the packages
are the fewest that suffice. -/
structure FulfilmentAgrees (f : FulfilmentV2) : Prop where
  /-- The schema gives the trimmed record back exactly when it is what is calculated. -/
  accepts : FulfilmentV2Schema f.parsed ↔
    calculatePackageFulfilmentV2From f.canonicalProductId f.needId f.requested f.packageMeasure =
      .ok f.parsed
  /-- Nothing else is calculated than what the schema gives back. -/
  calculated : ∀ g, calculatePackageFulfilmentV2From f.canonicalProductId f.needId f.requested
    f.packageMeasure = .ok g → FulfilmentV2Schema g ∧ g.parsed = g
  /-- The number of packages is the least one that suffices. -/
  least : FulfilmentV2Schema f.parsed → ∀ n, f.packageCount ≤ n ↔
    f.requested.amount ≤ n * contentOf f.requested f.packageMeasure
  /-- The surplus is what the packages hold beyond the request: less than one package. -/
  surplus : FulfilmentV2Schema f.parsed →
    f.surplus.amount + f.requested.amount =
        f.packageCount * contentOf f.requested f.packageMeasure ∧
      f.surplus.amount < contentOf f.requested f.packageMeasure
  /-- All products are safe integers. -/
  safe : FulfilmentV2Schema f.parsed → f.packageCount * f.packageMeasure.amount ≤ maxSafeInteger ∧
    f.packageCount * contentOf f.requested f.packageMeasure ≤ maxSafeInteger
  /-- An input that passes the checks at the beginning is never called invalid. -/
  unreachable : calculatePackageFulfilmentV2From f.canonicalProductId f.needId f.requested
      f.packageMeasure = .error .invalid ↔
    ¬ PackageFulfilmentInput (trim f.canonicalProductId) (trim f.needId) f.requested
      f.packageMeasure

/-- The content of all packages of an accepted record. -/
theorem FulfilmentV2Schema.surplus_add {f : FulfilmentV2} (h : FulfilmentV2Schema f) :
    f.surplus.amount + f.requested.amount =
      f.packageCount * contentOf f.requested f.packageMeasure := by
  unfold contentOf
  split_ifs with hpackage
  · have hcount := h.smallest
    rw [expectedPackageCount, if_pos hpackage] at hcount
    rw [(h.packages hpackage).2, hcount, Nat.mul_one, Nat.zero_add]
  · obtain ⟨-, -, -, hamount, hrest⟩ := h.units hpackage
    rw [hrest, hamount, Nat.mul_comm]

/-- **The schema and the calculation decide the same relation.** -/
theorem fulfilmentAgrees (f : FulfilmentV2) : FulfilmentAgrees f where
  accepts := by
    rw [calculatePackageFulfilmentV2From, calculatePackageFulfilmentV2_eq_ok_iff]
    exact ⟨fun h => ⟨h, rfl, rfl, rfl, rfl⟩, And.left⟩
  calculated g h := by
    obtain ⟨hschema, hproduct, hneed, -, -⟩ := calculatePackageFulfilmentV2_eq_ok_iff.mp h
    refine ⟨hschema, ?_⟩
    unfold FulfilmentV2.parsed
    rw [hschema.needId.1, hschema.canonicalProductId.1]
  least h n := by
    have hcount : f.packageCount = expectedPackageCount f.requested f.packageMeasure := h.smallest
    rw [hcount]
    exact expectedPackageCount_le_iff h.packageMeasure
  surplus h := by
    have hadd : f.surplus.amount + f.requested.amount =
      f.packageCount * contentOf f.requested f.packageMeasure := h.surplus_add
    have hless := expectedPackageCount_mul_lt h.requested h.packageMeasure
    rw [← h.smallest] at hless
    change f.packageCount * contentOf f.requested f.packageMeasure <
      f.requested.amount + contentOf f.requested f.packageMeasure at hless
    exact ⟨hadd, by omega⟩
  safe h := by
    have hsafe : f.packageMeasure.amount * f.packageCount ≤ maxSafeInteger := h.safe
    have hcount : f.packageCount ≤ maxSafeInteger := h.packageCount.2
    rw [Nat.mul_comm] at hsafe
    refine ⟨hsafe, ?_⟩
    unfold contentOf
    split_ifs
    · rwa [Nat.mul_one]
    · exact hsafe
  unreachable := calculatePackageFulfilmentV2_eq_invalid_iff

/-! ### Records the calculation does not return as they are -/

/-- Two packages of 500 g, of a need whose identifier begins with a blank. -/
def twoPackages : FulfilmentV2 where
  needId := js " n"
  canonicalProductId := js "p"
  requested := ⟨2, .package⟩
  packageMeasure := ⟨500, .g⟩
  packageCount := 2
  purchased := ⟨2, .package⟩
  surplus := ⟨0, .package⟩

/-- The schema accepts the record, though the calculation returns another one, with a trimmed
identifier, and though one package of 500 would be at least 2. -/
theorem not_exact_twoPackages :
    FulfilmentV2Schema twoPackages.parsed ∧
      calculatePackageFulfilmentV2From twoPackages.canonicalProductId twoPackages.needId
        twoPackages.requested twoPackages.packageMeasure ≠ .ok twoPackages ∧
      1 < twoPackages.packageCount ∧
      twoPackages.requested.amount ≤ 1 * twoPackages.packageMeasure.amount := by
  decide +kernel

end Handleplan
