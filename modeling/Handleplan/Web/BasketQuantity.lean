import Handleplan.Lib.DecimalText

/-!
# Basket quantities

A shopper types an amount in one of six units. What is kept is a whole number of pieces, packages,
grams or millilitres; kilograms and litres are read and shown with up to three decimals.

## Main definitions

* `BasketQuantity.parseBasketQuantityInput` — the quantity of an amount in a unit.
* `BasketQuantity.basketQuantityDraft` — the amount that is shown of a quantity.
* `BasketQuantity.basketQuantityAmountAfterUnitChange` — the amount in another unit.
* `BasketQuantity.Means` — what an amount in a unit means.

## Main results

* `BasketQuantity.parseBasketQuantityInput_eq_some_iff` — an amount is read as what it
  means.
* `BasketQuantity.parse_amountForInputUnit` — an amount that is shown is read back.
* `BasketQuantity.basketQuantities_roundTrip` — texts and quantities round-trip.

## Implementation notes

An amount of more digits than a double holds is not rounded here, but it is refused in both cases.
-/

namespace Handleplan.BasketQuantity

open JsString DecimalText
open CivilTime (number)

/-- `BASKET_QUANTITY_MIN`. -/
def basketQuantityMin : ℕ := 1

/-- `BASKET_COUNT_QUANTITY_MAX`. -/
def basketCountQuantityMax : ℕ := 999

/-- `BASKET_MEASURE_QUANTITY_MAX`. -/
def basketMeasureQuantityMax : ℕ := 999999

/-- `BasketCanonicalQuantityUnit`. -/
inductive CanonicalQuantityUnit where
  | piece | package | g | ml
  deriving DecidableEq

/-- `BasketQuantityInputUnit`. -/
inductive QuantityInputUnit where
  | canonical (unit : CanonicalQuantityUnit)
  | kg | l
  deriving DecidableEq

/-- The unit of a stored quantity: a canonical one, or the legacy `each`. -/
inductive StoredQuantityUnit where
  | each
  | canonical (unit : CanonicalQuantityUnit)
  deriving DecidableEq

/-- `BasketQuantity`. -/
structure Quantity where
  quantity : ℕ
  quantityUnit : CanonicalQuantityUnit
  deriving DecidableEq

/-- `BasketQuantityDraft`. -/
structure Draft where
  amount : JsString
  inputUnit : QuantityInputUnit
  legacyEach : Bool
  deriving DecidableEq

/-- Whether a unit is that of a measure. -/
def CanonicalQuantityUnit.isMeasure : CanonicalQuantityUnit → Bool
  | .piece => false
  | .package => false
  | .g => true
  | .ml => true

/-- The greatest quantity of a unit. -/
def CanonicalQuantityUnit.maximum (unit : CanonicalQuantityUnit) : ℕ :=
  if unit.isMeasure then basketMeasureQuantityMax else basketCountQuantityMax

/-- Whether an amount in a unit is scaled. -/
def QuantityInputUnit.isScaled : QuantityInputUnit → Bool
  | .canonical _ => false
  | .kg => true
  | .l => true

/-- The canonical unit of an input unit. -/
def QuantityInputUnit.canonicalUnit : QuantityInputUnit → CanonicalQuantityUnit
  | .canonical unit => unit
  | .kg => .g
  | .l => .ml

/-! ### Reading an amount -/

/-- `WHOLE_AMOUNT`. -/
def WholeAmount (amount : JsString) : Prop := IsWhole amount

/-- `DECIMAL_AMOUNT`. -/
def DecimalAmount (amount : JsString) : Prop :=
  let whole := amount.takeWhile fun u => ¬ IsSeparator u
  let rest := amount.dropWhile fun u => ¬ IsSeparator u
  IsWhole whole ∧ (rest = [] ∨ (1 ≤ rest.tail.length ∧ rest.tail.length ≤ 3) ∧ IsDigits rest.tail)

instance : DecidablePred WholeAmount := fun _ => inferInstanceAs (Decidable (IsWhole _))

instance : DecidablePred DecimalAmount :=
  fun _ => inferInstanceAs (Decidable (_ ∧ (_ ∨ (_ ∧ _) ∧ _)))

/-- `parseScaledAmount`, where the scale is 1000 or 1. -/
def parseScaledAmount (rawAmount : JsString) (scaled : Bool) : Option ℕ :=
  let amount := trim rawAmount
  if ¬ (if scaled then DecimalAmount amount else WholeAmount amount) then none
  else
    let wholePart := amount.takeWhile fun u => ¬ IsSeparator u
    let fractionPart :=
      (amount.dropWhile fun u => ¬ IsSeparator u).tail.takeWhile fun u => ¬ IsSeparator u
    let padded := fractionPart ++ List.replicate ((if scaled then 3 else 0) - fractionPart.length) 48
    let canonical := number wholePart * (if scaled then 1000 else 1) + number padded
    if canonical < basketQuantityMin then none else some canonical

/-- `parseBasketQuantityInput`. -/
def parseBasketQuantityInput (rawAmount : JsString) (inputUnit : QuantityInputUnit) :
    Option Quantity :=
  match parseScaledAmount rawAmount inputUnit.isScaled with
  | none => none
  | some quantity =>
    if quantity ≤ inputUnit.canonicalUnit.maximum then some ⟨quantity, inputUnit.canonicalUnit⟩
    else none

/-- `isValidBasketQuantity`. -/
def IsValidBasketQuantity (quantity : ℕ) : StoredQuantityUnit → Prop
  | .each => basketQuantityMin ≤ quantity ∧ quantity ≤ basketCountQuantityMax
  | .canonical unit => basketQuantityMin ≤ quantity ∧ quantity ≤ unit.maximum

/-! ### Showing a quantity -/

/-- `scaledDraft`. -/
def scaledDraft (quantity : ℕ) : JsString :=
  let digits := ofNat (quantity % 1000)
  let fraction : JsString :=
    (List.replicate (3 - digits.length) 48 ++ digits).rdropWhile fun u => u = 48
  if fraction = [] then ofNat (quantity / 1000) else ofNat (quantity / 1000) ++ 44 :: fraction

/-- `basketQuantityAmountForInputUnit`. -/
def basketQuantityAmountForInputUnit (canonicalQuantity : ℕ) (inputUnit : QuantityInputUnit) :
    JsString :=
  if inputUnit.isScaled then scaledDraft canonicalQuantity else ofNat canonicalQuantity

/-- `physicalDimension`. -/
inductive PhysicalDimension where
  | mass | volume | count
  deriving DecidableEq

/-- `physicalDimension`. -/
def physicalDimension (inputUnit : QuantityInputUnit) : PhysicalDimension :=
  match inputUnit.canonicalUnit with
  | .g => .mass
  | .ml => .volume
  | .piece => .count
  | .package => .count

/-- `basketQuantityAmountAfterUnitChange`. -/
def basketQuantityAmountAfterUnitChange (amount : JsString)
    (currentInputUnit nextInputUnit : QuantityInputUnit) : JsString :=
  match parseBasketQuantityInput amount currentInputUnit with
  | none => amount
  | some current =>
    if physicalDimension currentInputUnit ≠ physicalDimension nextInputUnit then amount
    else if physicalDimension currentInputUnit = .count then amount
    else basketQuantityAmountForInputUnit current.quantity nextInputUnit

/-- `basketQuantityDraft`. -/
def basketQuantityDraft (quantity : ℕ) : StoredQuantityUnit → Draft
  | .each => ⟨ofNat quantity, .canonical .package, true⟩
  | .canonical .g =>
    if 1000 ≤ quantity then ⟨scaledDraft quantity, .kg, false⟩
    else ⟨ofNat quantity, .canonical .g, false⟩
  | .canonical .ml =>
    if 1000 ≤ quantity then ⟨scaledDraft quantity, .l, false⟩
    else ⟨ofNat quantity, .canonical .ml, false⟩
  | .canonical unit => ⟨ofNat quantity, .canonical unit, false⟩

/-! ### What an amount means -/

/-- The decimals of an amount in a unit. -/
def QuantityInputUnit.decimals (inputUnit : QuantityInputUnit) : ℕ := if inputUnit.isScaled then 3 else 0

/-- **What an amount in a unit means**: it has no more decimals than the unit has, and writes
exactly so many times the canonical unit; the quantity is in range. -/
structure Means (rawAmount : JsString) (inputUnit : QuantityInputUnit) (quantity : Quantity) : Prop where
  text : ∃ whole fraction, Writes (trim rawAmount) whole fraction ∧
    fraction.length ≤ inputUnit.decimals ∧
    (quantity.quantity : ℚ) = value whole fraction * 10 ^ inputUnit.decimals
  unit : quantity.quantityUnit = inputUnit.canonicalUnit
  range : basketQuantityMin ≤ quantity.quantity ∧ quantity.quantity ≤ quantity.quantityUnit.maximum

section Reading

variable {rawAmount amount whole fraction : JsString} {inputUnit : QuantityInputUnit}
  {quantity : Quantity}

/-- The amounts of a unit are those that write a number with no more decimals than it has. -/
theorem amount_iff_writes (scaled : Bool) :
    (if scaled then DecimalAmount amount else WholeAmount amount) ↔
      ∃ whole fraction, Writes amount whole fraction ∧
        fraction.length ≤ if scaled then 3 else 0 := by
  cases scaled with
  | false =>
    simp only [Bool.false_eq_true, if_false, Nat.le_zero, List.length_eq_zero_iff]
    constructor
    · exact fun h => ⟨amount, [], ⟨h, isDigits_nil, .inl ⟨rfl, rfl⟩⟩, rfl⟩
    · rintro ⟨whole, fraction, hwrites, rfl⟩
      rcases hwrites.text with ⟨-, rfl⟩ | ⟨hne, -⟩
      · exact hwrites.isWhole
      · exact absurd rfl hne
  | true =>
    simp only [if_true]
    unfold DecimalAmount
    dsimp only
    constructor
    · rintro ⟨hwhole, hrest⟩
      have hsplit := (List.takeWhile_append_dropWhile
        (p := fun u => decide (¬ IsSeparator u)) (l := amount)).symm
      rcases hrest with hnil | ⟨⟨hone, hthree⟩, hdigits⟩
      · rw [hnil, List.append_nil] at hsplit
        exact ⟨_, [], ⟨hwhole, isDigits_nil, .inl ⟨rfl, hsplit⟩⟩, Nat.zero_le _⟩
      · cases hdrop : amount.dropWhile fun u => ¬ IsSeparator u with
        | nil =>
          rw [hdrop] at hone
          cases hone
        | cons separator rest =>
          rw [hdrop] at hsplit hone hthree hdigits
          have hseparator : IsSeparator separator := by
            have hstop := List.head?_dropWhile_not (fun u => decide (¬ IsSeparator u)) amount
            rw [hdrop] at hstop
            simpa using hstop
          exact ⟨_, rest, ⟨hwhole, hdigits, .inr ⟨List.ne_nil_of_length_pos hone, separator,
            hseparator, hsplit⟩⟩, hthree⟩
    · rintro ⟨whole, fraction, hwrites, hlength⟩
      obtain ⟨hhead, htail⟩ := hwrites.parts
      rw [hhead, htail]
      refine ⟨hwrites.isWhole, ?_⟩
      by_cases hnil : fraction = []
      · rcases hwrites.text with ⟨-, htext⟩ | ⟨hne, -⟩
        · refine .inl (List.dropWhile_eq_nil_iff.mpr fun u hu => ?_)
          rw [htext] at hu
          exact decide_eq_true (not_isSeparator hwrites.isWhole.isDigits u hu)
        · exact absurd hnil hne
      · exact .inr ⟨⟨List.length_pos_iff.mpr hnil, hlength⟩, hwrites.isDigits⟩

/-- An amount that writes a number is read as that number, in the unit of the last decimal. -/
theorem parseScaledAmount_of_writes {scaled : Bool} (hwrites : Writes (trim rawAmount) whole fraction)
    (hlength : fraction.length ≤ if scaled then 3 else 0) :
    parseScaledAmount rawAmount scaled =
      if number whole * 10 ^ (if scaled then 3 else 0) +
          number (fraction ++ List.replicate ((if scaled then 3 else 0) - fraction.length) 48) <
            basketQuantityMin then none
      else some (number whole * 10 ^ (if scaled then 3 else 0) +
        number (fraction ++ List.replicate ((if scaled then 3 else 0) - fraction.length) 48)) := by
  have hamount := (amount_iff_writes scaled).mpr ⟨whole, fraction, hwrites, hlength⟩
  have hscale : (if scaled then 1000 else 1) = 10 ^ (if scaled then 3 else 0) := by
    cases scaled <;> rfl
  have hfraction : fraction.takeWhile (fun u => ¬ IsSeparator u) = fraction :=
    List.takeWhile_eq_self_iff.mpr fun u hu => decide_eq_true (not_isSeparator hwrites.isDigits u hu)
  unfold parseScaledAmount
  dsimp only
  rw [if_neg (not_not.mpr hamount), hwrites.parts.1, hwrites.parts.2, hfraction, hscale]

/-- **An amount is read as what it means**, and as nothing else. -/
theorem parseBasketQuantityInput_eq_some_iff :
    parseBasketQuantityInput rawAmount inputUnit = some quantity ↔
      Means rawAmount inputUnit quantity := by
  have hdecimals : inputUnit.decimals = if inputUnit.isScaled then 3 else 0 := rfl
  unfold parseBasketQuantityInput
  constructor
  · intro h
    cases hparse : parseScaledAmount rawAmount inputUnit.isScaled with
    | none =>
      rw [hparse] at h
      cases h
    | some n =>
      rw [hparse] at h
      obtain ⟨hmax, h⟩ := Option.ite_none_right_eq_some.mp h
      cases h
      have hamount : if inputUnit.isScaled then DecimalAmount (trim rawAmount)
          else WholeAmount (trim rawAmount) := by
        unfold parseScaledAmount at hparse
        dsimp only at hparse
        by_contra hnot
        rw [if_pos hnot] at hparse
        cases hparse
      obtain ⟨whole, fraction, hwrites, hlength⟩ := (amount_iff_writes _).mp hamount
      rw [parseScaledAmount_of_writes hwrites hlength] at hparse
      obtain ⟨hmin, hvalue⟩ := Option.ite_none_left_eq_some.mp hparse
      refine ⟨⟨whole, fraction, hwrites, hlength, ?_⟩, rfl, ?_, hmax⟩
      · rw [hdecimals, value_mul_eq hlength, Option.some.inj hvalue]
      · rw [Option.some.inj hvalue] at hmin
        exact Nat.not_lt.mp hmin
  · rintro ⟨⟨whole, fraction, hwrites, hlength, hvalue⟩, hunit, hmin, hmax⟩
    rw [hdecimals] at hlength hvalue
    rw [value_mul_eq hlength, Nat.cast_inj] at hvalue
    rw [parseScaledAmount_of_writes hwrites hlength, ← hvalue, if_neg (Nat.not_lt.mpr hmin)]
    dsimp only
    rw [hunit] at hmax
    rw [if_pos hmax, ← hunit]

/-- **Nothing is rounded**: a text whose value is not a whole number of canonical units is
refused. -/
theorem parseBasketQuantityInput_eq_none (hwrites : Writes (trim rawAmount) whole fraction)
    (hvalue : ∀ n : ℕ, (n : ℚ) ≠ value whole fraction * 10 ^ inputUnit.decimals) :
    parseBasketQuantityInput rawAmount inputUnit = none := by
  cases hparse : parseBasketQuantityInput rawAmount inputUnit with
  | none => rfl
  | some quantity =>
    obtain ⟨⟨whole', fraction', hwrites', -, hmeans⟩, -⟩ :=
      parseBasketQuantityInput_eq_some_iff.mp hparse
    obtain ⟨rfl, rfl⟩ := hwrites.unique hwrites'
    exact absurd hmeans (hvalue _)

end Reading

/-! ### What is shown is read back -/

section Showing

variable {amount : JsString} {inputUnit currentInputUnit nextInputUnit : QuantityInputUnit}
  {quantity : Quantity}

/-- A text that writes a number with a comma is not trimmed. -/
theorem trim_of_writes {whole fraction : JsString} (hwhole : IsDigits whole)
    (hfraction : IsDigits fraction) :
    trim whole = whole ∧ trim (whole ++ 44 :: fraction) = whole ++ 44 :: fraction := by
  refine ⟨trim_eq_self fun u hu => isSpace_of_isDigit (hwhole u hu), trim_eq_self fun u hu => ?_⟩
  rcases List.mem_append.mp hu with hu | hu
  · exact isSpace_of_isDigit (hwhole u hu)
  · rcases List.mem_cons.mp hu with rfl | hu
    · decide
    · exact isSpace_of_isDigit (hfraction u hu)

/-- A text of three digits without its last zeros. -/
theorem eq_append_replicate (s : JsString) :
    s = s.rdropWhile (fun u => u = 48) ++
      List.replicate (s.length - (s.rdropWhile fun u => u = 48).length) 48 := by
  induction s using List.reverseRecOn with
  | nil => rfl
  | append_singleton s u ih =>
    by_cases h : u = 48
    · subst h
      have hle := List.IsPrefix.length_le (List.rdropWhile_prefix (fun u : UInt16 => u = 48) s)
      rw [List.rdropWhile_concat_pos _ _ _ (by decide), List.length_append, List.length_singleton,
        Nat.sub_add_comm hle, List.replicate_succ', ← List.append_assoc, ← ih]
    · rw [List.rdropWhile_concat_neg _ _ _ (by simpa using h), Nat.sub_self, List.replicate_zero,
        List.append_nil]

/-- **The amount of a scaled unit** writes a thousandth of the quantity. -/
theorem writes_scaledDraft (n : ℕ) :
    trim (scaledDraft n) = scaledDraft n ∧ ∃ fraction,
      Writes (scaledDraft n) (ofNat (n / 1000)) fraction ∧ fraction.length ≤ 3 ∧
        (n : ℚ) = value (ofNat (n / 1000)) fraction * 10 ^ 3 := by
  have hmod : n % 1000 < 10 ^ 3 := Nat.mod_lt _ (by decide)
  have hlength := length_ofNat_le (by decide) hmod
  obtain ⟨padded, hpadded⟩ :
      ∃ padded, padded = List.replicate (3 - (ofNat (n % 1000)).length) 48 ++ ofNat (n % 1000) :=
    ⟨_, rfl⟩
  have hthree : padded.length = 3 := by
    rw [hpadded, List.length_append, List.length_replicate]
    omega
  have hdigits : IsDigits padded := by
    rw [hpadded]
    refine IsDigits.append (fun u hu => ?_) (isWhole_ofNat _).isDigits
    obtain rfl := List.eq_of_mem_replicate hu
    decide
  have hnumber : number padded = n % 1000 := by
    rw [hpadded, number_append, number_replicate_zero, Nat.zero_mul, Nat.zero_add, number_ofNat]
  obtain ⟨fraction, hfraction⟩ : ∃ fraction, fraction = padded.rdropWhile fun u => u = 48 := ⟨_, rfl⟩
  have hsplit := eq_append_replicate padded
  rw [← hfraction, hthree] at hsplit
  have hshort : fraction.length ≤ 3 := by
    rw [hfraction, ← hthree]
    exact (List.rdropWhile_prefix _ _).length_le
  have hfractionDigits : IsDigits fraction := fun u hu => hdigits u (by
    rw [hsplit]
    exact List.mem_append_left _ hu)
  have hwhole := isWhole_ofNat (n / 1000)
  have htext : scaledDraft n = if fraction = [] then ofNat (n / 1000)
      else ofNat (n / 1000) ++ 44 :: fraction := by
    rw [hfraction, hpadded]
    rfl
  have htrim := trim_of_writes hwhole.isDigits hfractionDigits
  have hvalue : (n : ℚ) = value (ofNat (n / 1000)) fraction * 10 ^ 3 := by
    rw [value_mul_eq hshort, ← hsplit, hnumber, number_ofNat]
    exact congrArg _ (by omega)
  rw [htext]
  by_cases hnil : fraction = []
  · rw [if_pos hnil]
    exact ⟨htrim.1, fraction, ⟨hwhole, hfractionDigits, .inl ⟨hnil, rfl⟩⟩, hshort, hvalue⟩
  · rw [if_neg hnil]
    exact ⟨htrim.2, fraction,
      ⟨hwhole, hfractionDigits, .inr ⟨hnil, 44, .inr rfl, rfl⟩⟩, hshort, hvalue⟩

/-- The whole text of a quantity writes it. -/
theorem writes_ofNat (n : ℕ) : trim (ofNat n) = ofNat n ∧ Writes (ofNat n) (ofNat n) [] ∧
    (n : ℚ) = value (ofNat n) [] := by
  have hwhole := isWhole_ofNat n
  refine ⟨(trim_of_writes hwhole.isDigits isDigits_nil).1,
    ⟨hwhole, isDigits_nil, .inl ⟨rfl, rfl⟩⟩, ?_⟩
  rw [value, number_ofNat, show number [] = 0 from rfl]
  simp

/-- **An amount that is shown in a unit is read back.** -/
theorem parse_amountForInputUnit {n : ℕ}
    (h : basketQuantityMin ≤ n ∧ n ≤ inputUnit.canonicalUnit.maximum) :
    parseBasketQuantityInput (basketQuantityAmountForInputUnit n inputUnit) inputUnit =
      some ⟨n, inputUnit.canonicalUnit⟩ := by
  refine parseBasketQuantityInput_eq_some_iff.mpr ⟨?_, rfl, h⟩
  unfold basketQuantityAmountForInputUnit QuantityInputUnit.decimals
  cases inputUnit.isScaled with
  | false =>
    obtain ⟨htrim, hwrites, hvalue⟩ := writes_ofNat n
    simp only [Bool.false_eq_true, if_false, htrim]
    exact ⟨_, _, hwrites, le_rfl, by rw [pow_zero, mul_one]; exact hvalue⟩
  | true =>
    obtain ⟨htrim, fraction, hwrites, hlength, hvalue⟩ := writes_scaledDraft n
    simp only [if_true, htrim]
    exact ⟨_, fraction, hwrites, hlength, hvalue⟩

/-- The canonical unit that a stored one is shown in. -/
def StoredQuantityUnit.shown : StoredQuantityUnit → CanonicalQuantityUnit
  | .each => .package
  | .canonical unit => unit

/-- A draft is the amount of its unit, whose canonical one is that which is shown. -/
theorem basketQuantityDraft_eq (n : ℕ) (unit : StoredQuantityUnit) :
    (basketQuantityDraft n unit).amount =
        basketQuantityAmountForInputUnit n (basketQuantityDraft n unit).inputUnit ∧
      (basketQuantityDraft n unit).inputUnit.canonicalUnit = unit.shown := by
  cases unit with
  | each => exact ⟨rfl, rfl⟩
  | canonical unit =>
    cases unit with
    | piece => exact ⟨rfl, rfl⟩
    | package => exact ⟨rfl, rfl⟩
    | g =>
      unfold basketQuantityDraft
      split_ifs <;> exact ⟨rfl, rfl⟩
    | ml =>
      unfold basketQuantityDraft
      split_ifs <;> exact ⟨rfl, rfl⟩

/-- **The draft of a quantity is read back**, a legacy `each` as packages. -/
theorem parse_draft {n : ℕ} {unit : StoredQuantityUnit} (h : IsValidBasketQuantity n unit) :
    parseBasketQuantityInput (basketQuantityDraft n unit).amount
      (basketQuantityDraft n unit).inputUnit = some ⟨n, unit.shown⟩ := by
  obtain ⟨hamount, hunit⟩ := basketQuantityDraft_eq n unit
  have hrange : basketQuantityMin ≤ n ∧ n ≤ unit.shown.maximum := by
    cases unit with
    | each => exact h
    | canonical unit => exact h
  rw [hamount, parse_amountForInputUnit (hunit.symm ▸ hrange), hunit]

/-- **A change of the unit** within a dimension leaves the quantity, and its unit but for a
count. -/
theorem parse_afterUnitChange
    (hparse : parseBasketQuantityInput amount currentInputUnit = some quantity)
    (hdimension : physicalDimension currentInputUnit = physicalDimension nextInputUnit) :
    parseBasketQuantityInput
        (basketQuantityAmountAfterUnitChange amount currentInputUnit nextInputUnit) nextInputUnit =
      some ⟨quantity.quantity, nextInputUnit.canonicalUnit⟩ ∧
    (physicalDimension currentInputUnit ≠ .count →
      nextInputUnit.canonicalUnit = quantity.quantityUnit) := by
  have hmeans := parseBasketQuantityInput_eq_some_iff.mp hparse
  unfold basketQuantityAmountAfterUnitChange
  rw [hparse]
  dsimp only
  rw [if_neg (not_not.mpr hdimension), hmeans.unit]
  have hrange := hmeans.range
  rw [hmeans.unit] at hrange
  by_cases hcount : physicalDimension currentInputUnit = .count
  · -- Both units are whole counts, with the same range.
    rw [if_pos hcount]
    refine ⟨parseBasketQuantityInput_eq_some_iff.mpr ?_, fun h => absurd hcount h⟩
    obtain ⟨⟨whole, fraction, hwrites, hlength, hvalue⟩, -⟩ := hmeans
    have hunits : currentInputUnit.decimals = nextInputUnit.decimals ∧
        currentInputUnit.canonicalUnit.maximum = nextInputUnit.canonicalUnit.maximum := by
      rw [hcount] at hdimension
      revert hcount hdimension
      cases currentInputUnit with
      | canonical unit =>
        cases nextInputUnit with
        | canonical unit' => cases unit <;> cases unit' <;> decide
        | kg => cases unit <;> decide
        | l => cases unit <;> decide
      | kg => exact fun _ h => (by cases h)
      | l => exact fun _ h => (by cases h)
    rw [hunits.1] at hlength hvalue
    rw [hunits.2] at hrange
    exact ⟨⟨whole, fraction, hwrites, hlength, hvalue⟩, rfl, hrange⟩
  · rw [if_neg hcount]
    have hsame : nextInputUnit.canonicalUnit = currentInputUnit.canonicalUnit := by
      unfold physicalDimension at hcount hdimension
      revert hcount hdimension
      cases currentInputUnit.canonicalUnit <;> cases nextInputUnit.canonicalUnit <;> decide
    exact ⟨parse_amountForInputUnit (hsame.symm ▸ hrange), fun _ => hsame⟩

end Showing

/-- **Texts and quantities round-trip.** -/
structure RoundTrip : Prop where
  draft : ∀ (n : ℕ) (unit : StoredQuantityUnit), IsValidBasketQuantity n unit →
    parseBasketQuantityInput (basketQuantityDraft n unit).amount
      (basketQuantityDraft n unit).inputUnit = some ⟨n, unit.shown⟩
  shown : ∀ (n : ℕ) (inputUnit : QuantityInputUnit),
    basketQuantityMin ≤ n → n ≤ inputUnit.canonicalUnit.maximum →
      parseBasketQuantityInput (basketQuantityAmountForInputUnit n inputUnit) inputUnit =
        some ⟨n, inputUnit.canonicalUnit⟩
  accepted : ∀ (rawAmount : JsString) (inputUnit : QuantityInputUnit) (quantity : Quantity),
    parseBasketQuantityInput rawAmount inputUnit = some quantity ↔ Means rawAmount inputUnit quantity
  exact : ∀ (rawAmount whole fraction : JsString) (inputUnit : QuantityInputUnit),
    Writes (trim rawAmount) whole fraction →
      (∀ n : ℕ, (n : ℚ) ≠ value whole fraction * 10 ^ inputUnit.decimals) →
        parseBasketQuantityInput rawAmount inputUnit = none
  changed : ∀ (amount : JsString) (currentInputUnit nextInputUnit : QuantityInputUnit)
    (quantity : Quantity), parseBasketQuantityInput amount currentInputUnit = some quantity →
      physicalDimension currentInputUnit = physicalDimension nextInputUnit →
        parseBasketQuantityInput
            (basketQuantityAmountAfterUnitChange amount currentInputUnit nextInputUnit) nextInputUnit =
          some ⟨quantity.quantity, nextInputUnit.canonicalUnit⟩ ∧
        (physicalDimension currentInputUnit ≠ .count →
          nextInputUnit.canonicalUnit = quantity.quantityUnit)

/-- **Basket quantities round-trip**: what is shown is read back, an amount is read as what it means
and never rounded, and a change of the unit leaves the physical amount.

**Proof sketch.** The parts of an amount before and after its separator write its value, and in the
unit of the last decimal that is a whole number (`value_mul_eq`). The draft of a scaled unit is the
whole part and the three digits of the rest, without the last zeros. -/
theorem basketQuantities_roundTrip : RoundTrip where
  draft _ _ := parse_draft
  shown _ _ hmin hmax := parse_amountForInputUnit ⟨hmin, hmax⟩
  accepted _ _ _ := parseBasketQuantityInput_eq_some_iff
  exact _ _ _ _ := parseBasketQuantityInput_eq_none
  changed _ _ _ _ := parse_afterUnitChange

example : parseBasketQuantityInput (js "1,025") .kg = some ⟨1025, .g⟩ := by
  decide +kernel

end Handleplan.BasketQuantity
