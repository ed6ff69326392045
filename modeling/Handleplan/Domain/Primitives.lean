import Mathlib.Data.Rat.Defs
import Mathlib.Tactic.MkIffOfInductiveProp
import Handleplan.Lib.JsString

/-!
# Contract primitives

The scalar schemas every contract of the domain package is built from: identifiers, money, package
measures, GTINs, timestamps and the closed list of chains.

## Main definitions

* `IdentifierSchema`, `NonEmptyStringSchema`, `MoneyOreSchema`, `PositiveSafeInteger` —
  the scalar schemas.
* `Chain` — the chains, in the order of `CHAIN_ORDER`.
* `isValidGtin` — shape and check digit of a GTIN.
* `Host` — the functions of the JavaScript runtime that depend on its Unicode data.

## Design

A schema is the proposition that a value parses *to itself*. Every consumer modelled here either
compares a value with its own parse (`sameJsonValue(input, parsed.data)`) or is handed the result
of an earlier parse, so the trimming done by `identifierSchema` only ever shows up as the condition
that a text is already trimmed.

Non-negative integers are `ℕ`; every schema rejects the other JavaScript numbers. A canonical
timestamp (`YYYY-MM-DDThh:mm:ss.sssZ`) is its number of milliseconds since the epoch: on the years
`0000` to `9999` the text order is the order of the instants.
-/

namespace Handleplan

open JsString

/-- The locale and Unicode functions of the JavaScript runtime. -/
structure Host where
  /-- `value.toLocaleLowerCase("nb-NO")`. -/
  toLocaleLowerCase : JsString → JsString
  /-- `left.localeCompare(right)`, as the sign of its result. -/
  localeCompare : JsString → JsString → Ordering
  /-- `value.normalize("NFC")`. -/
  normalizeNFC : JsString → JsString
  /-- `/[\p{Cc}\p{Cf}]/u.test(value)`. -/
  hasControlOrFormat : JsString → Bool
  /-- `value.toString()` of a positive number. -/
  numberToString : ℚ → JsString

/-- A runtime that behaves as the real one does on texts of ASCII letters and digits, where digits
sort before letters, letters by alphabet first and lower case before upper case last, and on whole
numbers. -/
def Host.ascii : Host where
  toLocaleLowerCase s := s.map fun u => if 65 ≤ u ∧ u ≤ 90 then u + 32 else u
  localeCompare left right :=
    let fold (s : JsString) := s.map fun u : UInt16 => if 65 ≤ u ∧ u ≤ 90 then u + 32 else u
    (compareText (fold left) (fold right)).then (compareText right left)
  normalizeNFC s := s
  hasControlOrFormat s := s.any fun u => u < 32 || (127 ≤ u && u < 160)
  numberToString value := ofNat value.num.toNat

/-! ### Guards -/

theorem ite_error_eq_ok_iff {ε α : Type*} {p : Prop} [Decidable p] {e : ε} {x : Except ε α}
    {a : α} :
    (if p then .error e else x) = .ok a ↔ ¬ p ∧ x = .ok a := by
  by_cases h : p <;> simp [h]

theorem ite_ok_eq_ok_iff {ε α : Type*} {p : Prop} [Decidable p] {e : ε} {a b : α} :
    (if p then .ok a else .error e : Except ε α) = .ok b ↔ p ∧ a = b := by
  by_cases h : p <;> simp [h]

/-- Both parts of a computation succeed. -/
theorem bind_eq_ok_iff {ε α β : Type} {x : Except ε α} {f : α → Except ε β} {b : β} :
    (x >>= f) = .ok b ↔ ∃ a, x = .ok a ∧ f a = .ok b := by
  cases x with
  | error e => simp [bind, Except.bind]
  | ok a => simp [bind, Except.bind]

/-- A guard in front of the rest of a sequence. -/
theorem ite_error_bind_eq_ok_iff {ε α β : Type} {p : Prop} [Decidable p] {e : ε}
    {f : α → Except ε β} {x : Except ε β} {b : β} :
    (if p then (Except.error e >>= f) else x) = .ok b ↔ ¬ p ∧ x = .ok b := ite_error_eq_ok_iff

/-! ### Numbers -/

/-- `Number.MAX_SAFE_INTEGER`. -/
def maxSafeInteger : ℕ := 9007199254740991

/-- `MAX_PERSISTED_MONEY_ORE`. -/
def maxPersistedMoneyOre : ℕ := 2147483647

/-- `positiveSafeIntegerSchema`. -/
def PositiveSafeInteger (n : ℕ) : Prop := 0 < n ∧ n ≤ maxSafeInteger

/-- `nonNegativeSafeIntegerSchema`. -/
def NonNegativeSafeInteger (n : ℕ) : Prop := n ≤ maxSafeInteger

/-- `moneyOreSchema`. -/
def MoneyOreSchema (n : ℕ) : Prop := n ≤ maxPersistedMoneyOre

instance : DecidablePred PositiveSafeInteger := fun _ => inferInstanceAs (Decidable (_ ∧ _))

instance : DecidablePred NonNegativeSafeInteger := fun n => inferInstanceAs (Decidable (n ≤ _))

instance : DecidablePred MoneyOreSchema := fun n => inferInstanceAs (Decidable (n ≤ _))

/-! ### Texts -/

/-- `identifierSchema` (and `sourceIdSchema`): trimmed text of 1 to 200 code units. -/
def IdentifierSchema (s : JsString) : Prop := trim s = s ∧ 1 ≤ s.length ∧ s.length ≤ 200

/-- `nonEmptyStringSchema`: trimmed text of 1 to 500 code units. -/
def NonEmptyStringSchema (s : JsString) : Prop := trim s = s ∧ 1 ≤ s.length ∧ s.length ≤ 500

instance : DecidablePred IdentifierSchema := fun _ => inferInstanceAs (Decidable (_ ∧ _ ∧ _))

instance : DecidablePred NonEmptyStringSchema := fun _ => inferInstanceAs (Decidable (_ ∧ _ ∧ _))

theorem IdentifierSchema.ne_nil {s : JsString} (h : IdentifierSchema s) : s ≠ [] := by
  rintro rfl
  simp [IdentifierSchema] at h

theorem NonEmptyStringSchema.ne_nil {s : JsString} (h : NonEmptyStringSchema s) : s ≠ [] := by
  rintro rfl
  simp [NonEmptyStringSchema] at h

/-! ### Timestamps -/

/-- `canonicalTimestampSchema`, on milliseconds since the epoch: `0000-01-01T00:00:00.000Z` to
`9999-12-31T23:59:59.999Z`. -/
def CanonicalTimestamp (t : ℤ) : Prop := -62167219200000 ≤ t ∧ t ≤ 253402300799999

instance : DecidablePred CanonicalTimestamp := fun _ => inferInstanceAs (Decidable (_ ∧ _))

/-! ### GTINs -/

/-- A decimal digit. -/
def isDigit (u : UInt16) : Bool := 48 ≤ u && u ≤ 57

/-- `gtinShape`, the pattern `/^(?:\d{8}|\d{13})$/`. -/
def gtinShape (s : JsString) : Bool := (s.length == 8 || s.length == 13) && s.all isDigit

/-- The weighted sum of the digits before the check digit, `length` digits in all, from `index`. -/
def weightedSum (length : ℕ) : ℕ → List ℕ → ℕ
  | _, [] => 0
  | index, digit :: digits =>
    digit * (if (length - index) % 2 = 1 then 3 else 1) + weightedSum length (index + 1) digits

/-- `isValidGtin`: shape and check digit. -/
def isValidGtin (input : JsString) : Bool :=
  gtinShape input &&
    let digits := input.map fun u => u.toNat - 48
    match digits.getLast? with
    | none => false
    | some checkDigit =>
      let body := digits.dropLast
      (10 - weightedSum body.length 0 body % 10) % 10 == checkDigit

/-- A valid GTIN has the shape of one. -/
theorem gtinShape_of_isValidGtin {s : JsString} (h : isValidGtin s = true) :
    gtinShape s = true := by
  unfold isValidGtin at h
  exact (Bool.and_eq_true_iff.mp h).1

/-! ### Measures -/

/-- `normalizedMeasureUnitSchema`. -/
inductive MeasureUnit where
  | g | ml | piece | package
  deriving DecidableEq

/-- `PackageMeasure`. -/
structure PackageMeasure where
  amount : ℕ
  unit : MeasureUnit
  deriving DecidableEq

/-- `packageMeasureSchema`. -/
def PackageMeasureSchema (m : PackageMeasure) : Prop := PositiveSafeInteger m.amount

instance : DecidablePred PackageMeasureSchema :=
  fun m => inferInstanceAs (Decidable (PositiveSafeInteger m.amount))

/-- The text of a unit. -/
def MeasureUnit.text : MeasureUnit → JsString
  | .g => js "g"
  | .ml => js "ml"
  | .piece => js "piece"
  | .package => js "package"

/-! ### Chains -/

/-- The chains, in the order of `CHAIN_ORDER`. -/
inductive Chain where
  | bunnpris | extra | rema1000 | fudi | holdbart | meny | havaristen | joker | spar | fastcandy
  | europris | engrossnett | oda
  deriving DecidableEq

/-- `CHAIN_ORDER`, the list. -/
def chainOrder : List Chain :=
  [.bunnpris, .extra, .rema1000, .fudi, .holdbart, .meny, .havaristen, .joker, .spar, .fastcandy,
    .europris, .engrossnett, .oda]

/-- `chainRank`, the position of a chain in `CHAIN_ORDER`. -/
def chainRank : Chain → ℕ
  | .bunnpris => 0
  | .extra => 1
  | .rema1000 => 2
  | .fudi => 3
  | .holdbart => 4
  | .meny => 5
  | .havaristen => 6
  | .joker => 7
  | .spar => 8
  | .fastcandy => 9
  | .europris => 10
  | .engrossnett => 11
  | .oda => 12

/-- The identifier of a chain. -/
def Chain.text : Chain → JsString
  | .bunnpris => js "bunnpris"
  | .extra => js "extra"
  | .rema1000 => js "rema-1000"
  | .fudi => js "fudi"
  | .holdbart => js "holdbart"
  | .meny => js "meny"
  | .havaristen => js "havaristen"
  | .joker => js "joker"
  | .spar => js "spar"
  | .fastcandy => js "fastcandy"
  | .europris => js "europris"
  | .engrossnett => js "engrossnett"
  | .oda => js "oda"

/-- `compareChains`: by rank. -/
def compareChains (left right : Chain) : Ordering := compare (chainRank left) (chainRank right)

/-- The chains have ranks of their own. -/
theorem chainRank_injective : Function.Injective chainRank := by
  intro a b h
  cases a <;> cases b <;> simp_all [chainRank]

/-- All chains are in the order. -/
theorem mem_chainOrder (c : Chain) : c ∈ chainOrder := by
  cases c <;> decide

theorem nodup_chainOrder : chainOrder.Nodup := by decide

/-- The chains have names of their own. -/
theorem Chain.text_injective : Function.Injective Chain.text := by
  intro a b h
  cases a <;> cases b <;> first | rfl | exact absurd h (by decide)

instance : Std.TransCmp compareChains :=
  inferInstanceAs (Std.TransCmp (compareOn chainRank))

/-- Only equal chains compare equal. -/
theorem compareChains_eq_iff {a b : Chain} : compareChains a b = .eq ↔ a = b := by
  unfold compareChains
  rw [Std.LawfulEqCmp.compare_eq_iff_eq]
  exact chainRank_injective.eq_iff

instance : Std.LawfulEqCmp compareChains where
  eq_of_compare h := compareChains_eq_iff.mp h

end Handleplan
