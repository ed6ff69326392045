import Mathlib.Algebra.Order.Floor.Ring
import Mathlib.Data.Int.Log
import Mathlib.Data.Rat.Floor
import Mathlib.Tactic.Linarith
import Mathlib.Tactic.NormNum
import Mathlib.Tactic.Positivity

/-!
# Double precision

The numbers of double precision are the multiples of a unit in the last place. A number that is not
negative is rounded to the nearest of them, and to the one with the even multiple if two are
nearest.

## Main definitions

* `Double.roundHalfEven` — the nearest integer, and of two the even one.
* `Double.round` — the nearest number of double precision, with an unbounded exponent.
* `Double.ofRat` — the number of double precision, if it is finite.
* `Double.ofSigned` — the same of numbers that may be negative.

## Main results

* `Double.abs_roundHalfEven_sub_le` — an integer is nearest if it is no more than a half away.
* `Double.round_le_of_lt`, `Double.le_round_of_le` — which numbers are rounded to safe integers.
-/

namespace Double

/-- The nearest integer, and of two the even one. -/
def roundHalfEven (x : ℚ) : ℤ :=
  if x - ⌊x⌋ < 1 / 2 then ⌊x⌋
  else if 1 / 2 < x - ⌊x⌋ then ⌊x⌋ + 1
  else if Even ⌊x⌋ then ⌊x⌋ else ⌊x⌋ + 1

/-- The nearest integer is no more than a half away. -/
theorem abs_roundHalfEven_sub_le (x : ℚ) :
    x - 1 / 2 ≤ roundHalfEven x ∧ (roundHalfEven x : ℚ) ≤ x + 1 / 2 := by
  have hfloor := Int.floor_le x
  have hlt := Int.lt_floor_add_one x
  unfold roundHalfEven
  split_ifs with hbelow habove heven
  · constructor <;> linarith
  · push_cast
    constructor <;> linarith
  · constructor <;> linarith
  · push_cast
    constructor <;> linarith

variable {n : ℤ} {q : ℚ}

/-- An integer that is not below a number is not below its nearest integer. -/
theorem roundHalfEven_le {x : ℚ} (h : x ≤ n) : roundHalfEven x ≤ n := by
  by_contra hlt
  have hnext : (n : ℚ) + 1 ≤ roundHalfEven x := by exact_mod_cast not_le.mp hlt
  linarith [(abs_roundHalfEven_sub_le x).2]

theorem le_roundHalfEven {x : ℚ} (h : (n : ℚ) ≤ x) : n ≤ roundHalfEven x := by
  by_contra hlt
  have hnext : (roundHalfEven x : ℚ) + 1 ≤ n := by exact_mod_cast not_le.mp hlt
  linarith [(abs_roundHalfEven_sub_le x).1]

/-- What is more than a half below an integer is rounded below it. -/
theorem roundHalfEven_lt {x : ℚ} (h : x < n - 1 / 2) : roundHalfEven x < n := by
  have hlt : (roundHalfEven x : ℚ) < n := by linarith [(abs_roundHalfEven_sub_le x).2]
  exact_mod_cast hlt

/-- What is no more than a half below an even integer is not rounded below it. -/
theorem le_roundHalfEven_of_even {x : ℚ} (heven : Even n) (h : (n : ℚ) - 1 / 2 ≤ x) :
    n ≤ roundHalfEven x := by
  by_cases hle : (n : ℚ) ≤ x
  · exact le_roundHalfEven hle
  have hfloor : ⌊x⌋ = n - 1 := by
    rw [Int.floor_eq_iff]
    push_cast
    constructor <;> linarith [not_le.mp hle]
  have hodd : ¬ Even (n - 1) := by
    rw [Int.even_sub_one, not_not]
    exact heven
  unfold roundHalfEven
  rw [hfloor]
  push_cast
  have hhalf : ¬ x - ((n : ℚ) - 1) < 1 / 2 := by linarith
  rw [if_neg hhalf, if_neg hodd]
  split_ifs
  · omega
  · omega

/-! ### Numbers -/

/-- The exponent of the unit in the last place. -/
def lastPlace (q : ℚ) : ℤ := max (Int.log 2 q - 52) (-1074)

/-- The nearest number of double precision, with an unbounded exponent. -/
def round (q : ℚ) : ℚ := roundHalfEven (q / 2 ^ lastPlace q) * 2 ^ lastPlace q

/-- The nearest number of double precision; there is none where it is infinite. -/
def ofRat (q : ℚ) : Option ℚ := if round q < 2 ^ (1024 : ℕ) then some (round q) else none

/-- The number of double precision of one that may be negative; there is none where it is
infinite. -/
def ofSigned (q : ℚ) : Option ℚ := if q < 0 then (ofRat (-q)).map fun x => -x else ofRat q

theorem zpow_pos_two (e : ℤ) : (0 : ℚ) < 2 ^ e := zpow_pos (by norm_num) e

/-- A number below a power of two has its leading place below it. -/
theorem log_lt (hq : 0 < q) {e : ℤ} (h : q < 2 ^ e) : Int.log 2 q < e :=
  (Int.lt_zpow_iff_log_lt Nat.one_lt_two hq).mp (by exact_mod_cast h)

theorem le_log (hq : 0 < q) {e : ℤ} (h : 2 ^ e ≤ q) : e ≤ Int.log 2 q :=
  (Int.zpow_le_iff_le_log Nat.one_lt_two hq).mp (by exact_mod_cast h)

/-- Between two powers of two the unit in the last place is one. -/
theorem lastPlace_eq_zero (hlow : 2 ^ (52 : ℤ) ≤ q) (hhigh : q < 2 ^ (53 : ℤ)) :
    lastPlace q = 0 := by
  have hq : 0 < q := lt_of_lt_of_le (zpow_pos_two 52) hlow
  have hlog : Int.log 2 q = 52 := by
    have h1 := le_log hq hlow
    have h2 := log_lt hq hhigh
    omega
  rw [lastPlace, hlog]
  rfl

/-- **Numbers below a bound** by more than a half are rounded below it, where the bound is the first
integer that is not safe. -/
theorem round_le_of_lt (hq : 0 < q) (h : q < 2 ^ (53 : ℕ) - 1 / 2) :
    round q ≤ 2 ^ (53 : ℕ) - 1 := by
  by_cases hlow : (2 : ℚ) ^ (52 : ℤ) ≤ q
  · have hplace := lastPlace_eq_zero hlow (by norm_num at h ⊢; linarith)
    have hround : roundHalfEven q < 2 ^ 53 := roundHalfEven_lt (by push_cast; exact h)
    rw [round, hplace, zpow_zero, div_one, mul_one]
    have hle : roundHalfEven q ≤ 2 ^ 53 - 1 := by omega
    exact_mod_cast hle
  · have hlog := log_lt hq (not_le.mp hlow)
    have hplace : lastPlace q ≤ 0 := max_le (by omega) (by norm_num)
    obtain ⟨k, hk⟩ := Int.exists_eq_neg_ofNat hplace
    have hpos : (0 : ℚ) < 2 ^ k := by positivity
    have hzpow : (2 : ℚ) ^ lastPlace q = 1 / 2 ^ k := by
      rw [hk, zpow_neg, zpow_natCast, one_div]
    have hle : roundHalfEven (q * 2 ^ k) ≤ 2 ^ 52 * 2 ^ k := by
      refine roundHalfEven_le ?_
      push_cast
      refine mul_le_mul_of_nonneg_right ?_ hpos.le
      have hlt := not_le.mp hlow
      norm_num at hlt ⊢
      linarith
    have hcast : (roundHalfEven (q * 2 ^ k) : ℚ) ≤ 2 ^ 52 * 2 ^ k := by exact_mod_cast hle
    rw [round, hzpow, div_div_eq_mul_div, div_one, mul_one_div, div_le_iff₀ hpos]
    refine hcast.trans (mul_le_mul_of_nonneg_right (by norm_num) hpos.le)

/-- **The other numbers** are not rounded below the bound. -/
theorem le_round_of_le (h : 2 ^ (53 : ℕ) - 1 / 2 ≤ q) : 2 ^ (53 : ℕ) ≤ round q := by
  have hq : 0 < q := by
    norm_num at h
    linarith
  by_cases hhigh : q < 2 ^ (53 : ℤ)
  · have hplace := lastPlace_eq_zero (by norm_num at h ⊢; linarith) hhigh
    have hround : 2 ^ 53 ≤ roundHalfEven q :=
      le_roundHalfEven_of_even ⟨2 ^ 52, by norm_num⟩ (by push_cast; exact h)
    rw [round, hplace, zpow_zero, div_one, mul_one]
    exact_mod_cast hround
  · have hlog := le_log hq (not_lt.mp hhigh)
    have hplace : lastPlace q = Int.log 2 q - 52 := max_eq_left (by omega)
    have hself := Int.zpow_log_le_self Nat.one_lt_two hq
    have hdigits : 2 ^ 52 ≤ roundHalfEven (q / 2 ^ lastPlace q) := by
      refine le_roundHalfEven ?_
      push_cast
      rw [le_div_iff₀ (zpow_pos_two _), hplace, zpow_sub₀ (by norm_num)]
      norm_num at hself ⊢
      linarith
    have hunit : (2 : ℚ) ^ (1 : ℤ) ≤ 2 ^ lastPlace q :=
      zpow_le_zpow_right₀ (by norm_num) (by omega)
    have hcast : (2 : ℚ) ^ 52 ≤ roundHalfEven (q / 2 ^ lastPlace q) := by exact_mod_cast hdigits
    calc (2 : ℚ) ^ (53 : ℕ) = 2 ^ 52 * 2 ^ (1 : ℤ) := by norm_num
      _ ≤ roundHalfEven (q / 2 ^ lastPlace q) * 2 ^ lastPlace q :=
        mul_le_mul hcast hunit (by norm_num) (le_trans (by norm_num) hcast)

end Double
