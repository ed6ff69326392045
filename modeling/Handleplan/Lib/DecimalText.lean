import Handleplan.Lib.CivilTime
import Mathlib.Tactic.FieldSimp
import Mathlib.Tactic.IntervalCases
import Mathlib.Tactic.Ring

/-!
# Decimal texts

Texts of decimal digits and the numbers that they write, with a decimal part or without one.

## Main definitions

* `DecimalText.IsDigits`, `DecimalText.IsWhole` — digits, and digits without a leading zero.
* `DecimalText.Writes` — the parts of a text before and after its decimal separator.
* `DecimalText.value` — what such parts write.

## Main results

* `DecimalText.number_ofNat`, `DecimalText.isWhole_ofNat` — a number is written without leading
  zeros, and read back.
* `DecimalText.Writes.unique` — a text has one pair of parts.
* `DecimalText.value_mul_eq` — what a text writes, in the unit of a decimal place.
-/

namespace DecimalText

open JsString
open CivilTime (number)

/-! ### Digits -/

/-- A text of decimal digits. -/
def IsDigits (s : JsString) : Prop := ∀ u ∈ s, 48 ≤ u ∧ u ≤ 57

instance : DecidablePred IsDigits := fun _ => inferInstanceAs (Decidable (∀ _ ∈ _, _ ∧ _))

theorem isDigits_nil : IsDigits [] := fun _ hu => absurd hu List.not_mem_nil

/-- Decimal digits without a leading zero, or a zero. -/
def IsWhole (s : JsString) : Prop := s = [48] ∨ IsDigits s ∧ s ≠ [] ∧ s.head? ≠ some 48

instance : DecidablePred IsWhole := fun _ => inferInstanceAs (Decidable (_ ∨ _ ∧ _ ∧ _))

/-- The digit of a number. -/
def digit (n : ℕ) : UInt16 := (48 + n).toUInt16

variable {n : ℕ} {s whole fraction : JsString}

theorem toNat_digit (h : n < 10) : (digit n).toNat = 48 + n :=
  UInt16.toNat_ofNat_of_lt' (lt_of_lt_of_le (b := 58) (by omega) (by decide))

theorem isDigit_digit (h : n < 10) : 48 ≤ digit n ∧ digit n ≤ 57 := by
  simp only [UInt16.le_iff_toNat_le, toNat_digit h]
  exact ⟨Nat.le_add_right 48 n, by show 48 + n ≤ 57; omega⟩

theorem digit_ne_zero (h : n < 10) (hn : n ≠ 0) : digit n ≠ 48 := by
  intro heq
  have htoNat := congrArg UInt16.toNat heq
  rw [toNat_digit h] at htoNat
  have h48 : (48 : UInt16).toNat = 48 := rfl
  omega

theorem IsWhole.isDigits (h : IsWhole s) : IsDigits s := by
  rcases h with rfl | ⟨h, -⟩
  · intro u hu
    obtain rfl := List.mem_singleton.mp hu
    decide
  · exact h

theorem IsWhole.ne_nil (h : IsWhole s) : s ≠ [] := by
  rcases h with rfl | ⟨-, h, -⟩
  · exact List.cons_ne_nil _ _
  · exact h

theorem IsDigits.append {t : JsString} (hs : IsDigits s) (ht : IsDigits t) : IsDigits (s ++ t) := by
  intro u hu
  rcases List.mem_append.mp hu with hu | hu
  · exact hs u hu
  · exact ht u hu

/-! ### What digits write -/

theorem foldl_number (n : ℕ) (s : JsString) :
    s.foldl (fun n u => 10 * n + (u.toNat - 48)) n = n * 10 ^ s.length + number s := by
  unfold number
  induction s generalizing n with
  | nil => simp
  | cons u s ih =>
    rw [List.foldl_cons, ih, List.foldl_cons, ih (10 * 0 + _), List.length_cons, pow_succ]
    ring

/-- What two texts write one after the other. -/
theorem number_append (s t : JsString) : number (s ++ t) = number s * 10 ^ t.length + number t := by
  rw [number, List.foldl_append, foldl_number, ← number]

theorem number_digit (h : n < 10) : number [digit n] = n := by
  show 10 * 0 + ((digit n).toNat - 48) = n
  rw [toNat_digit h]
  omega

theorem number_replicate_zero (n : ℕ) : number (List.replicate n 48) = 0 := by
  induction n with
  | zero => rfl
  | succ n ih =>
    rw [List.replicate_succ', number_append, ih, Nat.zero_mul]
    rfl

theorem number_lt (h : IsDigits s) : number s < 10 ^ s.length := by
  induction s using List.reverseRecOn with
  | nil => exact Nat.one_pos
  | append_singleton s u ih =>
    have hrest := ih fun v hv => h v (List.mem_append_left _ hv)
    have hdigit : number [u] < 10 := by
      have hu := (h u (List.mem_append_right _ (List.mem_singleton_self u))).2
      rw [UInt16.le_iff_toNat_le] at hu
      have h57 : (57 : UInt16).toNat = 57 := rfl
      show 10 * 0 + (u.toNat - 48) < 10
      omega
    rw [number_append, List.length_append, List.length_singleton, pow_one, pow_succ]
    omega

/-- A digit is not white space. -/
theorem isSpace_of_isDigit {u : UInt16} (h : 48 ≤ u ∧ u ≤ 57) : isSpace u = false := by
  rw [UInt16.le_iff_toNat_le, UInt16.le_iff_toNat_le] at h
  have h48 : (48 : UInt16).toNat = 48 := rfl
  have h57 : (57 : UInt16).toNat = 57 := rfl
  obtain ⟨n, hn, rfl⟩ : ∃ n < 10, u = digit n := by
    refine ⟨u.toNat - 48, by omega, UInt16.toNat_inj.mp ?_⟩
    rw [toNat_digit (by omega)]
    omega
  interval_cases n <;> decide

/-! ### The text of a number -/

theorem ofNat_of_lt (h : n < 10) : ofNat n = [digit n] := by
  rw [ofNat, Nat.toDigits_of_lt_base h, List.map_singleton, Nat.toNat_digitChar_of_lt_ten h]
  rfl

theorem ofNat_append {d : ℕ} (hn : 0 < n) (hd : d < 10) :
    ofNat (10 * n + d) = ofNat n ++ [digit d] := by
  have hdigits := Nat.toDigits_append_toDigits (b := 10) (n := n) (d := d) (by decide) hn hd
  rw [ofNat, ← hdigits, List.map_append, Nat.toDigits_of_lt_base hd, List.map_singleton,
    Nat.toNat_digitChar_of_lt_ten hd]
  rfl

/-- The text of a number, by its last digit. -/
theorem ofNat_induction {motive : ℕ → Prop} (hlt : ∀ n, n < 10 → motive n)
    (happend : ∀ n d, 0 < n → d < 10 → motive n → motive (10 * n + d)) (n : ℕ) : motive n := by
  induction n using Nat.strongRecOn with
  | ind n ih =>
    by_cases h : n < 10
    · exact hlt n h
    · have hsplit : 10 * (n / 10) + n % 10 = n := Nat.div_add_mod n 10
      rw [← hsplit]
      exact happend _ _ (by omega) (Nat.mod_lt _ (by decide)) (ih _ (by omega))

/-- **A number is read back from its text.** -/
@[simp] theorem number_ofNat (n : ℕ) : number (ofNat n) = n := by
  induction n using ofNat_induction with
  | hlt n h => rw [ofNat_of_lt h, number_digit h]
  | happend n d hn hd ih =>
    rw [ofNat_append hn hd, number_append, ih, number_digit hd, List.length_singleton, pow_one,
      Nat.mul_comm]

/-- **A number is written without leading zeros.** -/
theorem isWhole_ofNat (n : ℕ) : IsWhole (ofNat n) := by
  have hpositive : ∀ n, 0 < n → IsDigits (ofNat n) ∧ ofNat n ≠ [] ∧ (ofNat n).head? ≠ some 48 := by
    intro n
    induction n using ofNat_induction with
    | hlt n h =>
      intro hn
      rw [ofNat_of_lt h]
      refine ⟨fun u hu => List.mem_singleton.mp hu ▸ isDigit_digit h, List.cons_ne_nil _ _, ?_⟩
      exact fun heq => digit_ne_zero h (by omega) (Option.some.inj heq)
    | happend n d hn hd ih =>
      intro _
      obtain ⟨hdigits, hne, hhead⟩ := ih hn
      rw [ofNat_append hn hd]
      refine ⟨hdigits.append fun u hu => List.mem_singleton.mp hu ▸ isDigit_digit hd, by simp, ?_⟩
      rwa [List.head?_append_of_ne_nil _ hne]
  rcases Nat.eq_zero_or_pos n with rfl | hn
  · exact .inl (ofNat_of_lt (by decide))
  · exact .inr (hpositive n hn)

/-- A number has no more digits than its bound. -/
theorem length_ofNat_le {k : ℕ} (hk : 0 < k) (h : n < 10 ^ k) : (ofNat n).length ≤ k := by
  induction n using ofNat_induction generalizing k with
  | hlt n hn =>
    rw [ofNat_of_lt hn]
    exact hk
  | happend n d hn hd ih =>
    cases k with
    | zero => cases hk
    | succ k =>
      rw [pow_succ] at h
      have hpow : n < 10 ^ k := by omega
      have hk' : 0 < k := Nat.pos_of_ne_zero fun hzero => by
        rw [hzero, pow_zero] at hpow
        omega
      rw [ofNat_append hn hd, List.length_append, List.length_singleton]
      exact Nat.succ_le_succ (ih hk' hpow)

/-! ### Decimal parts -/

/-- A decimal separator: a point or a comma. -/
def IsSeparator (u : UInt16) : Prop := u = 46 ∨ u = 44

instance : DecidablePred IsSeparator := fun _ => inferInstanceAs (Decidable (_ ∨ _))

/-- The whole part of a text, and the digits after its separator, if it has one. -/
structure Writes (s whole fraction : JsString) : Prop where
  isWhole : IsWhole whole
  isDigits : IsDigits fraction
  text : fraction = [] ∧ s = whole ∨
    fraction ≠ [] ∧ ∃ separator, IsSeparator separator ∧ s = whole ++ separator :: fraction

/-- What the parts of a text write. -/
def value (whole fraction : JsString) : ℚ := number whole + number fraction / 10 ^ fraction.length

theorem not_isSeparator (h : IsDigits s) : ∀ u ∈ s, ¬ IsSeparator u := by
  intro u hu hseparator
  have hdigit := (h u hu).1
  rcases hseparator with rfl | rfl
  · exact absurd hdigit (by decide)
  · exact absurd hdigit (by decide)

/-- The parts of a text are what is before and after its first separator. -/
theorem Writes.parts (h : Writes s whole fraction) :
    s.takeWhile (fun u => ¬ IsSeparator u) = whole ∧
      (s.dropWhile fun u => ¬ IsSeparator u).tail = fraction := by
  have hwhole : ∀ u ∈ whole, decide (¬ IsSeparator u) = true :=
    fun u hu => decide_eq_true (not_isSeparator h.isWhole.isDigits u hu)
  rcases h.text with ⟨rfl, rfl⟩ | ⟨-, separator, hseparator, rfl⟩
  · rw [List.takeWhile_eq_self_iff.mpr hwhole, List.dropWhile_eq_nil_iff.mpr hwhole]
    exact ⟨rfl, rfl⟩
  · have hstop : decide (¬ IsSeparator separator) = false := decide_eq_false (not_not.mpr hseparator)
    rw [List.takeWhile_append_of_pos hwhole, List.dropWhile_append_of_pos hwhole,
      List.takeWhile_cons_of_neg (by rw [hstop]; decide),
      List.dropWhile_cons_of_neg (by rw [hstop]; decide)]
    exact ⟨List.append_nil _, rfl⟩

/-- A text has one pair of parts. -/
theorem Writes.unique {whole' fraction' : JsString} (h : Writes s whole fraction)
    (h' : Writes s whole' fraction') : whole = whole' ∧ fraction = fraction' :=
  ⟨h.parts.1.symm.trans h'.parts.1, h.parts.2.symm.trans h'.parts.2⟩

/-- **What a text writes**, in the unit of a decimal place that it does not exceed. -/
theorem value_mul_eq {places : ℕ} (h : fraction.length ≤ places) :
    value whole fraction * 10 ^ places =
      ((number whole * 10 ^ places + number (fraction ++ List.replicate (places - fraction.length) 48) :
        ℕ) : ℚ) := by
  obtain ⟨rest, rfl⟩ := Nat.exists_eq_add_of_le h
  have hpow : (10 : ℚ) ^ fraction.length ≠ 0 := pow_ne_zero _ (by norm_num)
  rw [number_append, List.length_replicate, number_replicate_zero, Nat.add_sub_cancel_left, value,
    pow_add]
  push_cast
  field_simp
  ring

end DecimalText
