import Handleplan.Lib.DecimalText
import Mathlib.Data.Nat.MaxPowDiv

/-!
# Finite numbers and their texts

Numbers of JavaScript as the shortest decimals by which they are told apart, how these are written,
and that what is written is read back.

## Main definitions

* `JsNumber` — a finite number: a sign, digits without zeros at their end, and a power of ten.
* `JsNumber.text` — how it is written.
* `JsNumber.read` — what a number of a JSON text is read as.

## Main results

* `JsNumber.read_text` — a number is read back from its text.
* `JsNumber.text_spec` — of which characters its text consists.

## Implementation notes

Two numbers of 64 bits are the same exactly when their shortest decimals are. What is read is not
rounded to 64 bits: for decimals that are the shortest of a number there is nothing to round.
-/

open JsString CivilTime DecimalText

/-- A finite number, as its shortest decimal. There is one zero. -/
structure JsNumber where
  negative : Bool
  significand : ℕ
  exponent : ℤ
  canonical : significand % 10 ≠ 0 ∨ significand = 0 ∧ exponent = 0 ∧ negative = false
  deriving DecidableEq

namespace JsNumber

/-- Zero. -/
def zero : JsNumber := ⟨false, 0, 0, .inr ⟨rfl, rfl, rfl⟩⟩

/-! ### Writing -/

/-- Digits in exponential notation, before the exponent. -/
def pointAfterFirst : JsString → JsString
  | [] => []
  | [digit] => [digit]
  | digit :: rest => digit :: 46 :: rest

/-- `Number::toString` of a positive number, whose decimal is given. -/
def unsignedText (significand : ℕ) (exponent : ℤ) : JsString :=
  let digits := ofNat significand
  let n := exponent + digits.length
  if -5 ≤ n ∧ n ≤ 21 then
    if digits.length ≤ n then digits ++ List.replicate (n - digits.length).toNat 48
    else if 0 < n then digits.take n.toNat ++ 46 :: digits.drop n.toNat
    else 48 :: 46 :: (List.replicate (-n).toNat 48 ++ digits)
  else
    pointAfterFirst digits ++ 101 :: (if n < 0 then 45 else 43) :: ofNat (n - 1).natAbs

/-- `JSON.stringify` of a finite number. -/
def text (x : JsNumber) : JsString :=
  if x.significand = 0 then [48]
  else if x.negative then 45 :: unsignedText x.significand x.exponent
  else unsignedText x.significand x.exponent

/-! ### Reading -/

/-- A text before and after the first character of a kind, if there is one. -/
def cut (p : UInt16 → Bool) : JsString → JsString × Option JsString
  | [] => ([], none)
  | u :: s => if p u then ([], some s) else (u :: (cut p s).1, (cut p s).2)

/-- The decimal of an integer times a power of ten. -/
def ofInteger (negative : Bool) (m : ℕ) (e : ℤ) : JsNumber :=
  if h : m = 0 then zero
  else ⟨negative, m.divMaxPow 10, e + padicValNat 10 m,
    .inl fun hmod => Nat.not_dvd_divMaxPow (by decide) h (Nat.dvd_of_mod_eq_zero hmod)⟩

/-- A sign before digits. -/
def signed : JsString → Bool × JsString
  | 45 :: s => (true, s)
  | 43 :: s => (false, s)
  | s => (false, s)

/-- An exponent, if there is one. -/
def readExponent : Option JsString → Option ℤ
  | none => some 0
  | some s =>
    let (negative, digits) := signed s
    if digits ≠ [] ∧ IsDigits digits then
      some (if negative then -(number digits : ℤ) else number digits)
    else none

/-- Digits with or without a point: the integer without the point, and the number of digits after
it. -/
def readMantissa (s : JsString) : Option (ℕ × ℕ) :=
  let (whole, fraction) := cut (fun u => u = 46) s
  if IsWhole whole ∧ ∀ digits ∈ fraction, digits ≠ [] ∧ IsDigits digits then
    some (number (whole ++ fraction.getD []), (fraction.getD []).length)
  else none

/-- A number of a JSON text without its sign. -/
def readUnsigned (negative : Bool) (s : JsString) : Option JsNumber :=
  let (mantissa, exponent) := cut (fun u => u = 101 ∨ u = 69) s
  (readMantissa mantissa).bind fun parts =>
    (readExponent exponent).map fun e => ofInteger negative parts.1 (e - parts.2)

/-- A number of a JSON text. -/
def read : JsString → Option JsNumber
  | 45 :: s => readUnsigned true s
  | s => readUnsigned false s

/-! ### What is written is read back -/

section Cut

variable {p : UInt16 → Bool} {a b : JsString} {u : UInt16}

theorem cut_of_forall (h : ∀ v ∈ a, p v = false) : cut p a = (a, none) := by
  induction a with
  | nil => rfl
  | cons v a ih =>
    rw [cut, h v List.mem_cons_self, ih fun w hw => h w (List.mem_cons_of_mem _ hw)]
    rfl

theorem cut_append_cons (h : ∀ v ∈ a, p v = false) (hu : p u = true) :
    cut p (a ++ u :: b) = (a, some b) := by
  induction a with
  | nil => rw [List.nil_append, cut, if_pos hu]
  | cons v a ih =>
    rw [List.cons_append, cut, h v List.mem_cons_self,
      ih fun w hw => h w (List.mem_cons_of_mem _ hw)]
    rfl

/-- Digits are neither an exponent sign nor a point. -/
theorem not_exponent_of_isDigits (h : IsDigits a) :
    ∀ v ∈ a, decide (v = 101 ∨ v = 69) = false := by
  intro v hv
  refine decide_eq_false ?_
  rintro (rfl | rfl)
  · exact absurd (h _ hv).2 (by decide)
  · exact absurd (h _ hv).2 (by decide)

theorem not_point_of_isDigits (h : IsDigits a) : ∀ v ∈ a, decide (v = 46) = false := by
  intro v hv
  refine decide_eq_false ?_
  rintro rfl
  exact absurd (h _ hv).1 (by decide)

end Cut

theorem isDigits_replicate_zero (n : ℕ) : IsDigits (List.replicate n 48) := by
  intro u hu
  rw [List.eq_of_mem_replicate hu]
  decide

section Reading

variable {significand : ℕ} {exponent : ℤ} {negative : Bool}

/-- The decimal of an integer with zeros at its end. -/
theorem ofInteger_eq (negative : Bool) (hne : significand % 10 ≠ 0) (zeros : ℕ) (e : ℤ) :
    ofInteger negative (significand * 10 ^ zeros) e =
      ⟨negative, significand, e + zeros, .inl hne⟩ := by
  have hpos : significand * 10 ^ zeros ≠ 0 :=
    Nat.mul_ne_zero (fun h => hne (by rw [h])) (pow_ne_zero _ (by decide))
  have hpow := Nat.maxPowDvdDiv_of_pow_mul_eq hpos (Nat.mul_comm _ _)
    fun hdvd => hne (Nat.mod_eq_zero_of_dvd hdvd)
  have hval : padicValNat 10 (significand * 10 ^ zeros) = zeros := congrArg Prod.fst hpow
  have hdiv : (significand * 10 ^ zeros).divMaxPow 10 = significand := congrArg Prod.snd hpow
  simp only [ofInteger, dif_neg hpos, hval, hdiv]

theorem readMantissa_of_whole {whole : JsString} (h : IsWhole whole) :
    readMantissa whole = some (number whole, 0) := by
  unfold readMantissa
  rw [cut_of_forall (not_point_of_isDigits h.isDigits)]
  dsimp only
  rw [if_pos ⟨h, fun _ hnone => (by cases hnone)⟩]
  simp

theorem readMantissa_of_fraction {whole fraction : JsString} (h : IsWhole whole)
    (hne : fraction ≠ []) (hdigits : IsDigits fraction) :
    readMantissa (whole ++ 46 :: fraction) = some (number (whole ++ fraction), fraction.length) := by
  unfold readMantissa
  rw [cut_append_cons (not_point_of_isDigits h.isDigits) (decide_eq_true rfl)]
  dsimp only
  rw [if_pos ⟨h, fun digits hsome => Option.some.inj hsome ▸ ⟨hne, hdigits⟩⟩]
  rfl

/-- Digits with a point are no exponent sign. -/
theorem not_exponent_of_point {whole fraction : JsString} (h : IsDigits whole)
    (hdigits : IsDigits fraction) :
    ∀ v ∈ whole ++ 46 :: fraction, decide (v = 101 ∨ v = 69) = false := by
  intro v hv
  rcases List.mem_append.mp hv with hv | hv
  · exact not_exponent_of_isDigits h v hv
  · rcases List.mem_cons.mp hv with rfl | hv
    · rfl
    · exact not_exponent_of_isDigits hdigits v hv

/-- Reading without an exponent. -/
theorem readUnsigned_of_mantissa (negative : Bool) {mantissa : JsString} {integer places : ℕ}
    (h : ∀ v ∈ mantissa, decide (v = 101 ∨ v = 69) = false)
    (hread : readMantissa mantissa = some (integer, places)) :
    readUnsigned negative mantissa = some (ofInteger negative integer (-places)) := by
  unfold readUnsigned
  rw [cut_of_forall h]
  dsimp only
  rw [hread, Option.bind_some, readExponent, Option.map_some, Int.zero_sub]

/-- Reading with an exponent. -/
theorem readUnsigned_of_exponent (negative : Bool) {mantissa : JsString} {integer places : ℕ} {n : ℤ}
    (h : ∀ v ∈ mantissa, decide (v = 101 ∨ v = 69) = false)
    (hread : readMantissa mantissa = some (integer, places)) (hn : ¬ (-5 ≤ n ∧ n ≤ 21)) :
    readUnsigned negative
        (mantissa ++ 101 :: (if n < 0 then 45 else 43) :: ofNat (n - 1).natAbs) =
      some (ofInteger negative integer (n - 1 - places)) := by
  have hdigits := (isWhole_ofNat (n - 1).natAbs).isDigits
  have hne := (isWhole_ofNat (n - 1).natAbs).ne_nil
  have hexponent : readExponent (some ((if n < 0 then 45 else 43) :: ofNat (n - 1).natAbs)) =
      some (n - 1) := by
    by_cases hneg : n < 0
    · rw [if_pos hneg]
      show (if ofNat (n - 1).natAbs ≠ [] ∧ IsDigits (ofNat (n - 1).natAbs) then
        some (-(number (ofNat (n - 1).natAbs) : ℤ)) else none) = _
      rw [if_pos ⟨hne, hdigits⟩, number_ofNat]
      congr 1
      omega
    · rw [if_neg hneg]
      show (if ofNat (n - 1).natAbs ≠ [] ∧ IsDigits (ofNat (n - 1).natAbs) then
        some (number (ofNat (n - 1).natAbs) : ℤ) else none) = _
      rw [if_pos ⟨hne, hdigits⟩, number_ofNat]
      congr 1
      omega
  unfold readUnsigned
  rw [cut_append_cons h (decide_eq_true (.inl rfl))]
  dsimp only
  rw [hread, Option.bind_some, hexponent, Option.map_some]

section Notations

variable (negative : Bool) (hne : significand % 10 ≠ 0) {n : ℤ}

include hne

theorem head?_ofNat_ne : (ofNat significand).head? ≠ some 48 := by
  rcases isWhole_ofNat significand with heq | ⟨-, -, h⟩
  · have hzero := congrArg number heq
    rw [number_ofNat] at hzero
    exact absurd (hzero ▸ rfl) hne
  · exact h

theorem ofInteger_of_eq {e : ℤ} (he : e = exponent) :
    some (ofInteger negative significand e) = some ⟨negative, significand, exponent, .inl hne⟩ := by
  have hint := ofInteger_eq negative hne 0 e
  rw [pow_zero, Nat.mul_one, Nat.cast_zero, Int.add_zero] at hint
  rw [hint, he]

/-- An integer, with zeros at its end. -/
theorem readUnsigned_zerosAfter (hle : 0 ≤ exponent) :
    readUnsigned negative (ofNat significand ++ List.replicate exponent.toNat 48) =
      some ⟨negative, significand, exponent, .inl hne⟩ := by
  have hwhole := isWhole_ofNat significand
  have hall : IsWhole (ofNat significand ++ List.replicate exponent.toNat 48) :=
    .inr ⟨hwhole.isDigits.append (isDigits_replicate_zero exponent.toNat),
      List.append_ne_nil_of_left_ne_nil hwhole.ne_nil _, by
        rw [List.head?_append_of_ne_nil _ hwhole.ne_nil]
        exact head?_ofNat_ne hne⟩
  rw [readUnsigned_of_mantissa negative (not_exponent_of_isDigits hall.isDigits)
      (readMantissa_of_whole hall), number_append, number_ofNat, number_replicate_zero,
    List.length_replicate, Nat.add_zero, ofInteger_eq negative hne]
  congr 2
  omega

/-- The point is between the digits. -/
theorem readUnsigned_pointWithin (hn : n = exponent + (ofNat significand).length) (hpos : 0 < n)
    (hlt : n < (ofNat significand).length) :
    readUnsigned negative
        ((ofNat significand).take n.toNat ++ 46 :: (ofNat significand).drop n.toNat) =
      some ⟨negative, significand, exponent, .inl hne⟩ := by
  have hdigits := (isWhole_ofNat significand).isDigits
  have htake : IsWhole ((ofNat significand).take n.toNat) := by
    refine .inr ⟨fun u hu => hdigits u (List.mem_of_mem_take hu), fun hnil => ?_, ?_⟩
    · have hlength := congrArg List.length hnil
      rw [List.length_take, List.length_nil] at hlength
      omega
    · rw [List.head?_take, if_neg (by omega)]
      exact head?_ofNat_ne hne
  have hdrop : IsDigits ((ofNat significand).drop n.toNat) :=
    fun u hu => hdigits u (List.mem_of_mem_drop hu)
  have hdropne : (ofNat significand).drop n.toNat ≠ [] := by
    intro hnil
    have hle := List.drop_eq_nil_iff.mp hnil
    omega
  rw [readUnsigned_of_mantissa negative (not_exponent_of_point htake.isDigits hdrop)
      (readMantissa_of_fraction htake hdropne hdrop), List.take_append_drop, number_ofNat]
  refine ofInteger_of_eq negative hne ?_
  rw [List.length_drop]
  omega

/-- Zeros are between the point and the digits. -/
theorem readUnsigned_zerosBefore (hn : n = exponent + (ofNat significand).length) (hle : n ≤ 0) :
    readUnsigned negative (48 :: 46 :: (List.replicate (-n).toNat 48 ++ ofNat significand)) =
      some ⟨negative, significand, exponent, .inl hne⟩ := by
  have hwhole := isWhole_ofNat significand
  have hzero : IsWhole [48] := .inl rfl
  have hfraction := (isDigits_replicate_zero (-n).toNat).append hwhole.isDigits
  have hread := readUnsigned_of_mantissa negative (not_exponent_of_point hzero.isDigits hfraction)
    (readMantissa_of_fraction hzero (List.append_ne_nil_of_right_ne_nil _ hwhole.ne_nil) hfraction)
  rw [number_append, number_append, number_replicate_zero, number_ofNat,
    show number [48] = 0 from rfl, Nat.zero_mul, Nat.zero_mul, Nat.zero_add, Nat.zero_add] at hread
  refine hread.trans (ofInteger_of_eq negative hne ?_)
  rw [List.length_append, List.length_replicate]
  omega

/-- One digit before the point, and an exponent. -/
theorem readUnsigned_scientific (hn : n = exponent + (ofNat significand).length)
    (hrange : ¬ (-5 ≤ n ∧ n ≤ 21)) :
    readUnsigned negative (pointAfterFirst (ofNat significand) ++
        101 :: (if n < 0 then 45 else 43) :: ofNat (n - 1).natAbs) =
      some ⟨negative, significand, exponent, .inl hne⟩ := by
  have hwhole := isWhole_ofNat significand
  have hhead := head?_ofNat_ne hne
  have hnumber := number_ofNat significand
  cases hcases : ofNat significand with
  | nil => exact absurd hcases hwhole.ne_nil
  | cons first rest =>
    rw [hcases] at hwhole hhead hnumber hn
    cases rest with
    | nil =>
      have hread := readUnsigned_of_exponent negative (not_exponent_of_isDigits hwhole.isDigits)
        (readMantissa_of_whole hwhole) hrange
      rw [hnumber] at hread
      refine hread.trans (ofInteger_of_eq negative hne ?_)
      rw [List.length_singleton] at hn
      omega
    | cons second rest =>
      have hfirst : IsWhole [first] := .inr ⟨fun u hu =>
        hwhole.isDigits u (List.mem_singleton.mp hu ▸ List.mem_cons_self), List.cons_ne_nil _ _, hhead⟩
      have hrest : IsDigits (second :: rest) := fun u hu =>
        hwhole.isDigits u (List.mem_cons_of_mem _ hu)
      have hread := readUnsigned_of_exponent negative
        (not_exponent_of_point hfirst.isDigits hrest)
        (readMantissa_of_fraction hfirst (List.cons_ne_nil _ _) hrest) hrange
      rw [show number ([first] ++ second :: rest) = significand from hnumber] at hread
      refine hread.trans (ofInteger_of_eq negative hne ?_)
      simp only [List.length_cons] at hn ⊢
      omega

end Notations

/-- **A positive number is read back from its text.** The cases are those of the notations. -/
theorem readUnsigned_unsignedText (negative : Bool) (exponent : ℤ) (hne : significand % 10 ≠ 0) :
    readUnsigned negative (unsignedText significand exponent) =
      some ⟨negative, significand, exponent, .inl hne⟩ := by
  unfold unsignedText
  dsimp only
  split
  case isTrue hrange =>
    split_ifs with hinteger hpoint
    · rw [Int.add_sub_cancel]
      exact readUnsigned_zerosAfter negative hne (by omega)
    · exact readUnsigned_pointWithin negative hne rfl hpoint (not_le.mp hinteger)
    · exact readUnsigned_zerosBefore negative hne rfl (not_lt.mp hpoint)
  case isFalse hrange => exact readUnsigned_scientific negative hne rfl hrange

end Reading

/-! ### The characters of a number -/

/-- A character of a number. -/
def isNumberUnit (u : UInt16) : Bool :=
  (48 ≤ u ∧ u ≤ 57) ∨ u = 45 ∨ u = 43 ∨ u = 46 ∨ u = 101 ∨ u = 69

theorem isNumberUnit_of_isDigits {s : JsString} (h : IsDigits s) :
    ∀ u ∈ s, isNumberUnit u = true := fun u hu => decide_eq_true (.inl (h u hu))

/-- The text of a positive number begins with a digit, and has characters of a number only. -/
theorem unsignedText_spec (significand : ℕ) (exponent : ℤ) :
    ∃ first rest, unsignedText significand exponent = first :: rest ∧ (48 ≤ first ∧ first ≤ 57) ∧
      ∀ u ∈ rest, isNumberUnit u = true := by
  have hwhole := isWhole_ofNat significand
  have hunits := isNumberUnit_of_isDigits hwhole.isDigits
  have hzeros := fun n => isNumberUnit_of_isDigits (isDigits_replicate_zero n)
  obtain ⟨first, rest, hdigits⟩ := List.exists_cons_of_ne_nil hwhole.ne_nil
  have hfirst := hwhole.isDigits first (hdigits ▸ List.mem_cons_self)
  have hrest : ∀ u ∈ rest, isNumberUnit u = true := fun u hu =>
    hunits u (hdigits ▸ List.mem_cons_of_mem _ hu)
  unfold unsignedText
  dsimp only
  rw [hdigits]
  split_ifs with hrange hinteger hpoint hneg
  · refine ⟨first, _, rfl, hfirst, fun u hu => ?_⟩
    rcases List.mem_append.mp hu with hu | hu
    · exact hrest u hu
    · exact hzeros _ u hu
  · obtain ⟨n, hn⟩ : ∃ n, (exponent + ((first :: rest).length : ℕ)).toNat = n + 1 :=
      Nat.exists_eq_succ_of_ne_zero (by omega)
    rw [hn, List.take_succ_cons, List.drop_succ_cons]
    refine ⟨first, _, rfl, hfirst, fun u hu => ?_⟩
    rcases List.mem_append.mp hu with hu | hu
    · exact hrest u (List.mem_of_mem_take hu)
    · rcases List.mem_cons.mp hu with rfl | hu
      · rfl
      · exact hrest u (List.mem_of_mem_drop hu)
  · refine ⟨48, _, rfl, by decide, fun u hu => ?_⟩
    rcases List.mem_cons.mp hu with rfl | hu
    · rfl
    · rcases List.mem_append.mp hu with hu | hu
      · exact hzeros _ u hu
      · exact hunits u (hdigits ▸ hu)
  all_goals
    have hexponent : ∀ u ∈ ofNat (exponent + ((first :: rest).length : ℕ) - 1).natAbs,
        isNumberUnit u = true := isNumberUnit_of_isDigits (isWhole_ofNat _).isDigits
    cases rest with
    | nil =>
      refine ⟨first, _, rfl, hfirst, fun u hu => ?_⟩
      rcases List.mem_cons.mp hu with rfl | hu
      · rfl
      · rcases List.mem_cons.mp hu with rfl | hu
        · rfl
        · exact hexponent u hu
    | cons second rest =>
      refine ⟨first, _, rfl, hfirst, fun u hu => ?_⟩
      rcases List.mem_cons.mp hu with rfl | hu
      · rfl
      · rcases List.mem_append.mp hu with hu | hu
        · exact hrest u hu
        · rcases List.mem_cons.mp hu with rfl | hu
          · rfl
          · rcases List.mem_cons.mp hu with rfl | hu
            · rfl
            · exact hexponent u hu

/-- **A number is read back from its text.** -/
theorem read_text (x : JsNumber) : read x.text = some x := by
  obtain ⟨negative, significand, exponent, hne | ⟨rfl, rfl, rfl⟩⟩ := x
  · have hpos : ¬ significand = 0 := fun h => hne (by rw [h])
    unfold text
    dsimp only
    rw [if_neg hpos]
    cases negative with
    | true => exact readUnsigned_unsignedText true exponent hne
    | false =>
      obtain ⟨first, rest, htext, hfirst, -⟩ := unsignedText_spec significand exponent
      have hread := readUnsigned_unsignedText false exponent hne
      rw [if_neg (by decide)]
      rw [htext] at hread ⊢
      rw [← hread, read]
      intro s hcons
      rw [(List.cons.inj hcons).1] at hfirst
      exact absurd hfirst.1 (by decide)
  · decide +kernel

/-- The text of a number begins with a digit or a minus sign, and has characters of a number
only. -/
theorem text_spec (x : JsNumber) : ∃ first rest, x.text = first :: rest ∧
    ((48 ≤ first ∧ first ≤ 57) ∨ first = 45) ∧ ∀ u ∈ x.text, isNumberUnit u = true := by
  obtain ⟨first, rest, htext, hfirst, hrest⟩ := unsignedText_spec x.significand x.exponent
  have hall : ∀ u ∈ first :: rest, isNumberUnit u = true := by
    intro u hu
    rcases List.mem_cons.mp hu with rfl | hu
    · exact decide_eq_true (.inl hfirst)
    · exact hrest u hu
  unfold text
  rw [htext]
  split_ifs
  · exact ⟨48, [], rfl, .inl (by decide), by decide⟩
  · refine ⟨45, _, rfl, .inr rfl, fun u hu => ?_⟩
    rcases List.mem_cons.mp hu with rfl | hu
    · rfl
    · exact hall u hu
  · exact ⟨first, rest, rfl, .inl hfirst, hall⟩

/-! ### Natural numbers -/

/-- A natural number. -/
def natural (n : ℕ) : JsNumber := ofInteger false n 0

end JsNumber
