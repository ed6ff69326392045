import Handleplan.Lib.JsString

/-!
# Bytes in base64 for addresses

Bytes in the alphabet of base64 for addresses, without padding, and what such a text is read as.

## Main definitions

* `Base64Url.encode`, `Base64Url.decode` — the text of some bytes, and the bytes of a text.
* `Base64Url.IsUnit` — a character of the alphabet.

## Main results

* `Base64Url.decode_encode` — bytes are read back.
* `Base64Url.length_encode` — the length of a text, by the number of its bytes.
* `Base64Url.isUnit_of_mem_encode` — a text has characters of the alphabet only.
-/

namespace Base64Url

/-- A character of the alphabet. -/
def IsUnit (u : UInt16) : Prop :=
  (65 ≤ u ∧ u ≤ 90) ∨ (97 ≤ u ∧ u ≤ 122) ∨ (48 ≤ u ∧ u ≤ 57) ∨ u = 45 ∨ u = 95

instance : DecidablePred IsUnit :=
  fun _ => inferInstanceAs (Decidable ((_ ∧ _) ∨ (_ ∧ _) ∨ (_ ∧ _) ∨ _ ∨ _))

/-- The character of six bits. -/
def unit (n : ℕ) : UInt16 :=
  if n < 26 then (65 + n).toUInt16
  else if n < 52 then (71 + n).toUInt16
  else if n < 62 then (n - 4).toUInt16
  else if n = 62 then 45
  else 95

/-- The six bits of a character, of this alphabet or of the other one of base64. -/
def sextet (u : UInt16) : Option ℕ :=
  if 65 ≤ u ∧ u ≤ 90 then some (u.toNat - 65)
  else if 97 ≤ u ∧ u ≤ 122 then some (u.toNat - 71)
  else if 48 ≤ u ∧ u ≤ 57 then some (u.toNat + 4)
  else if u = 45 ∨ u = 43 then some 62
  else if u = 95 ∨ u = 47 then some 63
  else none

/-- `Buffer.toString("base64url")`. -/
def encode : List UInt8 → JsString
  | [] => []
  | [a] => [unit (a.toNat / 4), unit (a.toNat % 4 * 16)]
  | [a, b] =>
    [unit (a.toNat / 4), unit (a.toNat % 4 * 16 + b.toNat / 16), unit (b.toNat % 16 * 4)]
  | a :: b :: c :: rest =>
    unit (a.toNat / 4) :: unit (a.toNat % 4 * 16 + b.toNat / 16) ::
      unit (b.toNat % 16 * 4 + c.toNat / 64) :: unit (c.toNat % 64) :: encode rest

/-- The bytes of groups of six bits. -/
def bytes : List ℕ → List UInt8
  | a :: b :: c :: d :: rest =>
    (a * 4 + b / 16).toUInt8 :: (b % 16 * 16 + c / 4).toUInt8 :: (c % 4 * 64 + d).toUInt8 ::
      bytes rest
  | [a, b, c] => [(a * 4 + b / 16).toUInt8, (b % 16 * 16 + c / 4).toUInt8]
  | [a, b] => [(a * 4 + b / 16).toUInt8]
  | _ => []

/-- `Buffer.from(text, "base64url")`, which passes over what is not of the alphabet. -/
def decode (s : JsString) : List UInt8 := bytes (s.filterMap sextet)

/-! ### What is written is read back -/

theorem isUnit_unit : ∀ n < 64, IsUnit (unit n) := by decide +kernel

theorem sextet_unit : ∀ n < 64, sextet (unit n) = some n := by decide +kernel

theorem toUInt8_eq {n : ℕ} {a : UInt8} (h : n = a.toNat) : n.toUInt8 = a := by
  rw [h]
  exact UInt8.ofNat_toNat

/-- **Bytes are read back.** -/
theorem decode_encode (l : List UInt8) : decode (encode l) = l := by
  induction l using encode.induct with
  | case1 => rfl
  | case2 a =>
    have ha := a.toNat_lt
    rw [encode, decode, List.filterMap_cons_some (sextet_unit _ (by omega)),
      List.filterMap_cons_some (sextet_unit _ (by omega)), List.filterMap_nil, bytes,
      toUInt8_eq (a := a) (by omega)]
  | case3 a b =>
    have ha := a.toNat_lt
    have hb := b.toNat_lt
    rw [encode, decode, List.filterMap_cons_some (sextet_unit _ (by omega)),
      List.filterMap_cons_some (sextet_unit _ (by omega)),
      List.filterMap_cons_some (sextet_unit _ (by omega)), List.filterMap_nil, bytes,
      toUInt8_eq (a := a) (by omega), toUInt8_eq (a := b) (by omega)]
  | case4 a b c rest ih =>
    have ha := a.toNat_lt
    have hb := b.toNat_lt
    have hc := c.toNat_lt
    rw [decode] at ih
    rw [encode, decode, List.filterMap_cons_some (sextet_unit _ (by omega)),
      List.filterMap_cons_some (sextet_unit _ (by omega)),
      List.filterMap_cons_some (sextet_unit _ (by omega)),
      List.filterMap_cons_some (sextet_unit _ (by omega)), bytes, ih,
      toUInt8_eq (a := a) (by omega), toUInt8_eq (a := b) (by omega),
      toUInt8_eq (a := c) (by omega)]

/-- The length of a text, by the number of its bytes. -/
theorem length_encode (l : List UInt8) : (encode l).length = (4 * l.length + 2) / 3 := by
  induction l using encode.induct with
  | case1 => rfl
  | case2 a => simp only [encode, List.length_cons, List.length_nil]
  | case3 a b => simp only [encode, List.length_cons, List.length_nil]
  | case4 a b c rest ih =>
    simp only [encode, List.length_cons, ih]
    omega

/-- A text has characters of the alphabet only. -/
theorem isUnit_of_mem_encode {l : List UInt8} : ∀ u ∈ encode l, IsUnit u := by
  induction l using encode.induct with
  | case1 => exact fun u hu => absurd hu List.not_mem_nil
  | case2 a =>
    have ha := a.toNat_lt
    intro u hu
    simp only [encode, List.mem_cons, List.not_mem_nil, or_false] at hu
    rcases hu with rfl | rfl <;> exact isUnit_unit _ (by omega)
  | case3 a b =>
    have ha := a.toNat_lt
    have hb := b.toNat_lt
    intro u hu
    simp only [encode, List.mem_cons, List.not_mem_nil, or_false] at hu
    rcases hu with rfl | rfl | rfl <;> exact isUnit_unit _ (by omega)
  | case4 a b c rest ih =>
    have ha := a.toNat_lt
    have hb := b.toNat_lt
    have hc := c.toNat_lt
    intro u hu
    simp only [encode, List.mem_cons] at hu
    rcases hu with rfl | rfl | rfl | rfl | hu
    · exact isUnit_unit _ (by omega)
    · exact isUnit_unit _ (by omega)
    · exact isUnit_unit _ (by omega)
    · exact isUnit_unit _ (by omega)
    · exact ih u hu

end Base64Url
