import Handleplan.Lib.JsonText

/-!
# Texts as bytes

How a text of JavaScript is written in UTF-8, and how bytes are read as a text.

## Main definitions

* `Utf8.encode` — the bytes of a text, in which an unpaired surrogate is replaced.
* `Utf8.decode`, `Utf8.decodeFatal` — the text of some bytes, where what is not UTF-8 is replaced or
  refused.

## Main results

* `Utf8.decodeFrom_encode` — the bytes of a text are decoded as its code points.
* `Utf8.decode_encode`, `Utf8.decodeFatal_encode` — without unpaired surrogates a text is read back.
* `Utf8.encode_injOn` — texts without unpaired surrogates have different bytes.
-/

namespace Utf8

open JsonText

/-! ### Writing -/

/-- The code point of a replaced character. -/
def replacement : ℕ := 0xFFFD

/-- The code point of one code unit. -/
def unitPoint (u : UInt16) : ℕ := if isHigh u || isLow u then replacement else u.toNat

/-- The code point of a pair of surrogates. -/
def pairPoint (u v : UInt16) : ℕ := 0x10000 + (u.toNat - 0xD800) * 0x400 + (v.toNat - 0xDC00)

/-- The code points of a text. -/
def codePoints : JsString → List ℕ
  | [] => []
  | [u] => [unitPoint u]
  | u :: v :: rest =>
    if isHigh u && isLow v then pairPoint u v :: codePoints rest
    else unitPoint u :: codePoints (v :: rest)

/-- The bytes of a code point. -/
def encodePoint (c : ℕ) : List UInt8 :=
  if c < 0x80 then [c.toUInt8]
  else if c < 0x800 then [(0xC0 + c / 0x40).toUInt8, (0x80 + c % 0x40).toUInt8]
  else if c < 0x10000 then
    [(0xE0 + c / 0x1000).toUInt8, (0x80 + c / 0x40 % 0x40).toUInt8, (0x80 + c % 0x40).toUInt8]
  else
    [(0xF0 + c / 0x40000).toUInt8, (0x80 + c / 0x1000 % 0x40).toUInt8,
      (0x80 + c / 0x40 % 0x40).toUInt8, (0x80 + c % 0x40).toUInt8]

/-- The bytes of a text. -/
def encode (s : JsString) : List UInt8 := (codePoints s).flatMap encodePoint

/-! ### Reading -/

/-- Between characters, or within one that needs some more bytes, of which the next is in a
range. -/
inductive Decoder where
  | between
  | within (needed point lower upper : ℕ)

/-- The first byte of a character. -/
def start (b : ℕ) : List (Option ℕ) × Decoder :=
  if b < 0x80 then ([some b], .between)
  else if 0xC2 ≤ b ∧ b ≤ 0xDF then ([], .within 1 (b - 0xC0) 0x80 0xBF)
  else if 0xE0 ≤ b ∧ b ≤ 0xEF then
    ([], .within 2 (b - 0xE0) (if b = 0xE0 then 0xA0 else 0x80) (if b = 0xED then 0x9F else 0xBF))
  else if 0xF0 ≤ b ∧ b ≤ 0xF4 then
    ([], .within 3 (b - 0xF0) (if b = 0xF0 then 0x90 else 0x80) (if b = 0xF4 then 0x8F else 0xBF))
  else ([none], .between)

/-- One byte. One that does not belong to a character begins another one. -/
def step : Decoder → ℕ → List (Option ℕ) × Decoder
  | .between, b => start b
  | .within needed point lower upper, b =>
    if lower ≤ b ∧ b ≤ upper then
      if needed = 1 then ([some (point * 0x40 + (b - 0x80))], .between)
      else ([], .within (needed - 1) (point * 0x40 + (b - 0x80)) 0x80 0xBF)
    else (none :: (start b).1, (start b).2)

/-- The code points of some bytes, and where they are not UTF-8. -/
def decodeFrom : Decoder → List UInt8 → List (Option ℕ)
  | .between, [] => []
  | .within .., [] => [none]
  | decoder, b :: bytes => (step decoder b.toNat).1 ++ decodeFrom (step decoder b.toNat).2 bytes

/-- The code units of a code point. -/
def pointUnits (c : ℕ) : JsString :=
  if c < 0x10000 then [c.toUInt16]
  else [(0xD800 + (c - 0x10000) / 0x400).toUInt16, (0xDC00 + (c - 0x10000) % 0x400).toUInt16]

/-- `Buffer.toString("utf8")`. -/
def decode (bytes : List UInt8) : JsString :=
  (decodeFrom .between bytes).flatMap fun point => pointUnits (point.getD replacement)

/-- `TextDecoder.decode` that refuses what is not UTF-8, and leaves out a byte order mark. -/
def decodeFatal (bytes : List UInt8) : Option JsString :=
  if none ∈ decodeFrom .between bytes then none
  else
    match decode bytes with
    | 0xFEFF :: text => some text
    | text => some text

/-! ### What is written is read back -/

/-- A code point that is not a surrogate. -/
def IsScalar (c : ℕ) : Prop := c < 0xD800 ∨ 0xE000 ≤ c ∧ c < 0x110000

theorem toNat_toUInt8 {n : ℕ} (h : n < 256) : n.toUInt8.toNat = n := UInt8.toNat_ofNat_of_lt' h

section Steps

variable {b c needed point lower upper : ℕ} {decoder : Decoder} (rest : List UInt8)

/-- A first byte that needs others. -/
theorem decodeFrom_start (hb : b < 256) (h : start b = ([], decoder)) :
    decodeFrom .between (b.toUInt8 :: rest) = decodeFrom decoder rest := by
  rw [decodeFrom, toNat_toUInt8 hb, step, h]
  rfl

/-- The last byte of a character. -/
theorem decodeFrom_last (hb : b < 256) (h : lower ≤ b ∧ b ≤ upper) :
    decodeFrom (.within 1 point lower upper) (b.toUInt8 :: rest) =
      some (point * 0x40 + (b - 0x80)) :: decodeFrom .between rest := by
  rw [decodeFrom, toNat_toUInt8 hb, step, if_pos h, if_pos rfl]
  rfl

/-- A byte of a character that needs others. -/
theorem decodeFrom_more (hb : b < 256) (h : lower ≤ b ∧ b ≤ upper) :
    decodeFrom (.within (needed + 2) point lower upper) (b.toUInt8 :: rest) =
      decodeFrom (.within (needed + 1) (point * 0x40 + (b - 0x80)) 0x80 0xBF) rest := by
  rw [decodeFrom, toNat_toUInt8 hb, step, if_pos h, if_neg (by omega)]
  rfl

/-- **The bytes of a code point are decoded as it.** The cases are the numbers of bytes. -/
theorem decodeFrom_encodePoint (h : IsScalar c) :
    decodeFrom .between (encodePoint c ++ rest) = some c :: decodeFrom .between rest := by
  unfold IsScalar at h
  unfold encodePoint
  split_ifs with hone htwo hthree
  · rw [List.singleton_append, decodeFrom, toNat_toUInt8 (by omega), step, start, if_pos hone]
    rfl
  · have hstart : start (0xC0 + c / 0x40) = ([], .within 1 (c / 0x40) 0x80 0xBF) := by
      rw [start, if_neg (by omega), if_pos (by omega), Nat.add_sub_cancel_left]
    have hc : c / 0x40 * 0x40 + c % 0x40 = c := by omega
    rw [List.cons_append, List.singleton_append, decodeFrom_start _ (by omega) hstart,
      decodeFrom_last _ (by omega) (by omega), Nat.add_sub_cancel_left, hc]
  · have hstart : start (0xE0 + c / 0x1000) = ([], .within 2 (c / 0x1000)
        (if 0xE0 + c / 0x1000 = 0xE0 then 0xA0 else 0x80)
        (if 0xE0 + c / 0x1000 = 0xED then 0x9F else 0xBF)) := by
      rw [start, if_neg (by omega), if_neg (by omega), if_pos (by omega), Nat.add_sub_cancel_left]
    have hrange : (if 0xE0 + c / 0x1000 = 0xE0 then 0xA0 else 0x80) ≤ 0x80 + c / 0x40 % 0x40 ∧
        0x80 + c / 0x40 % 0x40 ≤ (if 0xE0 + c / 0x1000 = 0xED then 0x9F else 0xBF) := by
      split_ifs <;> omega
    have hc : (c / 0x1000 * 0x40 + c / 0x40 % 0x40) * 0x40 + c % 0x40 = c := by omega
    rw [List.cons_append, List.cons_append, List.singleton_append,
      decodeFrom_start _ (by omega) hstart, decodeFrom_more _ (by omega) hrange,
      decodeFrom_last _ (by omega) (by omega), Nat.add_sub_cancel_left, Nat.add_sub_cancel_left, hc]
  · have hstart : start (0xF0 + c / 0x40000) = ([], .within 3 (c / 0x40000)
        (if 0xF0 + c / 0x40000 = 0xF0 then 0x90 else 0x80)
        (if 0xF0 + c / 0x40000 = 0xF4 then 0x8F else 0xBF)) := by
      rw [start, if_neg (by omega), if_neg (by omega), if_neg (by omega), if_pos (by omega),
        Nat.add_sub_cancel_left]
    have hrange : (if 0xF0 + c / 0x40000 = 0xF0 then 0x90 else 0x80) ≤ 0x80 + c / 0x1000 % 0x40 ∧
        0x80 + c / 0x1000 % 0x40 ≤ (if 0xF0 + c / 0x40000 = 0xF4 then 0x8F else 0xBF) := by
      split_ifs <;> omega
    have hc : ((c / 0x40000 * 0x40 + c / 0x1000 % 0x40) * 0x40 + c / 0x40 % 0x40) * 0x40 +
        c % 0x40 = c := by omega
    rw [List.cons_append, List.cons_append, List.cons_append, List.singleton_append,
      decodeFrom_start _ (by omega) hstart, decodeFrom_more _ (by omega) hrange,
      decodeFrom_more _ (by omega) (by omega), decodeFrom_last _ (by omega) (by omega),
      Nat.add_sub_cancel_left, Nat.add_sub_cancel_left, Nat.add_sub_cancel_left, hc]

end Steps

/-! ### Code points -/

variable {u : UInt16} {s : JsString}

theorem isHigh_iff : isHigh u = true ↔ 0xD800 ≤ u.toNat ∧ u.toNat ≤ 0xDBFF := by
  simp only [isHigh, Bool.and_eq_true, decide_eq_true_eq, UInt16.le_iff_toNat_le]
  rfl

theorem isLow_iff : isLow u = true ↔ 0xDC00 ≤ u.toNat ∧ u.toNat ≤ 0xDFFF := by
  simp only [isLow, Bool.and_eq_true, decide_eq_true_eq, UInt16.le_iff_toNat_le]
  rfl

theorem not_surrogate_iff :
    (isHigh u || isLow u) = false ↔ u.toNat < 0xD800 ∨ 0xDFFF < u.toNat := by
  rw [Bool.or_eq_false_iff, ← Bool.not_eq_true, ← Bool.not_eq_true, isHigh_iff, isLow_iff]
  omega

theorem isScalar_unitPoint (u : UInt16) : IsScalar (unitPoint u) := by
  unfold unitPoint IsScalar replacement
  split_ifs with h
  · omega
  · have hlt := u.toNat_lt
    have hrange := not_surrogate_iff.mp (Bool.eq_false_iff.mpr h)
    omega

theorem isScalar_pairPoint {v : UInt16} (h : (isHigh u && isLow v) = true) :
    IsScalar (pairPoint u v) := by
  rw [Bool.and_eq_true, isHigh_iff, isLow_iff] at h
  unfold pairPoint IsScalar
  omega

/-- A text is decoded to scalar values. -/
theorem isScalar_of_mem : ∀ c ∈ codePoints s, IsScalar c := by
  induction s using codePoints.induct with
  | case1 => exact fun c hc => absurd hc List.not_mem_nil
  | case2 u =>
    intro c hc
    obtain rfl := List.mem_singleton.mp hc
    exact isScalar_unitPoint u
  | case3 u v rest hpair ih =>
    rw [codePoints, if_pos hpair]
    intro c hc
    rcases List.mem_cons.mp hc with hc | hc
    · rw [hc]
      exact isScalar_pairPoint hpair
    · exact ih c hc
  | case4 u v rest hpair ih =>
    rw [codePoints, if_neg hpair]
    intro c hc
    rcases List.mem_cons.mp hc with hc | hc
    · rw [hc]
      exact isScalar_unitPoint u
    · exact ih c hc

/-- **The bytes of a text are decoded as its code points.** -/
theorem decodeFrom_encode (s : JsString) :
    decodeFrom .between (encode s) = (codePoints s).map some := by
  have hall : ∀ points : List ℕ, (∀ c ∈ points, IsScalar c) →
      decodeFrom .between (points.flatMap encodePoint) = points.map some := by
    intro points hpoints
    induction points with
    | nil => rfl
    | cons c points ih =>
      rw [List.flatMap_cons, decodeFrom_encodePoint _ (hpoints c List.mem_cons_self),
        ih fun d hd => hpoints d (List.mem_cons_of_mem _ hd), List.map_cons]
  exact hall _ isScalar_of_mem

theorem pointUnits_unitPoint (h : (isHigh u || isLow u) = false) :
    pointUnits (unitPoint u) = [u] := by
  rw [unitPoint, h, if_neg Bool.false_ne_true, pointUnits, if_pos u.toNat_lt]
  exact congrArg ([·]) UInt16.ofNat_toNat

theorem pointUnits_pairPoint {v : UInt16} (h : (isHigh u && isLow v) = true) :
    pointUnits (pairPoint u v) = [u, v] := by
  rw [Bool.and_eq_true, isHigh_iff, isLow_iff] at h
  have hu : 0xD800 + (pairPoint u v - 0x10000) / 0x400 = u.toNat := by
    unfold pairPoint
    omega
  have hv : 0xDC00 + (pairPoint u v - 0x10000) % 0x400 = v.toNat := by
    unfold pairPoint
    omega
  have hge : ¬ pairPoint u v < 0x10000 := by
    unfold pairPoint
    omega
  rw [pointUnits, if_neg hge, hu, hv]
  exact congrArg₂ ([·, ·]) UInt16.ofNat_toNat UInt16.ofNat_toNat

/-- The code points of a text without unpaired surrogates are its code units. -/
theorem flatMap_pointUnits (h : isWellFormed s = true) :
    (codePoints s).flatMap pointUnits = s := by
  induction s using codePoints.induct with
  | case1 => rfl
  | case2 u =>
    rw [isWellFormed, Bool.and_eq_true, Bool.not_eq_true', Bool.not_eq_true'] at h
    rw [codePoints, List.flatMap_singleton, pointUnits_unitPoint (by rw [h.1, h.2]; rfl)]
  | case3 u v rest hpair ih =>
    rw [isWellFormed, if_pos hpair] at h
    rw [codePoints, if_pos hpair, List.flatMap_cons, pointUnits_pairPoint hpair, ih h]
    rfl
  | case4 u v rest hpair ih =>
    rw [isWellFormed, if_neg hpair, Bool.and_eq_true, Bool.and_eq_true, Bool.not_eq_true',
      Bool.not_eq_true'] at h
    rw [codePoints, if_neg hpair, List.flatMap_cons,
      pointUnits_unitPoint (by rw [h.1.1, h.1.2]; rfl), ih h.2]
    rfl

/-- **A text without unpaired surrogates is read back.** -/
theorem decode_encode (h : isWellFormed s = true) : decode (encode s) = s := by
  rw [decode, decodeFrom_encode, List.flatMap_map]
  exact flatMap_pointUnits h

theorem decodeFatal_encode (h : isWellFormed s = true) (hmark : s.head? ≠ some 0xFEFF) :
    decodeFatal (encode s) = some s := by
  have hnone : none ∉ decodeFrom .between (encode s) := by
    rw [decodeFrom_encode]
    intro hmem
    obtain ⟨c, -, hc⟩ := List.mem_map.mp hmem
    cases hc
  rw [decodeFatal, if_neg hnone, decode_encode h]
  cases s with
  | nil => rfl
  | cons u s =>
    split
    · rename_i heq
      exact absurd (congrArg some (List.cons.inj heq).1) hmark
    · rfl

/-- Texts without unpaired surrogates have different bytes. -/
theorem encode_injOn {t : JsString} (hs : isWellFormed s = true) (ht : isWellFormed t = true)
    (h : encode s = encode t) : s = t := by
  rw [← decode_encode hs, h, decode_encode ht]

/-! ### Texts of one byte a character -/

/-- A text whose characters are all of one byte. -/
def IsAscii (s : JsString) : Prop := ∀ u ∈ s, u < 0x80

instance : DecidablePred IsAscii := fun _ => inferInstanceAs (Decidable (∀ _ ∈ _, _))

theorem not_surrogate_of_isAscii (h : u < 0x80) : (isHigh u || isLow u) = false := by
  rw [UInt16.lt_iff_toNat_lt] at h
  have h80 : (0x80 : UInt16).toNat = 0x80 := rfl
  rw [not_surrogate_iff]
  omega

theorem codePoints_of_isAscii (h : IsAscii s) : codePoints s = s.map UInt16.toNat := by
  have hunit : ∀ u : UInt16, u < 0x80 → unitPoint u = u.toNat := fun u hu => by
    rw [unitPoint, not_surrogate_of_isAscii hu, if_neg Bool.false_ne_true]
  induction s using codePoints.induct with
  | case1 => rfl
  | case2 u => rw [codePoints, hunit u (h u List.mem_cons_self), List.map_singleton]
  | case3 u v rest hpair ih =>
    have hplain := not_surrogate_of_isAscii (h u List.mem_cons_self)
    rw [Bool.or_eq_false_iff] at hplain
    rw [hplain.1] at hpair
    cases hpair
  | case4 u v rest hpair ih =>
    rw [codePoints, if_neg hpair, hunit u (h u List.mem_cons_self),
      ih fun w hw => h w (List.mem_cons_of_mem _ hw)]
    rfl

/-- The bytes of such a text are its code units. -/
theorem encode_of_isAscii (h : IsAscii s) :
    encode s = s.map fun u => u.toNat.toUInt8 := by
  rw [encode, codePoints_of_isAscii h, List.flatMap_map]
  induction s with
  | nil => rfl
  | cons u s ih =>
    have hu : u.toNat < 0x80 := UInt16.lt_iff_toNat_lt.mp (h u List.mem_cons_self)
    rw [List.flatMap_cons, ih fun v hv => h v (List.mem_cons_of_mem _ hv), encodePoint, if_pos hu,
      List.singleton_append, List.map_cons]

theorem zero_notMem_encode (h : IsAscii s) (hzero : (0 : UInt16) ∉ s) :
    (0 : UInt8) ∉ encode s := by
  rw [encode_of_isAscii h]
  intro hmem
  obtain ⟨u, hu, heq⟩ := List.mem_map.mp hmem
  have hlt : u.toNat < 256 := Nat.lt_of_lt_of_le (UInt16.lt_iff_toNat_lt.mp (h u hu)) (by decide)
  have htoNat := congrArg UInt8.toNat heq
  rw [toNat_toUInt8 hlt] at htoNat
  have hu0 : u = 0 := UInt16.toNat_inj.mp htoNat
  exact hzero (hu0 ▸ hu)

end Utf8
