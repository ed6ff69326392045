import Handleplan.Lib.Json
import Handleplan.Lib.Utf8

/-!
# The size of JSON in bytes

How many bytes in UTF-8 a text has that is written in JSON, counted by the characters of the text.

## Main definitions

* `JsonBytes.unitBytes`, `JsonBytes.count` — the bytes of a code unit and of a text, written in
  JSON.

## Main results

* `JsonBytes.encode_append` — bytes of texts one after the other.
* `JsonBytes.length_encode_stringify` — a text in JSON has the bytes that are counted, and two more.
* `JsonBytes.length_encode_object` — the bytes of an object, by those of its members.
-/

namespace JsonBytes

open JsString JsonText Utf8

/-! ### Bytes of texts one after the other -/

section Append

variable {s t : JsString}

/-- A well-formed text is decoded by itself. -/
theorem codePoints_append (hs : isWellFormed s = true) :
    codePoints (s ++ t) = codePoints s ++ codePoints t := by
  induction s using codePoints.induct with
  | case1 => rfl
  | case2 u =>
    rw [isWellFormed, Bool.and_eq_true, Bool.not_eq_true', Bool.not_eq_true'] at hs
    cases t with
    | nil => rfl
    | cons v t =>
      have hpair : ¬ (isHigh u && isLow v) = true := by
        rw [hs.1, Bool.false_and]
        exact Bool.false_ne_true
      exact if_neg hpair
  | case3 u v rest hpair ih =>
    rw [isWellFormed, if_pos hpair] at hs
    rw [List.cons_append, List.cons_append, codePoints, if_pos hpair, codePoints, if_pos hpair, ih hs]
    rfl
  | case4 u v rest hpair ih =>
    rw [isWellFormed, if_neg hpair, Bool.and_eq_true] at hs
    have hrest := ih hs.2
    rw [List.cons_append] at hrest
    rw [List.cons_append, List.cons_append, codePoints, if_neg hpair, codePoints, if_neg hpair, hrest]
    rfl

/-- Bytes of texts one after the other. -/
theorem encode_append (hs : isWellFormed s = true) : encode (s ++ t) = encode s ++ encode t := by
  rw [encode, codePoints_append hs, List.flatMap_append]
  rfl

theorem length_encode_append (hs : isWellFormed s = true) :
    (encode (s ++ t)).length = (encode s).length + (encode t).length := by
  rw [encode_append hs, List.length_append]

theorem length_encode_of_isAscii (hs : IsAscii s) : (encode s).length = s.length := by
  rw [encode_of_isAscii hs, List.length_map]

theorem isWellFormed_of_isAscii (hs : IsAscii s) : isWellFormed s = true :=
  Json.isWellFormed_of_le fun u hu => UInt16.lt_trans (hs u hu) (by decide)

end Append

/-! ### Counting -/

/-- The bytes of a code unit that is written in JSON, unless it belongs to a pair of surrogates. -/
def unitBytes (u : UInt16) : ℕ :=
  if isHigh u || isLow u then 6
  else if u = 8 ∨ u = 9 ∨ u = 10 ∨ u = 12 ∨ u = 13 ∨ u = 34 ∨ u = 92 then 2
  else if u < 32 then 6
  else if u < 0x80 then 1
  else if u < 0x800 then 2
  else 3

/-- The bytes of a text that is written in JSON, without its quotation marks. -/
def count : JsString → ℕ
  | [] => 0
  | [u] => unitBytes u
  | u :: v :: rest =>
    if isHigh u && isLow v then 4 + count rest else unitBytes u + count (v :: rest)

theorem isAscii_digit36 : ∀ n < 16, digit36 n < 0x80 := by decide +kernel

theorem isAscii_unicodeEscape (u : UInt16) : IsAscii (unicodeEscape u) := by
  have hu := u.toNat_lt
  intro v hv
  simp only [unicodeEscape, List.mem_cons, List.not_mem_nil, or_false] at hv
  rcases hv with rfl | rfl | rfl | rfl | rfl | rfl
  · decide
  · decide
  all_goals exact isAscii_digit36 _ (by omega)

theorem length_encode_unicodeEscape (u : UInt16) : (encode (unicodeEscape u)).length = 6 :=
  length_encode_of_isAscii (isAscii_unicodeEscape u)

theorem length_encode_escape_of_mem :
    ∀ u ∈ escapedUnits, (encode (escape u)).length = unitBytes u := by decide +kernel

/-- The bytes of one code unit that is no surrogate. -/
theorem length_encode_escape {u : UInt16} (h : ¬ (isHigh u || isLow u) = true) :
    (encode (escape u)).length = unitBytes u := by
  by_cases hu : IsEscaped u
  · exact length_encode_escape_of_mem u (mem_escapedUnits hu)
  · obtain ⟨hlow, hquote, hback⟩ : ¬ u < 32 ∧ u ≠ 34 ∧ u ≠ 92 := by
      simpa only [IsEscaped, not_or] using hu
    have hshort : ¬ (u = 8 ∨ u = 9 ∨ u = 10 ∨ u = 12 ∨ u = 13 ∨ u = 34 ∨ u = 92) := by
      rintro (rfl | rfl | rfl | rfl | rfl | heq | heq)
      · exact hlow (by decide)
      · exact hlow (by decide)
      · exact hlow (by decide)
      · exact hlow (by decide)
      · exact hlow (by decide)
      · exact hquote heq
      · exact hback heq
    have hlt := u.toNat_lt
    rw [escape_of_not_isEscaped hu, unitBytes, if_neg h, if_neg hshort, if_neg hlow, encode, codePoints,
      List.flatMap_singleton, unitPoint, if_neg h, encodePoint]
    simp only [UInt16.lt_iff_toNat_lt]
    have h80 : (0x80 : UInt16).toNat = 0x80 := rfl
    have h800 : (0x800 : UInt16).toNat = 0x800 := rfl
    rw [h80, h800]
    split_ifs
    · rfl
    · rfl
    · rfl

/-- The bytes of a string are counted unit by unit. -/
theorem length_encode_stringifyUnits (s : JsString) :
    (encode (stringifyUnits s)).length = count s := by
  induction s using stringifyUnits.induct with
  | case1 => rfl
  | case2 u hsurrogate =>
    rw [stringifyUnits, if_pos hsurrogate, length_encode_unicodeEscape, count, unitBytes,
      if_pos hsurrogate]
  | case3 u hplain => rw [stringifyUnits, if_neg hplain, length_encode_escape hplain, count]
  | case4 u v rest hpair ih =>
    have hpoint := isScalar_pairPoint hpair
    have hge : 0x10000 ≤ pairPoint u v := by
      unfold pairPoint
      omega
    rw [stringifyUnits, if_pos hpair, count, if_pos hpair, ← ih, encode, codePoints, if_pos hpair,
      List.flatMap_cons, List.length_append, encodePoint, if_neg (by omega), if_neg (by omega),
      if_neg (by omega)]
    rfl
  | case5 u v rest hpair hsurrogate ih =>
    rw [stringifyUnits, if_neg hpair, if_pos hsurrogate,
      length_encode_append (Json.isWellFormed_unicodeEscape u), length_encode_unicodeEscape, ih, count,
      if_neg hpair, unitBytes, if_pos hsurrogate]
  | case6 u v rest hpair hplain ih =>
    rw [stringifyUnits, if_neg hpair, if_neg hplain,
      length_encode_append (Json.isWellFormed_escape hplain), length_encode_escape hplain, ih, count,
      if_neg hpair]

/-- **A text in JSON** has the bytes that are counted, and those of two quotation marks. -/
theorem length_encode_stringify (s : JsString) :
    (encode (JsonText.stringify s)).length = count s + 2 := by
  have hquote : IsAscii [34] := by decide
  rw [JsonText.stringify, ← List.singleton_append,
    length_encode_append (isWellFormed_of_isAscii hquote),
    length_encode_append (Json.isWellFormed_stringifyUnits s), length_encode_stringifyUnits,
    length_encode_of_isAscii hquote]
  show 1 + (count s + 1) = count s + 2
  omega

/-- A character that is written as one byte. -/
def IsPlain (u : UInt16) : Prop := 32 ≤ u ∧ u < 0x80 ∧ u ≠ 34 ∧ u ≠ 92

instance : DecidablePred IsPlain := fun _ => inferInstanceAs (Decidable (_ ∧ _ ∧ _ ∧ _))

theorem unitBytes_of_isPlain {u : UInt16} (h : IsPlain u) : unitBytes u = 1 := by
  obtain ⟨hlow, hascii, hquote, hback⟩ := h
  have hshort : ¬ (u = 8 ∨ u = 9 ∨ u = 10 ∨ u = 12 ∨ u = 13 ∨ u = 34 ∨ u = 92) := by
    rintro (rfl | rfl | rfl | rfl | rfl | heq | heq)
    · exact absurd hlow (by decide)
    · exact absurd hlow (by decide)
    · exact absurd hlow (by decide)
    · exact absurd hlow (by decide)
    · exact absurd hlow (by decide)
    · exact hquote heq
    · exact hback heq
  rw [unitBytes, not_surrogate_of_isAscii hascii, if_neg Bool.false_ne_true, if_neg hshort,
    if_neg (UInt16.not_lt.mpr hlow), if_pos hascii]

/-- A text of such characters has the bytes of its length. -/
theorem count_of_isPlain {s : JsString} (h : ∀ u ∈ s, IsPlain u) : count s = s.length := by
  induction s using count.induct with
  | case1 => rfl
  | case2 u => rw [count, unitBytes_of_isPlain (h u List.mem_cons_self), List.length_singleton]
  | case3 u v rest hpair ih =>
    have hplain := not_surrogate_of_isAscii (h u List.mem_cons_self).2.1
    rw [Bool.or_eq_false_iff] at hplain
    rw [hplain.1] at hpair
    cases hpair
  | case4 u v rest hpair ih =>
    rw [count, if_neg hpair, unitBytes_of_isPlain (h u List.mem_cons_self),
      ih fun w hw => h w (List.mem_cons_of_mem _ hw)]
    exact Nat.add_comm 1 _

/-! ### Objects -/

/-- The bytes of joined texts, and of the commas between. -/
theorem length_encode_joinWith {texts : List JsString} (hne : texts ≠ [])
    (h : ∀ text ∈ texts, isWellFormed text = true) :
    (encode (joinWith [44] texts)).length + 1 =
      (texts.map fun text => (encode text).length + 1).sum := by
  induction texts with
  | nil => exact absurd rfl hne
  | cons text texts ih =>
    have htext := h text List.mem_cons_self
    cases texts with
    | nil => rfl
    | cons second texts =>
      have hcomma : IsAscii [44] := by decide
      have hrest := ih (List.cons_ne_nil _ _) fun other hother =>
        h other (List.mem_cons_of_mem _ hother)
      rw [joinWith, List.append_assoc, length_encode_append htext,
        length_encode_append (isWellFormed_of_isAscii hcomma), length_encode_of_isAscii hcomma,
        List.map_cons, List.sum_cons, ← hrest, List.length_singleton]
      omega

/-- **The bytes of an object**: those of its members, with what separates them. -/
theorem length_encode_object {members : List (JsString × Json)} (hne : members ≠ [])
    (h : (Json.object members).DistinctKeys) :
    (encode (Json.object members).stringify).length =
      (members.map fun member => count member.1 + 4 + (encode member.2.stringify).length).sum + 1 := by
  have hopen : IsAscii [123] := by decide
  have hclose : (encode [125]).length = 1 := by decide
  cases h with
  | object hkeys hvalues =>
    have hcolon : IsAscii [58] := by decide
    have hmember : ∀ member ∈ members, isWellFormed (Json.memberText member) = true ∧
        (encode (Json.memberText member)).length + 1 =
          count member.1 + 4 + (encode member.2.stringify).length := by
      intro member hmember
      have hvalue := Json.isWellFormed_stringify (hvalues member hmember)
      refine ⟨Json.isWellFormed_append (Json.isWellFormed_text member.1)
        (Json.isWellFormed_cons (by decide) hvalue), ?_⟩
      rw [Json.memberText, length_encode_append (Json.isWellFormed_text member.1),
        length_encode_stringify, ← List.singleton_append,
        length_encode_append (isWellFormed_of_isAscii hcolon), length_encode_of_isAscii hcolon,
        List.length_singleton]
      omega
    have hall : ∀ text ∈ members.map Json.memberText, isWellFormed text = true := by
      intro text htext
      obtain ⟨member, hmem, rfl⟩ := List.mem_map.mp htext
      exact (hmember member hmem).1
    have hjoin := length_encode_joinWith (fun hnil => hne (List.map_eq_nil_iff.mp hnil)) hall
    rw [List.map_map] at hjoin
    rw [Json.stringify, Json.stringifyMembers_eq, ← List.singleton_append,
      length_encode_append (isWellFormed_of_isAscii hopen), length_encode_of_isAscii hopen,
      length_encode_append (Json.isWellFormed_joinWith hall), hclose,
      ← List.map_congr_left fun member hmem => (hmember member hmem).2, List.length_singleton]
    simp only [Function.comp_def] at hjoin
    omega

end JsonBytes
