import Handleplan.Lib.JsString

/-!
# Texts inside JSON

How a text is written between quotation marks, by `JSON.stringify` and by a database that escapes
what it must and nothing else, and that such texts can be read back.

## Main definitions

* `JsonText.quote` — a text between quotation marks, each code unit by itself.
* `JsonText.stringify` — `JSON.stringify` of a text, which also escapes unpaired surrogates.
* `JsonText.IsStorable` — the text can be stored by a database of Unicode texts.

## Main results

* `JsonText.stringify_eq_quote` — without unpaired surrogates both write a text alike.
* `JsonText.quote_append_inj` — a quoted text is split off in one way only.
* `JsonText.joinWith_quote_inj` — a list of quoted texts is read back.
-/

namespace JsonText

open JsString

/-! ### Escaping -/

/-- `\u` and four hexadecimal digits. -/
def unicodeEscape (u : UInt16) : JsString :=
  [92, 117, digit36 (u.toNat / 4096), digit36 (u.toNat / 256 % 16), digit36 (u.toNat / 16 % 16),
    digit36 (u.toNat % 16)]

/-- A code unit inside quotation marks. -/
def escape (u : UInt16) : JsString :=
  if u = 8 then [92, 98]
  else if u = 9 then [92, 116]
  else if u = 10 then [92, 110]
  else if u = 12 then [92, 102]
  else if u = 13 then [92, 114]
  else if u = 34 then [92, 34]
  else if u = 92 then [92, 92]
  else if u < 32 then unicodeEscape u
  else [u]

/-- A text between quotation marks. -/
def quote (s : JsString) : JsString := 34 :: (s.flatMap escape ++ [34])

/-! ### Surrogates -/

/-- A leading surrogate. -/
def isHigh (u : UInt16) : Bool := 0xD800 ≤ u && u ≤ 0xDBFF

/-- A trailing surrogate. -/
def isLow (u : UInt16) : Bool := 0xDC00 ≤ u && u ≤ 0xDFFF

/-- All surrogates come in pairs. -/
def isWellFormed : JsString → Bool
  | [] => true
  | [u] => !isHigh u && !isLow u
  | u :: v :: rest =>
    if isHigh u && isLow v then isWellFormed rest
    else !isHigh u && !isLow u && isWellFormed (v :: rest)

/-- The text can be stored by a database whose texts are Unicode texts without null character. -/
def IsStorable (s : JsString) : Prop := isWellFormed s = true ∧ 0 ∉ s

instance : DecidablePred IsStorable := fun _ => inferInstanceAs (Decidable (_ ∧ _))

/-- Without surrogates there are no unpaired ones. -/
theorem isWellFormed_of_forall {s : JsString} (h : ∀ u ∈ s, isHigh u = false ∧ isLow u = false) :
    isWellFormed s = true := by
  induction s using isWellFormed.induct with
  | case1 => rfl
  | case2 u =>
    obtain ⟨hhigh, hlow⟩ := h u List.mem_cons_self
    rw [isWellFormed, hhigh, hlow]
    rfl
  | case3 u v rest hpair ih =>
    rw [(h u List.mem_cons_self).1] at hpair
    cases hpair
  | case4 u v rest hpair ih =>
    obtain ⟨hhigh, hlow⟩ := h u List.mem_cons_self
    rw [isWellFormed, if_neg hpair, ih fun w hw => h w (List.mem_cons_of_mem _ hw), hhigh, hlow]
    rfl

/-- The code units of `JSON.stringify`, between the quotation marks. -/
def stringifyUnits : JsString → JsString
  | [] => []
  | [u] => if isHigh u || isLow u then unicodeEscape u else escape u
  | u :: v :: rest =>
    if isHigh u && isLow v then u :: v :: stringifyUnits rest
    else if isHigh u || isLow u then unicodeEscape u ++ stringifyUnits (v :: rest)
    else escape u ++ stringifyUnits (v :: rest)

/-- `JSON.stringify` of a text. -/
def stringify (s : JsString) : JsString := 34 :: (stringifyUnits s ++ [34])

/-- `JSON.stringify` of a list, of whose entries the texts are given. -/
def stringifyList (entries : List JsString) : JsString := 91 :: (joinWith [44] entries ++ [93])

/-! ### Writing alike -/

/-- What is escaped. -/
def IsEscaped (u : UInt16) : Prop := u < 32 ∨ u = 34 ∨ u = 92

instance : DecidablePred IsEscaped := fun _ => inferInstanceAs (Decidable (_ ∨ _ ∨ _))

theorem escape_of_not_isEscaped {u : UInt16} (h : ¬ IsEscaped u) : escape u = [u] := by
  obtain ⟨hlow, hquote, hback⟩ : ¬ u < 32 ∧ u ≠ 34 ∧ u ≠ 92 := by
    simpa only [IsEscaped, not_or] using h
  have hne : ∀ v : UInt16, v < 32 → u ≠ v := fun v hv heq => hlow (heq ▸ hv)
  unfold escape
  rw [if_neg (hne 8 (by decide)), if_neg (hne 9 (by decide)), if_neg (hne 10 (by decide)),
    if_neg (hne 12 (by decide)), if_neg (hne 13 (by decide)), if_neg hquote, if_neg hback,
    if_neg hlow]

theorem not_isEscaped_of_surrogate {u : UInt16} (h : isHigh u = true ∨ isLow u = true) :
    ¬ IsEscaped u := by
  have hle : 0xD800 ≤ u.toNat := by
    simp only [isHigh, isLow, Bool.and_eq_true, decide_eq_true_eq, UInt16.le_iff_toNat_le] at h
    rcases h with ⟨hlow, -⟩ | ⟨hlow, -⟩
    · exact hlow
    · exact le_trans (by decide) hlow
  rintro (hlow | rfl | rfl)
  · rw [UInt16.lt_iff_toNat_lt] at hlow
    have h32 : (32 : UInt16).toNat = 32 := rfl
    omega
  · exact absurd hle (by decide)
  · exact absurd hle (by decide)

/-- A well-formed text is escaped unit by unit. -/
theorem stringifyUnits_eq (s : JsString) (h : isWellFormed s = true) :
    stringifyUnits s = s.flatMap escape := by
  induction s using stringifyUnits.induct with
  | case1 => rfl
  | case2 u hsurrogate =>
    rw [isWellFormed, Bool.and_eq_true, Bool.not_eq_true', Bool.not_eq_true'] at h
    rw [h.1, h.2] at hsurrogate
    cases hsurrogate
  | case3 u hplain =>
    rw [stringifyUnits, if_neg hplain]
    simp
  | case4 u v rest hpair ih =>
    rw [isWellFormed, if_pos hpair] at h
    rw [Bool.and_eq_true] at hpair
    rw [stringifyUnits, if_pos (by rw [hpair.1, hpair.2]; rfl), ih h, List.flatMap_cons,
      List.flatMap_cons, escape_of_not_isEscaped (not_isEscaped_of_surrogate (.inl hpair.1)),
      escape_of_not_isEscaped (not_isEscaped_of_surrogate (.inr hpair.2))]
    rfl
  | case5 u v rest hpair hsurrogate =>
    rw [isWellFormed, if_neg hpair, Bool.and_eq_true, Bool.and_eq_true, Bool.not_eq_true',
      Bool.not_eq_true'] at h
    rw [h.1.1, h.1.2] at hsurrogate
    cases hsurrogate
  | case6 u v rest hpair hplain ih =>
    rw [isWellFormed, if_neg hpair, Bool.and_eq_true] at h
    rw [stringifyUnits, if_neg hpair, if_neg hplain, ih h.2]
    rfl

/-- **Without unpaired surrogates** `JSON.stringify` escapes each code unit by itself. -/
theorem stringify_eq_quote {s : JsString} (h : isWellFormed s = true) : stringify s = quote s := by
  rw [stringify, quote, stringifyUnits_eq s h]

/-! ### Reading back -/

/-- The code units that are escaped. -/
def escapedUnits : List UInt16 := (List.range 32).map Nat.toUInt16 ++ [34, 92]

theorem mem_escapedUnits {u : UInt16} (h : IsEscaped u) : u ∈ escapedUnits := by
  rcases h with hlow | rfl | rfl
  · refine List.mem_append_left _ (List.mem_map.mpr ⟨u.toNat, ?_, UInt16.ofNat_toNat⟩)
    exact List.mem_range.mpr (UInt16.lt_iff_toNat_lt.mp hlow)
  · decide
  · decide

theorem head?_escape_of_mem : ∀ u ∈ escapedUnits, (escape u).head? = some 92 := by decide

theorem eq_of_escape_prefix_of_mem :
    ∀ u ∈ escapedUnits, ∀ v ∈ escapedUnits, escape u <+: escape v → u = v := by decide +kernel

/-- What a code unit becomes begins with a backslash, or is the unit itself. -/
theorem escape_cases (u : UInt16) :
    (IsEscaped u ∧ ∃ rest, escape u = 92 :: rest) ∨ (¬ IsEscaped u ∧ escape u = [u]) := by
  by_cases h : IsEscaped u
  · have hhead := head?_escape_of_mem u (mem_escapedUnits h)
    cases hescape : escape u with
    | nil =>
      rw [hescape] at hhead
      cases hhead
    | cons first rest =>
      rw [hescape] at hhead
      obtain rfl : first = 92 := Option.some.inj hhead
      exact .inl ⟨h, rest, rfl⟩
  · exact .inr ⟨h, escape_of_not_isEscaped h⟩

/-- No code unit is written as the beginning of what another is written as. -/
theorem escape_append_inj {u v : UInt16} {x y : JsString}
    (h : escape u ++ x = escape v ++ y) : u = v ∧ x = y := by
  have hunit : u = v := by
    rcases escape_cases u with ⟨hu, tail, hut⟩ | ⟨hu, hut⟩ <;>
      rcases escape_cases v with ⟨hv, tail', hvt⟩ | ⟨hv, hvt⟩
    · -- both begin with a backslash, and one is a beginning of the other
      have hmemU := mem_escapedUnits hu
      have hmemV := mem_escapedUnits hv
      rcases List.prefix_or_prefix_of_prefix (List.prefix_append (escape u) x)
        (h ▸ List.prefix_append (escape v) y) with huv | hvu
      · exact eq_of_escape_prefix_of_mem u hmemU v hmemV huv
      · exact (eq_of_escape_prefix_of_mem v hmemV u hmemU hvu).symm
    · rw [hut, hvt] at h
      exact absurd (.inr (.inr (List.cons.inj h).1.symm)) hv
    · rw [hut, hvt] at h
      exact absurd (.inr (.inr (List.cons.inj h).1)) hu
    · rw [hut, hvt] at h
      exact (List.cons.inj h).1
  subst hunit
  exact ⟨rfl, List.append_cancel_left h⟩

/-- Nothing is written with a quotation mark at its beginning. -/
theorem escape_append_ne {u : UInt16} {x y : JsString} : escape u ++ x ≠ 34 :: y := by
  intro h
  rcases escape_cases u with ⟨-, tail, hut⟩ | ⟨hu, hut⟩
  · rw [hut] at h
    exact absurd (List.cons.inj h).1 (by decide)
  · rw [hut] at h
    exact hu (.inr (.inl (List.cons.inj h).1))

/-- An escaped text ends at its quotation mark. -/
theorem flatMap_escape_append_inj {s s' x y : JsString}
    (h : s.flatMap escape ++ 34 :: x = s'.flatMap escape ++ 34 :: y) : s = s' ∧ x = y := by
  induction s generalizing s' with
  | nil =>
    cases s' with
    | nil => exact ⟨rfl, (List.cons.inj h).2⟩
    | cons v s' =>
      rw [List.flatMap_cons, List.append_assoc] at h
      exact absurd h.symm escape_append_ne
  | cons u s ih =>
    rw [List.flatMap_cons, List.append_assoc] at h
    cases s' with
    | nil => exact absurd h escape_append_ne
    | cons v s' =>
      rw [List.flatMap_cons, List.append_assoc] at h
      obtain ⟨rfl, hrest⟩ := escape_append_inj h
      obtain ⟨rfl, rfl⟩ := ih hrest
      exact ⟨rfl, rfl⟩

/-- **A quoted text is split off in one way only.** -/
theorem quote_append_inj {s s' x y : JsString} (h : quote s ++ x = quote s' ++ y) :
    s = s' ∧ x = y := by
  unfold quote at h
  rw [List.cons_append, List.cons_append, List.append_assoc, List.append_assoc] at h
  exact flatMap_escape_append_inj (List.cons.inj h).2

/-- **A list of quoted texts is read back**, once its length is known. -/
theorem joinWith_quote_inj {sep : JsString} {l l' : List JsString} (hlength : l.length = l'.length)
    (h : joinWith sep (l.map quote) = joinWith sep (l'.map quote)) : l = l' := by
  induction l generalizing l' with
  | nil => exact (List.length_eq_zero_iff.mp hlength.symm).symm
  | cons s l ih =>
    cases l' with
    | nil => cases hlength
    | cons s' l' =>
      have hlength' : l.length = l'.length := Nat.succ.inj hlength
      cases l with
      | nil =>
        obtain rfl := List.length_eq_zero_iff.mp hlength'.symm
        have hquote : quote s ++ [] = quote s' ++ [] := congrArg (· ++ []) h
        rw [(quote_append_inj hquote).1]
      | cons t l =>
        cases l' with
        | nil => cases hlength'
        | cons t' l' =>
          simp only [List.map_cons, joinWith, List.append_assoc] at h
          obtain ⟨rfl, hrest⟩ := quote_append_inj h
          rw [ih hlength' (List.append_cancel_left hrest)]

end JsonText
