import Handleplan.Lib.JsMap
import Handleplan.Lib.JsNumber
import Handleplan.Lib.JsonText
import Handleplan.Lib.Sorting

/-!
# JSON

Values of JSON, how they are written, and how a text is read as one.

## Main definitions

* `Json` — the values, with the members of an object in their order.
* `Json.stringify`, `Json.parse` — the text of a value, and the value of a text.
* `Json.DistinctKeys` — no object has two members of one key, as is the case of objects in memory.
* `Json.Same` — equal as JSON, whatever the order of the members of an object.
* `Json.sorted` — the same value with the members of objects in the order of their keys.

## Main results

* `Json.parse_stringify` — a value is read back from its text.
* `Json.sorted_eq_iff_same` — values are the same when they are equal once they are sorted.
* `Json.isWellFormed_stringify` — a text has no unpaired surrogates.
-/

open JsString JsonText Sorting

/-- A value of JSON. -/
inductive Json where
  | null
  | boolean (b : Bool)
  | number (n : JsNumber)
  | string (s : JsString)
  | array (items : List Json)
  | object (members : List (JsString × Json))

namespace Json

/-! ### Writing -/

mutual

/-- `JSON.stringify`. -/
def stringify : Json → JsString
  | .null => js "null"
  | .boolean b => if b then js "true" else js "false"
  | .number n => n.text
  | .string s => JsonText.stringify s
  | .array items => 91 :: (joinWith [44] (stringifyItems items) ++ [93])
  | .object members => 123 :: (joinWith [44] (stringifyMembers members) ++ [125])

/-- The texts of the items of an array. -/
def stringifyItems : List Json → List JsString
  | [] => []
  | item :: items => stringify item :: stringifyItems items

/-- The texts of the members of an object. -/
def stringifyMembers : List (JsString × Json) → List JsString
  | [] => []
  | (key, value) :: members =>
    (JsonText.stringify key ++ 58 :: stringify value) :: stringifyMembers members

end

/-! ### Reading -/

/-- A hexadecimal digit. -/
def hexDigit (u : UInt16) : Option ℕ :=
  if 48 ≤ u ∧ u ≤ 57 then some (u.toNat - 48)
  else if 97 ≤ u ∧ u ≤ 102 then some (u.toNat - 87)
  else if 65 ≤ u ∧ u ≤ 70 then some (u.toNat - 55)
  else none

/-- The code unit of four hexadecimal digits. -/
def hexUnit (a b c d : UInt16) : Option UInt16 :=
  (hexDigit a).bind fun a => (hexDigit b).bind fun b => (hexDigit c).bind fun c =>
    (hexDigit d).map fun d => (a * 4096 + b * 256 + c * 16 + d).toUInt16

/-- The code unit that is escaped by one character. -/
def escapedUnit (u : UInt16) : Option UInt16 :=
  if u = 34 ∨ u = 92 ∨ u = 47 then some u
  else if u = 98 then some 8
  else if u = 102 then some 12
  else if u = 110 then some 10
  else if u = 114 then some 13
  else if u = 116 then some 9
  else none

/-- A text up to its closing quotation mark, and what follows. -/
def readText : JsString → Option (JsString × JsString)
  | [] => none
  | [u] => if u = 34 then some ([], []) else none
  | 92 :: 117 :: a :: b :: c :: d :: rest =>
    (hexUnit a b c d).bind fun unit => (readText rest).map fun read => (unit :: read.1, read.2)
  | u :: v :: rest =>
    if u = 34 then some ([], v :: rest)
    else if u = 92 then
      (escapedUnit v).bind fun unit => (readText rest).map fun read => (unit :: read.1, read.2)
    else if u < 32 then none
    else (readText (v :: rest)).map fun read => (u :: read.1, read.2)

/-- White space between the parts of a text. -/
def isSpace (u : UInt16) : Bool := u = 32 ∨ u = 9 ∨ u = 10 ∨ u = 13

/-- A text without the white space at its beginning. -/
def skipSpace (s : JsString) : JsString := s.dropWhile isSpace

/-- A character of a literal or of a number. -/
def isScalarUnit (u : UInt16) : Bool := JsNumber.isNumberUnit u || decide (97 ≤ u ∧ u ≤ 122)

/-- A literal or a number. -/
def ofToken (token : JsString) : Option Json :=
  if token = js "null" then some .null
  else if token = js "true" then some (.boolean true)
  else if token = js "false" then some (.boolean false)
  else (JsNumber.read token).map .number

/-- A literal or a number at the beginning of a text. -/
def readScalar (s : JsString) : Option (Json × JsString) :=
  (ofToken (s.takeWhile isScalarUnit)).map fun value => (value, s.dropWhile isScalarUnit)

mutual

/-- A value at the beginning of a text, and what follows. -/
def readValue : ℕ → JsString → Option (Json × JsString)
  | 0, _ => none
  | fuel + 1, s =>
    match skipSpace s with
    | [] => none
    | u :: s =>
      if u = 34 then (readText s).map fun read => (.string read.1, read.2)
      else if u = 91 then
        match skipSpace s with
        | [] => none
        | v :: rest =>
          if v = 93 then some (.array [], rest)
          else (readItems fuel (v :: rest)).map fun read => (.array read.1, read.2)
      else if u = 123 then
        match skipSpace s with
        | [] => none
        | v :: rest =>
          if v = 125 then some (.object [], rest)
          else (readMembers fuel (v :: rest)).map fun read => (.object (JsMap.ofEntries read.1), read.2)
      else readScalar (u :: s)

/-- The items of an array, of which there is one, up to its closing bracket. -/
def readItems : ℕ → JsString → Option (List Json × JsString)
  | 0, _ => none
  | fuel + 1, s =>
    match readValue fuel s with
    | none => none
    | some (item, rest) =>
      match skipSpace rest with
      | 44 :: rest => (readItems fuel rest).map fun read => (item :: read.1, read.2)
      | 93 :: rest => some ([item], rest)
      | _ => none

/-- The members of an object, of which there is one, up to its closing brace. -/
def readMembers : ℕ → JsString → Option (List (JsString × Json) × JsString)
  | 0, _ => none
  | fuel + 1, s =>
    match skipSpace s with
    | 34 :: s =>
      match readText s with
      | none => none
      | some (key, rest) =>
        match skipSpace rest with
        | 58 :: rest =>
          match readValue fuel rest with
          | none => none
          | some (value, rest) =>
            match skipSpace rest with
            | 44 :: rest => (readMembers fuel rest).map fun read => ((key, value) :: read.1, read.2)
            | 125 :: rest => some ([(key, value)], rest)
            | _ => none
        | _ => none
    | _ => none

end

/-- `JSON.parse`. -/
def parse (s : JsString) : Option Json :=
  match readValue s.length s with
  | none => none
  | some (value, rest) => if skipSpace rest = [] then some value else none

/-! ### Values with distinct keys -/

/-- No object has two members of one key. -/
inductive DistinctKeys : Json → Prop
  | null : DistinctKeys .null
  | boolean (b : Bool) : DistinctKeys (.boolean b)
  | number (n : JsNumber) : DistinctKeys (.number n)
  | string (s : JsString) : DistinctKeys (.string s)
  | array {items : List Json} (h : ∀ item ∈ items, DistinctKeys item) : DistinctKeys (.array items)
  | object {members : List (JsString × Json)} (hkeys : (members.map Prod.fst).Nodup)
      (h : ∀ member ∈ members, DistinctKeys member.2) : DistinctKeys (.object members)

theorem stringifyItems_eq (items : List Json) : stringifyItems items = items.map stringify := by
  induction items with
  | nil => rfl
  | cons item items ih => rw [stringifyItems, ih, List.map_cons]

/-- The text of a member. -/
def memberText (member : JsString × Json) : JsString :=
  JsonText.stringify member.1 ++ 58 :: stringify member.2

theorem stringifyMembers_eq (members : List (JsString × Json)) :
    stringifyMembers members = members.map memberText := by
  induction members with
  | nil => rfl
  | cons member members ih =>
    obtain ⟨key, value⟩ := member
    rw [stringifyMembers, ih, List.map_cons, memberText]

/-! ### Reading texts -/

section Texts

variable {u : UInt16} {x : JsString}

theorem hexDigit_digit36 : ∀ n < 16, hexDigit (digit36 n) = some n := by decide +kernel

theorem hexUnit_eq (u : UInt16) :
    hexUnit (digit36 (u.toNat / 4096)) (digit36 (u.toNat / 256 % 16))
      (digit36 (u.toNat / 16 % 16)) (digit36 (u.toNat % 16)) = some u := by
  have hu := u.toNat_lt
  have hsum : u.toNat / 4096 * 4096 + u.toNat / 256 % 16 * 256 + u.toNat / 16 % 16 * 16 +
      u.toNat % 16 = u.toNat := by omega
  rw [hexUnit, hexDigit_digit36 _ (by omega), hexDigit_digit36 _ (by omega),
    hexDigit_digit36 _ (by omega), hexDigit_digit36 _ (by omega)]
  simp only [Option.bind_some, Option.map_some, hsum]
  exact congrArg some UInt16.ofNat_toNat

theorem readText_unicodeEscape (u : UInt16) (x : JsString) :
    readText (unicodeEscape u ++ x) = (readText x).map fun read => (u :: read.1, read.2) := by
  show readText (92 :: 117 :: digit36 (u.toNat / 4096) :: digit36 (u.toNat / 256 % 16) ::
    digit36 (u.toNat / 16 % 16) :: digit36 (u.toNat % 16) :: x) = _
  rw [readText, hexUnit_eq, Option.bind_some]

/-- Reading an escape of one character. -/
theorem readText_escaped {v unit : UInt16} (h : escapedUnit v = some unit) (x : JsString) :
    readText (92 :: v :: x) = (readText x).map fun read => (unit :: read.1, read.2) := by
  have hne : v ≠ 117 := by
    rintro rfl
    cases h
  conv_lhs => unfold readText
  split
  · rename_i heq
    cases heq
  · rename_i heq
    cases heq
  · rename_i heq
    exact absurd (List.cons.inj (List.cons.inj heq).2).1 hne
  · rename_i heq
    obtain ⟨rfl, hrest⟩ := List.cons.inj heq
    obtain ⟨rfl, rfl⟩ := List.cons.inj hrest
    rw [if_neg (by decide), if_pos rfl, h, Option.bind_some]

/-- Reading a code unit that is not escaped. -/
theorem readText_unescaped (h : ¬ IsEscaped u) {v : UInt16} {x : JsString} :
    readText (u :: v :: x) = (readText (v :: x)).map fun read => (u :: read.1, read.2) := by
  obtain ⟨hlow, hquote, hback⟩ : ¬ u < 32 ∧ u ≠ 34 ∧ u ≠ 92 := by
    simpa only [IsEscaped, not_or] using h
  conv_lhs => unfold readText
  split
  · rename_i heq
    cases heq
  · rename_i heq
    cases heq
  · rename_i heq
    exact absurd (List.cons.inj heq).1 hback
  · rename_i heq
    obtain ⟨rfl, hrest⟩ := List.cons.inj heq
    obtain ⟨rfl, rfl⟩ := List.cons.inj hrest
    rw [if_neg hquote, if_neg hback, if_neg hlow]

/-- Reading what one code unit is written as. -/
theorem readText_escape (u : UInt16) {x : JsString} (hx : x ≠ []) :
    readText (escape u ++ x) = (readText x).map fun read => (u :: read.1, read.2) := by
  obtain ⟨v, x, rfl⟩ := List.exists_cons_of_ne_nil hx
  by_cases hu : IsEscaped u
  · unfold escape
    split_ifs with h8 h9 h10 h12 h13 h34 h92 h32
    · exact readText_escaped (h8 ▸ rfl) _
    · exact readText_escaped (h9 ▸ rfl) _
    · exact readText_escaped (h10 ▸ rfl) _
    · exact readText_escaped (h12 ▸ rfl) _
    · exact readText_escaped (h13 ▸ rfl) _
    · exact readText_escaped (by rw [h34]; rfl) _
    · exact readText_escaped (by rw [h92]; rfl) _
    · exact readText_unicodeEscape u _
    · rcases hu with hu | hu | hu
      · exact absurd hu h32
      · exact absurd hu h34
      · exact absurd hu h92
  · rw [escape_of_not_isEscaped hu]
    exact readText_unescaped hu

/-- **A text is read up to its quotation mark.** -/
theorem readText_stringifyUnits (s rest : JsString) :
    readText (stringifyUnits s ++ 34 :: rest) = some (s, rest) := by
  have hquote : readText (34 :: rest) = some ([], rest) := by
    cases rest with
    | nil => rfl
    | cons v rest =>
      rw [readText, if_pos rfl]
      exact fun _ _ _ _ _ h _ _ => absurd h (by decide)
  have hne (x : JsString) : x ++ 34 :: rest ≠ [] := by simp
  induction s using stringifyUnits.induct with
  | case1 => exact hquote
  | case2 u hsurrogate =>
    rw [stringifyUnits, if_pos hsurrogate, readText_unicodeEscape, hquote]
    rfl
  | case3 u hplain =>
    rw [stringifyUnits, if_neg hplain, readText_escape u (List.cons_ne_nil _ _), hquote]
    rfl
  | case4 u v x hpair ih =>
    rw [Bool.and_eq_true] at hpair
    rw [stringifyUnits, if_pos (by rw [hpair.1, hpair.2]; rfl)]
    obtain ⟨w, y, hy⟩ := List.exists_cons_of_ne_nil (hne (stringifyUnits x))
    rw [List.cons_append, List.cons_append,
      readText_unescaped (not_isEscaped_of_surrogate (.inl hpair.1)), hy,
      readText_unescaped (not_isEscaped_of_surrogate (.inr hpair.2)), ← hy, ih]
    rfl
  | case5 u v x hpair hsurrogate ih =>
    rw [stringifyUnits, if_neg hpair, if_pos hsurrogate, List.append_assoc, readText_unicodeEscape,
      ih]
    rfl
  | case6 u v x hpair hplain ih =>
    rw [stringifyUnits, if_neg hpair, if_neg hplain, List.append_assoc,
      readText_escape u (hne _), ih]
    rfl

end Texts

/-! ### Reading literals and numbers -/

/-- What may follow a literal or a number. -/
def Delimits (rest : JsString) : Prop := ∀ u ∈ rest.head?, isScalarUnit u = false

theorem readScalar_append {token rest : JsString} {value : Json}
    (hunits : ∀ u ∈ token, isScalarUnit u = true) (hrest : Delimits rest)
    (htoken : ofToken token = some value) :
    readScalar (token ++ rest) = some (value, rest) := by
  have htake : rest.takeWhile isScalarUnit = [] := by
    cases rest with
    | nil => rfl
    | cons u rest => exact List.takeWhile_cons_of_neg (Bool.eq_false_iff.mp (hrest u rfl))
  have hdrop : rest.dropWhile isScalarUnit = rest := by
    cases rest with
    | nil => rfl
    | cons u rest => exact List.dropWhile_cons_of_neg (Bool.eq_false_iff.mp (hrest u rfl))
  rw [readScalar, List.takeWhile_append_of_pos hunits, List.dropWhile_append_of_pos hunits, htake,
    hdrop, List.append_nil, htoken]
  rfl

theorem ofToken_text (n : JsNumber) : ofToken n.text = some (.number n) := by
  obtain ⟨first, rest, htext, hfirst, -⟩ := n.text_spec
  have hne (token : JsString) (hhead : ∀ u ∈ token.head?, 57 < u) : n.text ≠ token := by
    rintro rfl
    have hlt := hhead first (by rw [htext]; rfl)
    rcases hfirst with ⟨-, hle⟩ | rfl
    · exact absurd hle (UInt16.not_le.mpr hlt)
    · exact absurd hlt (by decide)
  rw [ofToken, if_neg (hne _ (by decide)), if_neg (hne _ (by decide)), if_neg (hne _ (by decide)),
    n.read_text]
  rfl

/-! ### A value is read back -/

section Values

variable {u : UInt16} {s rest : JsString} {fuel : ℕ} {value : Json}

theorem skipSpace_cons (h : isSpace u = false) : skipSpace (u :: s) = u :: s :=
  List.dropWhile_cons_of_neg (Bool.eq_false_iff.mp h)

theorem delimits_cons (h : isScalarUnit u = false) : Delimits (u :: s) :=
  fun _ hv => Option.some.inj hv ▸ h

/-- A character of a literal or a number is no white space, and begins no other value. -/
theorem isScalarUnit_spec (h : isScalarUnit u = true) :
    isSpace u = false ∧ u ≠ 34 ∧ u ≠ 91 ∧ u ≠ 123 ∧ u ≠ 93 := by
  refine ⟨Bool.eq_false_iff.mpr fun hspace => ?_, ?_, ?_, ?_, ?_⟩
  · rcases of_decide_eq_true hspace with rfl | rfl | rfl | rfl
    all_goals exact absurd h (by decide)
  all_goals
    rintro rfl
    exact absurd h (by decide)

/-- Reading a literal or a number. -/
theorem readValue_scalar {token : JsString} (hne : token ≠ [])
    (hunits : ∀ v ∈ token, isScalarUnit v = true) (hrest : Delimits rest)
    (htoken : ofToken token = some value) :
    readValue (fuel + 1) (token ++ rest) = some (value, rest) := by
  have hread := readScalar_append hunits hrest htoken
  obtain ⟨first, token, rfl⟩ := List.exists_cons_of_ne_nil hne
  obtain ⟨hspace, hquote, hbracket, hbrace, -⟩ := isScalarUnit_spec (hunits first List.mem_cons_self)
  rw [List.cons_append] at hread ⊢
  rw [readValue, skipSpace_cons hspace]
  dsimp only
  rw [if_neg hquote, if_neg hbracket, if_neg hbrace, hread]

/-- Reading a text. -/
theorem readValue_text (t : JsString) :
    readValue (fuel + 1) (JsonText.stringify t ++ rest) = some (.string t, rest) := by
  rw [JsonText.stringify, List.cons_append, List.append_assoc, List.singleton_append, readValue,
    skipSpace_cons (by decide)]
  dsimp only
  rw [if_pos rfl, readText_stringifyUnits]
  rfl

/-- How the text of a value begins. -/
theorem stringify_eq_cons (value : Json) :
    ∃ first rest, stringify value = first :: rest ∧ isSpace first = false ∧ first ≠ 93 := by
  cases value with
  | null => exact ⟨110, _, rfl, by decide, by decide⟩
  | boolean b =>
    cases b with
    | true => exact ⟨116, _, rfl, by decide, by decide⟩
    | false => exact ⟨102, _, rfl, by decide, by decide⟩
  | number n =>
    obtain ⟨first, rest, htext, -, hunits⟩ := n.text_spec
    have hfirst : isScalarUnit first = true := by
      rw [isScalarUnit, hunits first (htext ▸ List.mem_cons_self), Bool.true_or]
    obtain ⟨hspace, -, -, -, hne⟩ := isScalarUnit_spec hfirst
    exact ⟨first, rest, htext, hspace, hne⟩
  | string s => exact ⟨34, _, rfl, by decide, by decide⟩
  | array items => exact ⟨91, _, rfl, by decide, by decide⟩
  | object members => exact ⟨123, _, rfl, by decide, by decide⟩

/-- A value is read back from its text, whatever follows that may follow it. -/
def ReadsBack (value : Json) : Prop :=
  ∀ fuel rest, (stringify value).length ≤ fuel → Delimits rest →
    readValue fuel (stringify value ++ rest) = some (value, rest)

/-- **Items are read back**, when each of them is. -/
theorem readItems_stringify {items : List Json} (hne : items ≠ [])
    (h : ∀ item ∈ items, ReadsBack item)
    (hfuel : (joinWith [44] (items.map stringify)).length + 1 ≤ fuel) :
    readItems fuel (joinWith [44] (items.map stringify) ++ 93 :: rest) = some (items, rest) := by
  induction items generalizing fuel with
  | nil => exact absurd rfl hne
  | cons item items ih =>
    obtain ⟨fuel, rfl⟩ := Nat.exists_eq_add_of_lt (Nat.lt_of_lt_of_le (Nat.succ_pos _) hfuel)
    rw [Nat.zero_add] at hfuel ⊢
    cases items with
    | nil =>
      have hread := h item List.mem_cons_self fuel (93 :: rest) (Nat.le_of_succ_le_succ hfuel)
        (delimits_cons (by decide))
      rw [List.map_singleton, joinWith, readItems, hread]
      dsimp only
      rw [skipSpace_cons (by decide)]
      rfl
    | cons second items =>
      obtain ⟨tail, htail⟩ : ∃ tail, tail = joinWith [44] ((second :: items).map stringify) :=
        ⟨_, rfl⟩
      have hjoin : joinWith [44] ((item :: second :: items).map stringify) =
          stringify item ++ 44 :: tail := by
        rw [htail, List.map_cons, List.map_cons, joinWith, List.append_assoc]
        rfl
      rw [hjoin, List.length_append, List.length_cons] at hfuel
      have hread := h item List.mem_cons_self fuel (44 :: (tail ++ 93 :: rest)) (by omega)
        (delimits_cons (by decide))
      have htailFuel : (joinWith [44] ((second :: items).map stringify)).length + 1 ≤ fuel := by
        rw [← htail]
        obtain ⟨first, text, htext, -⟩ := stringify_eq_cons item
        rw [htext, List.length_cons] at hfuel
        omega
      have hrest := ih (List.cons_ne_nil _ _) (fun other hother =>
        h other (List.mem_cons_of_mem _ hother)) htailFuel
      rw [← htail] at hrest
      rw [hjoin, List.append_assoc, List.cons_append, readItems, hread]
      dsimp only
      rw [skipSpace_cons (by decide)]
      show (readItems fuel (tail ++ 93 :: rest)).map _ = _
      rw [hrest]
      rfl

/-- Reading a member, when its value is read back. -/
theorem readMembers_memberText {key x : JsString}
    (hread : readValue fuel (stringify value ++ x) = some (value, x)) :
    readMembers (fuel + 1) (memberText (key, value) ++ x) =
      match skipSpace x with
      | 44 :: rest => (readMembers fuel rest).map fun read => ((key, value) :: read.1, read.2)
      | 125 :: rest => some ([(key, value)], rest)
      | _ => none := by
  have hkey : memberText (key, value) ++ x =
      34 :: (stringifyUnits key ++ 34 :: 58 :: (stringify value ++ x)) := by
    simp only [memberText, JsonText.stringify, List.cons_append, List.append_assoc,
      List.nil_append]
  rw [hkey, readMembers, skipSpace_cons (by decide)]
  show (match readText _ with | none => none | some (key, rest) => _) = _
  rw [readText_stringifyUnits]
  dsimp only
  rw [skipSpace_cons (by decide)]
  show (match readValue fuel _ with | none => none | some (value, rest) => _) = _
  rw [hread]

/-- **Members are read back**, when each of their values is. -/
theorem readMembers_stringify {members : List (JsString × Json)} (hne : members ≠ [])
    (h : ∀ member ∈ members, ReadsBack member.2)
    (hfuel : (joinWith [44] (members.map memberText)).length + 1 ≤ fuel) :
    readMembers fuel (joinWith [44] (members.map memberText) ++ 125 :: rest) =
      some (members, rest) := by
  induction members generalizing fuel with
  | nil => exact absurd rfl hne
  | cons member members ih =>
    obtain ⟨fuel, rfl⟩ := Nat.exists_eq_add_of_lt (Nat.lt_of_lt_of_le (Nat.succ_pos _) hfuel)
    rw [Nat.zero_add] at hfuel ⊢
    obtain ⟨key, value⟩ := member
    have hvalue : ReadsBack value := h (key, value) List.mem_cons_self
    have hlength : (memberText (key, value)).length =
        (stringifyUnits key).length + (stringify value).length + 3 := by
      simp only [memberText, JsonText.stringify, List.length_append, List.length_cons,
        List.length_nil]
      omega
    cases members with
    | nil =>
      rw [List.map_singleton, joinWith] at hfuel ⊢
      rw [hlength] at hfuel
      have hread := hvalue fuel (125 :: rest) (by omega) (delimits_cons (by decide))
      rw [readMembers_memberText hread, skipSpace_cons (by decide)]
      rfl
    | cons second members =>
      obtain ⟨tail, htail⟩ : ∃ tail, tail = joinWith [44] ((second :: members).map memberText) :=
        ⟨_, rfl⟩
      have hjoin : joinWith [44] (((key, value) :: second :: members).map memberText) =
          memberText (key, value) ++ 44 :: tail := by
        rw [htail, List.map_cons, List.map_cons, joinWith, List.append_assoc]
        rfl
      rw [hjoin, List.length_append, List.length_cons, hlength] at hfuel
      have hread := hvalue fuel (44 :: (tail ++ 125 :: rest)) (by omega) (delimits_cons (by decide))
      have htailFuel : (joinWith [44] ((second :: members).map memberText)).length + 1 ≤ fuel := by
        rw [← htail]
        omega
      have hrest := ih (List.cons_ne_nil _ _) (fun other hother =>
        h other (List.mem_cons_of_mem _ hother)) htailFuel
      rw [← htail] at hrest
      rw [hjoin, List.append_assoc, List.cons_append, readMembers_memberText hread,
        skipSpace_cons (by decide)]
      show (readMembers fuel (tail ++ 125 :: rest)).map _ = _
      rw [hrest]
      rfl

/-- The text of a value is not empty, so that there is fuel for its first character. -/
theorem readsBack_of_succ (h : ∀ fuel rest, (stringify value).length ≤ fuel + 1 → Delimits rest →
    readValue (fuel + 1) (stringify value ++ rest) = some (value, rest)) : ReadsBack value := by
  intro fuel rest hfuel hrest
  obtain ⟨first, tail, htext, -⟩ := stringify_eq_cons value
  cases fuel with
  | zero =>
    rw [htext] at hfuel
    cases hfuel
  | succ fuel => exact h fuel rest hfuel hrest

/-- A joined text begins as its first part. -/
theorem exists_joinWith_append_eq_cons (first : UInt16) (text : JsString) (texts : List JsString)
    (rest : JsString) : ∃ tail, joinWith [44] ((first :: text) :: texts) ++ rest = first :: tail := by
  cases texts with
  | nil => exact ⟨_, rfl⟩
  | cons second texts => exact ⟨_, rfl⟩

/-- **A value with distinct keys is read back from its text.** -/
theorem readsBack_of_distinctKeys (h : value.DistinctKeys) : ReadsBack value := by
  induction h with
  | null =>
    refine readsBack_of_succ fun fuel rest _ hrest => ?_
    exact readValue_scalar (by decide) (by decide) hrest rfl
  | boolean b =>
    refine readsBack_of_succ fun fuel rest _ hrest => ?_
    cases b with
    | true => exact readValue_scalar (by decide) (by decide) hrest rfl
    | false => exact readValue_scalar (by decide) (by decide) hrest rfl
  | number n =>
    refine readsBack_of_succ fun fuel rest _ hrest => ?_
    obtain ⟨first, tail, htext, -, hunits⟩ := n.text_spec
    have hne : n.text ≠ [] := htext ▸ List.cons_ne_nil _ _
    refine readValue_scalar hne (fun u hu => ?_) hrest (ofToken_text n)
    rw [isScalarUnit, hunits u hu, Bool.true_or]
  | string t =>
    exact readsBack_of_succ fun fuel rest _ _ => readValue_text t
  | @array items _ ih =>
    refine readsBack_of_succ fun fuel rest hfuel _ => ?_
    rw [stringify, stringifyItems_eq] at hfuel ⊢
    rw [List.cons_append, List.append_assoc, List.singleton_append, readValue,
      skipSpace_cons (by decide)]
    dsimp only
    rw [if_neg (by decide), if_pos rfl]
    cases items with
    | nil =>
      rw [List.map_nil, joinWith, List.nil_append, skipSpace_cons (by decide)]
      exact if_pos rfl
    | cons item items =>
      have hread : readItems fuel (joinWith [44] ((item :: items).map stringify) ++ 93 :: rest) =
          some (item :: items, rest) := by
        refine readItems_stringify (List.cons_ne_nil item items) ih ?_
        rw [List.length_cons, List.length_append, List.length_singleton] at hfuel
        exact Nat.le_of_succ_le_succ hfuel
      obtain ⟨first, text, htext, hspace, hne⟩ := stringify_eq_cons item
      obtain ⟨tail, htail⟩ :=
        exists_joinWith_append_eq_cons first text (items.map stringify) (93 :: rest)
      rw [← htext, ← List.map_cons] at htail
      rw [htail] at hread ⊢
      rw [skipSpace_cons hspace]
      dsimp only
      rw [if_neg hne, hread]
      rfl
  | @object members hkeys _ ih =>
    refine readsBack_of_succ fun fuel rest hfuel _ => ?_
    rw [stringify, stringifyMembers_eq] at hfuel ⊢
    rw [List.cons_append, List.append_assoc, List.singleton_append, readValue,
      skipSpace_cons (by decide)]
    dsimp only
    rw [if_neg (by decide), if_neg (by decide), if_pos rfl]
    cases members with
    | nil =>
      rw [List.map_nil, joinWith, List.nil_append, skipSpace_cons (by decide)]
      exact if_pos rfl
    | cons member members =>
      have hread : readMembers fuel (joinWith [44] ((member :: members).map memberText) ++
          125 :: rest) = some (member :: members, rest) := by
        refine readMembers_stringify (List.cons_ne_nil member members) ih ?_
        rw [List.length_cons, List.length_append, List.length_singleton] at hfuel
        exact Nat.le_of_succ_le_succ hfuel
      obtain ⟨tail, htail⟩ : ∃ tail, joinWith [44] ((member :: members).map memberText) ++
          125 :: rest = 34 :: tail :=
        exists_joinWith_append_eq_cons 34 _ (members.map memberText) (125 :: rest)
      rw [htail] at hread ⊢
      rw [skipSpace_cons (by decide)]
      dsimp only
      rw [if_neg (by decide), hread, Option.map_some, JsMap.ofEntries_of_nodup hkeys]

/-- **A value with distinct keys is parsed back from its text.** -/
theorem parse_stringify (h : value.DistinctKeys) : parse (stringify value) = some value := by
  have hread := readsBack_of_distinctKeys h (stringify value).length [] le_rfl
    fun _ hu => absurd hu (by simp)
  rw [List.append_nil] at hread
  rw [parse, hread]
  exact if_pos rfl

/-- Values with distinct keys are not written alike. -/
theorem stringify_injOn {other : Json} (h : value.DistinctKeys) (hother : other.DistinctKeys)
    (heq : stringify value = stringify other) : value = other := by
  have hparse := parse_stringify h
  rw [heq, parse_stringify hother] at hparse
  exact (Option.some.inj hparse).symm

end Values

/-! ### Equal as JSON -/

/-- Equal as JSON: items in their order, members whatever their order. -/
inductive Same : Json → Json → Prop
  | null : Same .null .null
  | boolean (b : Bool) : Same (.boolean b) (.boolean b)
  | number (n : JsNumber) : Same (.number n) (.number n)
  | string (s : JsString) : Same (.string s) (.string s)
  | array {items items' : List Json} (hlength : items.length = items'.length)
      (h : ∀ pair ∈ items.zip items', Same pair.1 pair.2) : Same (.array items) (.array items')
  | object {members members' : List (JsString × Json)}
      (hkeys : ∀ key, key ∈ members.map Prod.fst ↔ key ∈ members'.map Prod.fst)
      (h : ∀ member ∈ members, ∀ member' ∈ members', member.1 = member'.1 →
        Same member.2 member'.2) : Same (.object members) (.object members')

mutual

/-- The same value, with the members of objects in the order of their keys. -/
def sorted : Json → Json
  | .null => .null
  | .boolean b => .boolean b
  | .number n => .number n
  | .string s => .string s
  | .array items => .array (sortedItems items)
  | .object members => .object (sortBy (on Prod.fst compareText) (sortedMembers members))

/-- The items of an array, sorted themselves. -/
def sortedItems : List Json → List Json
  | [] => []
  | item :: items => sorted item :: sortedItems items

/-- The members of an object, with values that are sorted. -/
def sortedMembers : List (JsString × Json) → List (JsString × Json)
  | [] => []
  | (key, value) :: members => (key, sorted value) :: sortedMembers members

end

theorem sortedItems_eq (items : List Json) : sortedItems items = items.map sorted := by
  induction items with
  | nil => rfl
  | cons item items ih => rw [sortedItems, ih, List.map_cons]

theorem sortedMembers_eq (members : List (JsString × Json)) :
    sortedMembers members = members.map fun member => (member.1, sorted member.2) := by
  induction members with
  | nil => rfl
  | cons member members ih => rw [sortedMembers, ih, List.map_cons]

theorem keys_sortedMembers (members : List (JsString × Json)) :
    (sortedMembers members).map Prod.fst = members.map Prod.fst := by
  rw [sortedMembers_eq, List.map_map]
  rfl

section Sorted

variable {value other : Json}

/-- Sorting keeps the keys distinct. -/
theorem DistinctKeys.sorted (h : value.DistinctKeys) : value.sorted.DistinctKeys := by
  induction h with
  | null => exact .null
  | boolean b => exact .boolean b
  | number n => exact .number n
  | string s => exact .string s
  | @array items _ ih =>
    rw [Json.sorted, sortedItems_eq]
    refine .array fun item hitem => ?_
    obtain ⟨item, hmem, rfl⟩ := List.mem_map.mp hitem
    exact ih item hmem
  | @object members hkeys _ ih =>
    rw [Json.sorted]
    have hperm := sortBy_perm (on Prod.fst compareText) (sortedMembers members)
    refine .object ?_ fun member hmember => ?_
    · rw [(hperm.map Prod.fst).nodup_iff, keys_sortedMembers]
      exact hkeys
    · rw [mem_sortBy, sortedMembers_eq] at hmember
      obtain ⟨member, hmem, rfl⟩ := List.mem_map.mp hmember
      exact ih member hmem

section

variable (hvalue : value.DistinctKeys)

include hvalue

/-- What is equal once it is sorted is the same. -/
theorem same_of_sorted_eq (hother : other.DistinctKeys)
    (h : value.sorted = other.sorted) : Same value other := by
  induction hvalue generalizing other with
  | null =>
    cases hother with
    | null => exact .null
    | _ => simp only [Json.sorted, reduceCtorEq] at h
  | boolean b =>
    cases hother with
    | boolean b' =>
      simp only [Json.sorted, Json.boolean.injEq] at h
      exact h ▸ .boolean b
    | _ => simp only [Json.sorted, reduceCtorEq] at h
  | number n =>
    cases hother with
    | number n' =>
      simp only [Json.sorted, Json.number.injEq] at h
      exact h ▸ .number n
    | _ => simp only [Json.sorted, reduceCtorEq] at h
  | string s =>
    cases hother with
    | string s' =>
      simp only [Json.sorted, Json.string.injEq] at h
      exact h ▸ .string s
    | _ => simp only [Json.sorted, reduceCtorEq] at h
  | @array items hitems ih =>
    cases hother with
    | @array items' hitems' =>
      simp only [Json.sorted, Json.array.injEq, sortedItems_eq] at h
      have hlength : items.length = items'.length := by
        have hmap := congrArg List.length h
        rwa [List.length_map, List.length_map] at hmap
      refine .array hlength fun pair hpair => ?_
      obtain ⟨hleft, hright⟩ := List.of_mem_zip hpair
      obtain ⟨i, hi, hget⟩ := List.getElem_of_mem hpair
      have heq := congrArg (·[i]?) h
      rw [List.length_zip] at hi
      simp only [List.getElem?_map, List.getElem?_eq_getElem (lt_of_lt_of_le hi (min_le_left _ _)),
        List.getElem?_eq_getElem (lt_of_lt_of_le hi (min_le_right _ _)), Option.map_some,
        Option.some.injEq] at heq
      rw [List.getElem_zip] at hget
      rw [← hget] at hleft hright ⊢
      exact ih _ hleft (hitems' _ hright) heq
    | _ => simp only [Json.sorted, reduceCtorEq] at h
  | @object members hkeys hmembers ih =>
    cases hother with
    | @object members' hkeys' hmembers' =>
      simp only [Json.sorted, Json.object.injEq] at h
      have hperm : (sortedMembers members).Perm (sortedMembers members') := by
        have hsorted := (sortBy_perm (on Prod.fst compareText) (sortedMembers members)).symm
        rw [h] at hsorted
        exact hsorted.trans (sortBy_perm _ _)
      refine .object (fun key => ?_) fun member hmember member' hmember' hkey => ?_
      · rw [← keys_sortedMembers members, ← keys_sortedMembers members']
        exact (hperm.map Prod.fst).mem_iff
      · have hmem : (member.1, member.2.sorted) ∈ sortedMembers members' := by
          rw [← hperm.mem_iff, sortedMembers_eq]
          exact List.mem_map_of_mem hmember
        rw [sortedMembers_eq] at hmem
        obtain ⟨found, hfound, heq⟩ := List.mem_map.mp hmem
        obtain ⟨hfoundKey, hfoundValue⟩ := Prod.mk.inj heq
        rw [List.inj_on_of_nodup_map hkeys' hfound hmember' (hfoundKey.trans hkey)] at hfoundValue
        exact ih member hmember (hmembers' member' hmember') hfoundValue.symm
    | _ => simp only [Json.sorted, reduceCtorEq] at h

/-- What is the same is equal once it is sorted. -/
theorem sorted_eq_of_same (hother : other.DistinctKeys)
    (h : Same value other) : value.sorted = other.sorted := by
  induction h with
  | null => rfl
  | boolean b => rfl
  | number n => rfl
  | string s => rfl
  | @array items items' hlength _ ih =>
    cases hvalue with
    | array hitems =>
      cases hother with
      | array hitems' =>
        rw [Json.sorted, Json.sorted, sortedItems_eq, sortedItems_eq]
        refine congrArg Json.array (List.ext_getElem (by simpa using hlength) fun i hi hi' => ?_)
        rw [List.length_map] at hi hi'
        rw [List.getElem_map, List.getElem_map]
        have hpair : (items[i], items'[i]) ∈ items.zip items' := by
          have hzip : i < (items.zip items').length := by
            rw [List.length_zip]
            exact lt_min hi hi'
          have hget : (items.zip items')[i] = (items[i], items'[i]) := List.getElem_zip
          exact hget ▸ List.getElem_mem hzip
        exact ih _ hpair (hitems _ (List.getElem_mem hi)) (hitems' _ (List.getElem_mem hi'))
  | @object members members' hsame _ ih =>
    cases hvalue with
    | object hkeys hmembers =>
      cases hother with
      | object hkeys' hmembers' =>
        rw [Json.sorted, Json.sorted]
        have hnodup : (sortedMembers members).Nodup :=
          List.Nodup.of_map Prod.fst ((keys_sortedMembers members).symm ▸ hkeys)
        have hnodup' : (sortedMembers members').Nodup :=
          List.Nodup.of_map Prod.fst ((keys_sortedMembers members').symm ▸ hkeys')
        refine congrArg Json.object (sortBy_eq_of_perm ?_ fun a ha b hb heq => ?_)
        · refine (List.perm_ext_iff_of_nodup hnodup hnodup').mpr fun entry => ?_
          rw [sortedMembers_eq, sortedMembers_eq, List.mem_map, List.mem_map]
          constructor
          · rintro ⟨member, hmember, rfl⟩
            obtain ⟨member', hmember', hkey⟩ := List.mem_map.mp
              ((hsame member.1).mp (List.mem_map_of_mem hmember))
            refine ⟨member', hmember', Prod.ext hkey ?_⟩
            exact (ih member hmember member' hmember' hkey.symm (hmembers member hmember)
              (hmembers' member' hmember')).symm
          · rintro ⟨member', hmember', rfl⟩
            obtain ⟨member, hmember, hkey⟩ := List.mem_map.mp
              ((hsame member'.1).mpr (List.mem_map_of_mem hmember'))
            refine ⟨member, hmember, Prod.ext hkey ?_⟩
            exact ih member hmember member' hmember' hkey (hmembers member hmember)
              (hmembers' member' hmember')
        · have hkeysMap := keys_sortedMembers members
          exact List.inj_on_of_nodup_map (hkeysMap.symm ▸ hkeys) ha hb (on_eq_iff.mp heq)

/-- **Values are the same** when they are equal once they are sorted. -/
theorem sorted_eq_iff_same (hother : other.DistinctKeys) :
    value.sorted = other.sorted ↔ Same value other :=
  ⟨same_of_sorted_eq hvalue hother, sorted_eq_of_same hvalue hother⟩

/-- **Values are written alike**, once they are sorted, when they are the same. -/
theorem stringify_sorted_eq_iff (hother : other.DistinctKeys) :
    value.sorted.stringify = other.sorted.stringify ↔ Same value other := by
  rw [← sorted_eq_iff_same hvalue hother]
  exact ⟨stringify_injOn hvalue.sorted hother.sorted, congrArg stringify⟩

end

end Sorted

/-! ### Texts without unpaired surrogates -/

section Surrogates

variable {s t : JsString}

/-- Well-formed texts are well formed together. -/
theorem isWellFormed_append (hs : isWellFormed s = true) (ht : isWellFormed t = true) :
    isWellFormed (s ++ t) = true := by
  induction s using isWellFormed.induct with
  | case1 => exact ht
  | case2 u =>
    rw [isWellFormed, Bool.and_eq_true, Bool.not_eq_true', Bool.not_eq_true'] at hs
    cases t with
    | nil =>
      rw [List.append_nil, isWellFormed, hs.1, hs.2]
      rfl
    | cons v t =>
      rw [List.singleton_append, isWellFormed, hs.1, hs.2, ht]
      rfl
  | case3 u v rest hpair ih =>
    rw [isWellFormed, if_pos hpair] at hs
    rw [List.cons_append, List.cons_append, isWellFormed, if_pos hpair]
    exact ih hs
  | case4 u v rest hpair ih =>
    rw [isWellFormed, if_neg hpair, Bool.and_eq_true] at hs
    rw [List.cons_append, List.cons_append, isWellFormed, if_neg hpair, hs.1, Bool.true_and]
    exact ih hs.2

theorem isWellFormed_of_le (h : ∀ u ∈ s, u < 0xD800) : isWellFormed s = true := by
  refine isWellFormed_of_forall fun u hu => ⟨?_, ?_⟩
  · exact Bool.and_eq_false_imp.mpr fun hle =>
      absurd (of_decide_eq_true hle) (UInt16.not_le.mpr (h u hu))
  · refine Bool.and_eq_false_imp.mpr fun hle => absurd (of_decide_eq_true hle) ?_
    exact UInt16.not_le.mpr (UInt16.lt_trans (h u hu) (by decide))

theorem digit36_lt : ∀ n < 16, digit36 n < 0xD800 := by decide +kernel

theorem isWellFormed_unicodeEscape (u : UInt16) : isWellFormed (unicodeEscape u) = true := by
  have hu := u.toNat_lt
  refine isWellFormed_of_le fun v hv => ?_
  simp only [unicodeEscape, List.mem_cons, List.not_mem_nil, or_false] at hv
  rcases hv with rfl | rfl | rfl | rfl | rfl | rfl
  · decide
  · decide
  all_goals exact digit36_lt _ (by omega)

theorem isWellFormed_escape_of_mem : ∀ u ∈ escapedUnits, isWellFormed (escape u) = true := by
  decide +kernel

theorem isWellFormed_escape {u : UInt16} (h : ¬ (isHigh u || isLow u) = true) :
    isWellFormed (escape u) = true := by
  by_cases hu : IsEscaped u
  · exact isWellFormed_escape_of_mem u (mem_escapedUnits hu)
  · rw [Bool.or_eq_true, not_or, Bool.not_eq_true, Bool.not_eq_true] at h
    rw [escape_of_not_isEscaped hu, isWellFormed, h.1, h.2]
    rfl

/-- A string is written well formed. -/
theorem isWellFormed_stringifyUnits (s : JsString) : isWellFormed (stringifyUnits s) = true := by
  induction s using stringifyUnits.induct with
  | case1 => rfl
  | case2 u hsurrogate =>
    rw [stringifyUnits, if_pos hsurrogate]
    exact isWellFormed_unicodeEscape u
  | case3 u hplain =>
    rw [stringifyUnits, if_neg hplain]
    exact isWellFormed_escape hplain
  | case4 u v rest hpair ih =>
    rw [stringifyUnits, if_pos hpair, isWellFormed, if_pos hpair]
    exact ih
  | case5 u v rest hpair hsurrogate ih =>
    rw [stringifyUnits, if_neg hpair, if_pos hsurrogate]
    exact isWellFormed_append (isWellFormed_unicodeEscape u) ih
  | case6 u v rest hpair hplain ih =>
    rw [stringifyUnits, if_neg hpair, if_neg hplain]
    exact isWellFormed_append (isWellFormed_escape hplain) ih

theorem isWellFormed_cons {u : UInt16} (hu : u < 0xD800) (hs : isWellFormed s = true) :
    isWellFormed (u :: s) = true :=
  isWellFormed_append (s := [u]) (isWellFormed_of_le fun _ hv => List.mem_singleton.mp hv ▸ hu) hs

theorem isWellFormed_text (s : JsString) : isWellFormed (JsonText.stringify s) = true :=
  isWellFormed_cons (by decide) (isWellFormed_append (isWellFormed_stringifyUnits s) (by decide))

theorem isWellFormed_joinWith {texts : List JsString} (h : ∀ text ∈ texts, isWellFormed text = true) :
    isWellFormed (joinWith [44] texts) = true := by
  induction texts with
  | nil => rfl
  | cons text texts ih =>
    have htext := h text List.mem_cons_self
    have hrest := ih fun other hother => h other (List.mem_cons_of_mem _ hother)
    cases texts with
    | nil => exact htext
    | cons second texts =>
      rw [joinWith, List.append_assoc]
      exact isWellFormed_append htext (isWellFormed_append (by decide) hrest)

/-- **The text of a value has no unpaired surrogates.** -/
theorem isWellFormed_stringify {value : Json} (h : value.DistinctKeys) :
    isWellFormed value.stringify = true := by
  induction h with
  | null => decide
  | boolean b =>
    cases b with
    | true => decide
    | false => decide
  | number n =>
    obtain ⟨-, -, -, -, hunits⟩ := n.text_spec
    refine isWellFormed_of_le fun u hu => ?_
    have hunit := of_decide_eq_true (hunits u hu)
    rcases hunit with ⟨-, hle⟩ | rfl | rfl | rfl | rfl | rfl
    · exact UInt16.lt_of_le_of_lt hle (by decide)
    all_goals decide
  | string s => exact isWellFormed_text s
  | @array items _ ih =>
    rw [stringify, stringifyItems_eq]
    refine isWellFormed_cons (by decide) (isWellFormed_append (isWellFormed_joinWith ?_) (by decide))
    intro text htext
    obtain ⟨item, hitem, rfl⟩ := List.mem_map.mp htext
    exact ih item hitem
  | @object members _ _ ih =>
    rw [stringify, stringifyMembers_eq]
    refine isWellFormed_cons (by decide) (isWellFormed_append (isWellFormed_joinWith ?_) (by decide))
    intro text htext
    obtain ⟨member, hmember, rfl⟩ := List.mem_map.mp htext
    exact isWellFormed_append (isWellFormed_text member.1)
      (isWellFormed_cons (by decide) (ih member hmember))

end Surrogates

end Json
