import Mathlib.Data.List.DropRight
import Mathlib.Data.Nat.Digits.Lemmas

/-!
# JavaScript strings

Strings as JavaScript has them: lists of UTF-16 code units, compared code unit by code unit, whose
length is the number of code units.

## Main definitions

* `JsString`, `js` — code unit lists, and the encoding of a literal.
* `JsString.compareText` — the order of the operator `<`.
* `JsString.trim` — removal of leading and trailing white space.
* `JsString.ofNat`, `JsString.toString36` — numbers as decimal and base-36 texts.
* `JsString.joinWith` — `Array.prototype.join`.
* `JsString.Collation` — the order of texts in a database.

## Main results

* `JsString.trim_eq_self` — a text without white space is its own trimmed form.
* `JsString.length_toString36_le` — a 32-bit number has at most seven base-36 digits.
* `JsString.trim_trim` — trimming twice is trimming once.
* `JsString.compareText_joinWith` — texts joined by null characters are compared as lists.
* `JsString.append_sep_inj` — a separator that the heads lack splits a joined text uniquely.

## Design

Code unit lists instead of Lean's `String`: a JavaScript string may hold unpaired surrogates, and
the order of code units is not the order of code points.
-/

/-- A JavaScript string: its UTF-16 code units. -/
abbrev JsString := List UInt16

/-- The UTF-16 code units of a literal. -/
def js (s : String) : JsString :=
  s.toList.flatMap fun c =>
    if c.toNat < 0x10000 then [c.toNat.toUInt16]
    else
      let v := c.toNat - 0x10000
      [(0xD800 + v / 0x400).toUInt16, (0xDC00 + v % 0x400).toUInt16]

namespace JsString

instance instLawfulBEqJsString : LawfulBEq JsString := List.instLawfulBEq

/-- What is asked of each code unit of a text is decided along the text, and not over all code
units. -/
instance decidableForallMem (s : JsString) (p : UInt16 → Prop) [DecidablePred p] :
    Decidable (∀ u ∈ s, p u) := List.decidableBAll p s

instance decidableForallMemOption (o : Option UInt16) (p : UInt16 → Prop) [DecidablePred p] :
    Decidable (∀ u ∈ o, p u) := Option.decidableForallMem o

/-! ### Order -/

/-- The order of the operator `<`: code unit by code unit. -/
def compareText (left right : JsString) : Ordering := compare left right

instance : Std.TransCmp compareText := inferInstanceAs (Std.TransCmp (compare (α := JsString)))

instance : Std.LawfulEqCmp compareText :=
  inferInstanceAs (Std.LawfulEqCmp (compare (α := JsString)))

theorem compareText_eq_iff {a b : JsString} : compareText a b = .eq ↔ a = b :=
  Std.LawfulEqCmp.compare_eq_iff_eq

/-! ### Trimming -/

/-- White space and line terminators, as `trim` and `\s` have them. -/
def isSpace (u : UInt16) : Bool :=
  (9 ≤ u && u ≤ 13) || u == 32 || u == 0xA0 || u == 0x1680 || (0x2000 ≤ u && u ≤ 0x200A) ||
    u == 0x2028 || u == 0x2029 || u == 0x202F || u == 0x205F || u == 0x3000 || u == 0xFEFF

/-- `String.prototype.trim`. -/
def trim (s : JsString) : JsString := (s.dropWhile isSpace).rdropWhile isSpace

/-- A text that neither begins nor ends with white space is its own trimmed form. -/
theorem trim_eq_self {s : JsString} (h : ∀ u ∈ s, isSpace u = false) : trim s = s := by
  have hdrop : s.dropWhile isSpace = s := by
    cases s with
    | nil => rfl
    | cons u s => simp [h u (by simp)]
  rw [trim, hdrop, List.rdropWhile_eq_self_iff]
  intro hne
  simp [h _ (List.getLast_mem hne)]

/-- The prefix of a text that drops white space at its end begins as the text does. -/
theorem dropWhile_rdropWhile {s : JsString} (h : s.dropWhile isSpace = s) :
    (s.rdropWhile isSpace).dropWhile isSpace = s.rdropWhile isSpace := by
  rw [List.dropWhile_eq_self_iff] at h ⊢
  intro hpos
  have hbegin := List.rdropWhile_prefix isSpace s
  rw [hbegin.getElem hpos]
  exact h _

/-- A trimmed text is its own trimmed form. -/
theorem trim_trim (s : JsString) : trim (trim s) = trim s := by
  have hdrop : (trim s).dropWhile isSpace = trim s :=
    dropWhile_rdropWhile (List.dropWhile_idempotent _ _)
  calc trim (trim s) = ((trim s).dropWhile isSpace).rdropWhile isSpace := rfl
    _ = (trim s).rdropWhile isSpace := by rw [hdrop]
    _ = trim s := List.rdropWhile_idempotent _ _

/-! ### Numbers as texts -/

/-- The decimal text of a non-negative integer. -/
def ofNat (n : ℕ) : JsString := (Nat.toDigits 10 n).map fun c => c.toNat.toUInt16

/-- The decimal digits are those of ASCII. -/
theorem toNat_of_mem_toDigits {c : Char} {n : ℕ} (h : c ∈ Nat.toDigits 10 n) :
    48 ≤ c.toNat ∧ c.toNat ≤ 57 :=
  Char.isDigit_iff_toNat.mp (Nat.isDigit_of_mem_toDigits (by omega) (by omega) h)

theorem mem_ofNat {u : UInt16} {n : ℕ} (h : u ∈ ofNat n) : 48 ≤ u ∧ u ≤ 57 := by
  obtain ⟨c, hc, rfl⟩ := List.mem_map.mp h
  obtain ⟨hlow, hhigh⟩ := toNat_of_mem_toDigits hc
  have htoNat : (c.toNat.toUInt16).toNat = c.toNat := UInt16.toNat_ofNat_of_lt' (hhigh.trans_lt (by decide))
  simp only [UInt16.le_iff_toNat_le, htoNat]
  exact ⟨hlow, hhigh⟩

/-- A number is read back from its decimal text. -/
theorem ofNat_injective : Function.Injective ofNat := by
  intro n n' heq
  have hback : ∀ n, (ofNat n).map (fun u => Char.ofNat u.toNat) = Nat.toDigits 10 n := by
    intro n
    rw [ofNat, List.map_map]
    conv_rhs => rw [← List.map_id (Nat.toDigits 10 n)]
    refine List.map_congr_left fun c hc => ?_
    have hhigh := (toNat_of_mem_toDigits hc).2
    have htoNat : (c.toNat.toUInt16).toNat = c.toNat :=
      UInt16.toNat_ofNat_of_lt' (hhigh.trans_lt (by decide))
    simp only [Function.comp, id, htoNat]
    exact Char.ofNat_toNat c
  have hdigits := (hback n).symm.trans ((congrArg _ heq).trans (hback n'))
  rw [← Nat.ofDigitChars_ten_toDigits (n := n), hdigits, Nat.ofDigitChars_ten_toDigits]

/-- A base-36 digit. -/
def digit36 (d : ℕ) : UInt16 := if d < 10 then (48 + d).toUInt16 else (87 + d).toUInt16

/-- Base-36 digits, most significant first, of a number below `36 ^ fuel`. -/
def digits36 : ℕ → ℕ → List ℕ
  | 0, _ => []
  | fuel + 1, n => if n < 36 then [n] else digits36 fuel (n / 36) ++ [n % 36]

/-- `Number.prototype.toString(36)` of a 32-bit unsigned number. -/
def toString36 (n : UInt32) : JsString := (digits36 7 n.toNat).map digit36

theorem length_digits36_le (fuel n : ℕ) : (digits36 fuel n).length ≤ fuel := by
  induction fuel generalizing n with
  | zero => simp [digits36]
  | succ fuel ih =>
    by_cases h : n < 36
    · simp [digits36, h]
    · have := ih (n / 36)
      simp only [digits36, h, if_false, List.length_append, List.length_singleton]
      omega

/-- A 32-bit number has at most seven base-36 digits. -/
theorem length_toString36_le (n : UInt32) : (toString36 n).length ≤ 7 := by
  simpa [toString36] using length_digits36_le 7 n.toNat

theorem digits36_lt (fuel n : ℕ) : ∀ d ∈ digits36 fuel n, d < 36 := by
  induction fuel generalizing n with
  | zero => simp [digits36]
  | succ fuel ih =>
    intro d hd
    by_cases h : n < 36
    · simp only [digits36, h, if_true, List.mem_singleton] at hd
      omega
    · simp only [digits36, h, if_false, List.mem_append, List.mem_singleton] at hd
      rcases hd with hd | rfl
      · exact ih _ d hd
      · exact Nat.mod_lt _ (by norm_num)

theorem isSpace_toString36 (n : UInt32) : ∀ u ∈ toString36 n, isSpace u = false := by
  intro u hu
  obtain ⟨d, hd, rfl⟩ := List.mem_map.mp hu
  have hlt := digits36_lt 7 n.toNat d hd
  have hall : ∀ d < 36, isSpace (digit36 d) = false := by decide
  exact hall d hlt

theorem zero_notMem_toString36 (n : UInt32) : (0 : UInt16) ∉ toString36 n := by
  intro hzero
  obtain ⟨d, hd, heq⟩ := List.mem_map.mp hzero
  have hlt := digits36_lt 7 n.toNat d hd
  have hall : ∀ d < 36, digit36 d ≠ 0 := by decide
  exact hall d hlt heq

/-! ### Joining -/

/-- `Array.prototype.join`. -/
def joinWith (sep : JsString) : List JsString → JsString
  | [] => []
  | [s] => s
  | s :: t :: rest => s ++ sep ++ joinWith sep (t :: rest)

/-- A separator that neither head contains splits a joined text in one way only. -/
theorem append_sep_inj {u : UInt16} {a b c d : JsString} (ha : u ∉ a) (hb : u ∉ b)
    (h : a ++ u :: c = b ++ u :: d) : a = b ∧ c = d := by
  induction a generalizing b with
  | nil =>
    cases b with
    | nil => simpa using h
    | cons x b =>
      simp only [List.nil_append, List.cons_append, List.cons.injEq] at h
      exact absurd (h.1 ▸ List.mem_cons_self) hb
  | cons x a ih =>
    cases b with
    | nil =>
      simp only [List.nil_append, List.cons_append, List.cons.injEq] at h
      exact absurd (h.1 ▸ List.mem_cons_self) ha
    | cons y b =>
      simp only [List.cons_append, List.cons.injEq] at h
      obtain ⟨rfl, h⟩ := h
      obtain ⟨rfl, rfl⟩ := ih (fun hm => ha (List.mem_cons_of_mem _ hm))
        (fun hm => hb (List.mem_cons_of_mem _ hm)) h
      exact ⟨rfl, rfl⟩

/-- Behind a null character two texts are compared as the pair of their parts, when the first parts
have none. -/
theorem compareText_append_zero {a b c d : JsString} (ha : 0 ∉ a) (hb : 0 ∉ b) :
    compareText (a ++ 0 :: c) (b ++ 0 :: d) = (compareText a b).then (compareText c d) := by
  have hzero : ∀ u : UInt16, u ≠ 0 → compare 0 u = .lt ∧ compare u 0 = .gt := by
    intro u hu
    have hlt : (0 : UInt16) < u := UInt16.pos_iff_ne_zero.mpr hu
    exact ⟨Std.compare_eq_lt.mpr hlt, Std.compare_eq_gt.mpr hlt⟩
  unfold compareText
  induction a generalizing b with
  | nil =>
    cases b with
    | nil => simp [List.compare_cons_cons]
    | cons u b =>
      have hu : u ≠ 0 := fun h => hb (h ▸ List.mem_cons_self)
      simp [List.compare_cons_cons, (hzero u hu).1]
  | cons u a ih =>
    have hu : u ≠ 0 := fun h => ha (h ▸ List.mem_cons_self)
    cases b with
    | nil => simp [List.compare_cons_cons, (hzero u hu).2]
    | cons v b =>
      rw [List.cons_append, List.cons_append, List.compare_cons_cons, List.compare_cons_cons,
        ih (fun h => ha (List.mem_cons_of_mem _ h)) (fun h => hb (List.mem_cons_of_mem _ h)),
        Ordering.then_assoc]

/-- **Texts joined by null characters are compared as the lists of them**, as long as these are
equally long and have no null character. -/
theorem compareText_joinWith {l l' : List JsString} (hlength : l.length = l'.length)
    (hl : ∀ s ∈ l, 0 ∉ s) (hl' : ∀ s ∈ l', 0 ∉ s) :
    compareText (joinWith [0] l) (joinWith [0] l') = compare l l' := by
  induction l generalizing l' with
  | nil =>
    obtain rfl := List.length_eq_zero_iff.mp hlength.symm
    rfl
  | cons s l ih =>
    cases l' with
    | nil => cases hlength
    | cons s' l' =>
      obtain ⟨hs, hrest⟩ := List.forall_mem_cons.mp hl
      obtain ⟨hs', hrest'⟩ := List.forall_mem_cons.mp hl'
      have hlength' : l.length = l'.length := Nat.succ.inj hlength
      have hlist := ih hlength' hrest hrest'
      rw [List.compare_cons_cons, ← hlist]
      cases l with
      | nil =>
        obtain rfl := List.length_eq_zero_iff.mp hlength'.symm
        cases hcompare : compareText s s' <;> simp_all [joinWith, compareText]
      | cons t l =>
        cases l' with
        | nil => cases hlength'
        | cons t' l' =>
          simp only [joinWith, List.append_assoc, List.singleton_append]
          exact compareText_append_zero hs hs'

/-! ### Orders of texts -/

/-- An order of texts, as the collation of a database is: any total order. -/
structure Collation where
  compare : JsString → JsString → Ordering
  transCmp : Std.TransCmp compare
  lawfulEqCmp : Std.LawfulEqCmp compare

instance (collation : Collation) : Std.TransCmp collation.compare := collation.transCmp

instance (collation : Collation) : Std.LawfulEqCmp collation.compare := collation.lawfulEqCmp

/-- The order of code units. -/
def Collation.codeUnits : Collation := ⟨compareText, inferInstance, inferInstance⟩

end JsString
