import Handleplan.Lib.Choices
import Handleplan.Lib.Delimited
import Handleplan.Worker.MenyOffers

/-!
# What the MENY parser reads

A price is sound when the numeral it is read from is a complete one of its block, and neither the
price before nor a price per kilo or litre. The parser looks back and ahead through windows of a few
characters, and not at what stands before the digits it matches: the theorem says on which pages all
candidates are sound and the envelope is accepted.

## Main definitions

* `Meny.Numeral` — a numeral in its block.
* `Meny.PriceSound`, `Meny.PackageSound` — what is demanded of a candidate.
* `Meny.ReadableBlock` — the blocks of which the candidates meet it.

## Main results

* `Meny.priceSound_iff` — when the price of a block is sound.
* `Meny.isSome_extract_iff` — when the envelope is accepted.
* `Meny.parseMenyOffers_sound_iff` — when the parser is total and sound on all pages.
-/

namespace Handleplan.Meny

open JsString TextSearch DecimalText
open CivilTime (number)

/-! ### Numerals -/

/-- A numeral in its block: a whole part, a space or a comma, and a fraction. -/
structure Numeral where
  before : JsString
  whole : JsString
  separator : UInt16
  fraction : JsString
  after : JsString

/-- A text of digits. -/
def AllDigits (s : JsString) : Prop := ∀ u ∈ s, isDigit u = true

namespace Numeral

/-- The block. -/
def text (n : Numeral) : JsString := n.before ++ (n.whole ++ n.separator :: (n.fraction ++ n.after))

/-- The amount. -/
def value (n : Numeral) : ℕ := number n.whole * 100 + number n.fraction

/-- The digits of a numeral. -/
structure WellFormed (n : Numeral) : Prop where
  whole : n.whole ≠ [] ∧ AllDigits n.whole
  separator : n.separator = 32 ∨ n.separator = 44
  fraction : n.fraction.length = 2 ∧ AllDigits n.fraction

/-- No digit stands before a numeral or after it. -/
def Complete (n : Numeral) : Prop :=
  n.before.getLast?.any isDigit = false ∧ n.after.head?.any isDigit = false

end Numeral

/-- What stands before a numeral ends with `FØRPRIS` and at most a number of spaces. -/
def ForprisWithin (bound : ℕ) (before : JsString) : Prop :=
  ∃ head spaces, before = head ++ (forpris ++ spaces) ∧ (∀ u ∈ spaces, isSpace u = true) ∧
    spaces.length ≤ bound

/-- `KG` or `L`, where the case is ignored. -/
def IsKiloOrLitre (unit : JsString) : Prop :=
  List.Forall₂ (fun a b => foldsTo a b = true) (js "KG") unit ∨
    List.Forall₂ (fun a b => foldsTo a b = true) (js "L") unit

/-- What follows a numeral is a slash and a unit, all within a number of code units. -/
def PerKiloOrLitreWithin (bound : ℕ) (after : JsString) : Prop :=
  ∃ spaces spaces' unit rest, after = spaces ++ 47 :: (spaces' ++ (unit ++ rest)) ∧
    ((∀ u ∈ spaces, isSpace u = true) ∧ ∀ u ∈ spaces', isSpace u = true) ∧ IsKiloOrLitre unit ∧
    rest.head?.any isWordUnitFolded = false ∧
    spaces.length + 1 + spaces'.length + unit.length ≤ bound

/-- A price before: it follows `FØRPRIS`. -/
def Numeral.IsBeforePrice (n : Numeral) : Prop := ∃ bound, ForprisWithin bound n.before

/-- What follows a numeral is a slash and a unit, or a hyphen and another numeral with them: the one
before is the lower end of a range. -/
def ComparesWithin (bound : ℕ) (after : JsString) : Prop :=
  PerKiloOrLitreWithin bound after ∨ ∃ spaces spaces' whole fraction rest bound',
    after = spaces ++ 45 :: (spaces' ++ (whole ++ 44 :: (fraction ++ rest))) ∧
      ((∀ u ∈ spaces, isSpace u = true) ∧ ∀ u ∈ spaces', isSpace u = true) ∧
      (whole ≠ [] ∧ AllDigits whole) ∧ (fraction.length = 2 ∧ AllDigits fraction) ∧
      PerKiloOrLitreWithin bound' rest ∧
      spaces.length + 1 + spaces'.length + whole.length + 3 + bound' ≤ bound

/-- A comparison price: one with a comma, per kilo or litre, or the lower end of a range of them. -/
def Numeral.IsComparisonPrice (n : Numeral) : Prop :=
  n.separator = 44 ∧ ∃ bound, ComparesWithin bound n.after

/-- **A price that is sound**: the numeral at its place is a complete one of the block, and neither
a price before nor a comparison price. -/
def PriceSound (block : JsString) (price : ParsedPrice) : Prop :=
  ∃ n : Numeral, n.text = block ∧ n.before.length = price.startIndex ∧ n.value = price.ore ∧
    n.WellFormed ∧ n.Complete ∧ ¬ n.IsBeforePrice ∧ ¬ n.IsComparisonPrice

variable {block before whole fraction after s : JsString} {separator : UInt16} {n : Numeral}

/-- A numeral is determined by its block and its place. -/
theorem Numeral.eq_of_text (hn : n.WellFormed) (hwhole : AllDigits whole)
    (hseparator : separator = 32 ∨ separator = 44) (hfraction : fraction.length = 2)
    (hplace : n.before.length = before.length)
    (htext : n.text = before ++ (whole ++ separator :: (fraction ++ after))) :
    n = ⟨before, whole, separator, fraction, after⟩ := by
  obtain ⟨nbefore, nwhole, nseparator, nfraction, nafter⟩ := n
  obtain ⟨hbefore, hrest⟩ := List.append_inj htext hplace
  have hnot : ∀ u : UInt16, u = 32 ∨ u = 44 → ¬ isDigit u = true := by
    rintro u (rfl | rfl) <;> decide
  obtain ⟨hwhole, hseparator, hrest⟩ := Delimited.eq_of_append_cons_left
    (P := fun u => ¬ isDigit u = true) (fun u hu => not_not.mpr (hn.whole.2 u hu))
    (fun u hu => not_not.mpr (hwhole u hu)) (hnot _ hn.separator) (hnot _ hseparator) hrest
  obtain ⟨hfraction, hafter⟩ := List.append_inj hrest (hn.fraction.1.trans hfraction.symm)
  cases hbefore
  cases hwhole
  cases hseparator
  cases hfraction
  cases hafter
  rfl

/-! ### Readings -/

theorem allDigits_takeWhile (s : JsString) : AllDigits (s.takeWhile isDigit) :=
  fun _ hu => List.mem_takeWhile_imp hu

theorem allDigits_pair {d d' : UInt16} :
    AllDigits [d, d'] ↔ isDigit d = true ∧ isDigit d' = true := by
  simp [AllDigits]

/-- What `SPLIT_DIGIT_PRICE` matches. -/
theorem splitDigitPriceAt_eq_some (h : splitDigitPriceAt s = some (whole, fraction)) :
    ∃ rest, s = whole ++ 32 :: (fraction ++ 32 :: 47 :: 32 :: rest) ∧
      (whole ≠ [] ∧ AllDigits whole) ∧ whole.length ≤ 3 ∧ fraction.length = 2 ∧
      AllDigits fraction := by
  unfold splitDigitPriceAt at h
  split at h
  case h_1 d d' rest hrest =>
    split_ifs at h with hchecks
    cases h
    refine ⟨rest, ?_, ⟨?_, allDigits_takeWhile s⟩, hchecks.1.2, rfl, allDigits_pair.mpr hchecks.2⟩
    · calc s = s.takeWhile isDigit ++ s.dropWhile isDigit := List.takeWhile_append_dropWhile.symm
        _ = _ := by rw [hrest]; rfl
    · exact List.ne_nil_of_length_pos hchecks.1.1
  case h_2 => cases h

/-- A whole numeral, a comma and two digits. -/
theorem commaNumeralAt_eq_some (h : commaNumeralAt s = some (whole, fraction, after)) :
    s = whole ++ 44 :: (fraction ++ after) ∧ (whole ≠ [] ∧ AllDigits whole) ∧ whole.length ≤ 4 ∧
      fraction.length = 2 ∧ AllDigits fraction := by
  unfold commaNumeralAt at h
  split at h
  case h_1 d d' rest hrest =>
    split_ifs at h with hchecks
    obtain ⟨rfl, hfraction⟩ := Prod.mk.inj (Option.some.inj h)
    cases hfraction
    refine ⟨?_, ⟨?_, allDigits_takeWhile s⟩, hchecks.1.2, rfl, allDigits_pair.mpr hchecks.2⟩
    · calc s = s.takeWhile isDigit ++ s.dropWhile isDigit := List.takeWhile_append_dropWhile.symm
        _ = _ := by rw [hrest]; rfl
    · exact List.ne_nil_of_length_pos hchecks.1.1
  case h_2 => cases h

/-- What `DECIMAL_PRICE` matches. -/
theorem decimalPriceAt_eq_some (h : decimalPriceAt s = some (whole, fraction)) :
    ∃ after, s = whole ++ 44 :: (fraction ++ after) ∧ (whole ≠ [] ∧ AllDigits whole) ∧
      whole.length ≤ 4 ∧ (fraction.length = 2 ∧ AllDigits fraction) ∧
      after.head?.any isDigit = false := by
  obtain ⟨⟨whole', fraction', after⟩, hfound, h⟩ := Option.bind_eq_some_iff.mp h
  split_ifs at h with hdigit
  cases h
  obtain ⟨heq, hwhole, hbound, hfraction⟩ := commaNumeralAt_eq_some hfound
  exact ⟨after, heq, hwhole, hbound, hfraction, Bool.eq_false_iff.mpr hdigit⟩

/-! ### Windows -/

/-- A text ends with `FØRPRIS` and any number of spaces. -/
theorem endsWithForpris_iff : endsWithForpris s = true ↔ ∃ bound, ForprisWithin bound s := by
  rw [endsWithForpris, List.isSuffixOf_iff_suffix]
  constructor
  · rintro ⟨head, hhead⟩
    refine ⟨_, head, s.rtakeWhile isSpace, ?_, fun u hu => List.mem_rtakeWhile_imp hu, le_rfl⟩
    rw [← List.append_assoc, hhead, List.rdropWhile_append_rtakeWhile]
  · rintro ⟨-, head, spaces, rfl, hspaces, -⟩
    refine ⟨head, ?_⟩
    have hlast : (head ++ forpris).rdropWhile isSpace = head ++ forpris := by
      rw [List.rdropWhile_eq_self_iff]
      intro hne
      rw [List.getLast_append_of_ne_nil _ (by decide)]
      decide
    rw [← List.append_assoc, rdropWhile_append _ hspaces, hlast]

/-- `FØRPRIS` and at most three spaces are seen within ten code units. -/
theorem endsWithForpris_drop (h : ForprisWithin 3 before) :
    endsWithForpris (before.drop (before.length - 10)) = true := by
  obtain ⟨head, spaces, rfl, hspaces, hbound⟩ := h
  have hlength : forpris.length = 7 := rfl
  refine endsWithForpris_iff.mpr ⟨3, head.drop ((head ++ (forpris ++ spaces)).length - 10), spaces,
    ?_, hspaces, hbound⟩
  rw [List.drop_append_of_le_length]
  simp only [List.length_append]
  omega

/-- A unit does not begin with white space. -/
theorem IsKiloOrLitre.exists_cons {unit : JsString} (h : IsKiloOrLitre unit) :
    ∃ u rest, unit = u :: rest ∧ isSpace u = false := by
  have hspace : ∀ unit u : UInt16, unit = 75 ∨ unit = 76 → foldsTo unit u = true →
      isSpace u = false := by
    intro unit u hunit hfolds
    simp only [foldsTo, Bool.or_eq_true, Bool.and_eq_true, decide_eq_true_eq] at hfolds
    rcases hunit with rfl | rfl
    · rcases hfolds with ((rfl | ⟨-, rfl⟩) | ⟨-, rfl⟩) | ⟨h, -⟩
      · decide
      · decide
      · decide
      · exact absurd h (by decide)
    · rcases hfolds with ((rfl | ⟨-, rfl⟩) | ⟨h, -⟩) | ⟨h, -⟩
      · decide
      · decide
      · exact absurd h (by decide)
      · exact absurd h (by decide)
  rcases h with h | h
  · obtain ⟨u, rest, hu, -, rfl⟩ := List.forall₂_cons_left_iff.mp h
    exact ⟨u, rest, rfl, hspace 75 u (Or.inl rfl) hu⟩
  · obtain ⟨u, rest, hu, -, rfl⟩ := List.forall₂_cons_left_iff.mp h
    exact ⟨u, rest, rfl, hspace 76 u (Or.inr rfl) hu⟩

/-- A unit of a comparison price is read. -/
theorem IsKiloOrLitre.unitAt_append {unit : JsString} (h : IsKiloOrLitre unit) (rest : JsString) :
    unitAt (unit ++ rest) = some rest := by
  unfold unitAt
  rcases h with h | h
  · rw [afterPrefix_append h]
    rfl
  · have hkilo : afterPrefix foldsTo (js "KG") (unit ++ rest) = none := by
      obtain ⟨u, tail, hu, -, rfl⟩ := List.forall₂_cons_left_iff.mp h
      have hnot : foldsTo 75 u = false := by
        simp only [foldsTo, Bool.or_eq_true, Bool.and_eq_true, decide_eq_true_eq] at hu
        rcases hu with ((rfl | ⟨-, rfl⟩) | ⟨h, -⟩) | ⟨h, -⟩
        · decide
        · decide
        · exact absurd h (by decide)
        · exact absurd h (by decide)
      show (if foldsTo 75 u then _ else none) = none
      rw [hnot]
      rfl
    rw [hkilo, afterPrefix_append h]
    rfl

/-- A comparison price whose unit ends within a window is seen in the window. -/
theorem PerKiloOrLitreWithin.perUnitAt_take {bound : ℕ} (h : PerKiloOrLitreWithin bound after) :
    ∃ rest, perUnitAt (after.take bound) = some rest ∧ rest.head?.any isWordUnitFolded = false := by
  obtain ⟨spaces, spaces', unit, rest, rfl, ⟨hspaces, hspaces'⟩, hunit, hrest, hbound⟩ := h
  obtain ⟨window, hwindow⟩ : ∃ window, (spaces ++ 47 :: (spaces' ++ (unit ++ rest))).take bound =
      spaces ++ 47 :: (spaces' ++ (unit ++ rest.take window)) := by
    refine ⟨bound - (spaces.length + 1 + spaces'.length + unit.length), ?_⟩
    have hsplit : spaces ++ 47 :: (spaces' ++ (unit ++ rest)) =
        (spaces ++ 47 :: (spaces' ++ unit)) ++ rest := by simp
    rw [hsplit, List.take_append, List.take_of_length_le]
    · simp [Nat.add_assoc, Nat.add_comm 1]
    · simp
      omega
  refine ⟨rest.take window, ?_, ?_⟩
  · obtain ⟨u, tail, rfl, hu⟩ := hunit.exists_cons
    rw [hwindow, perUnitAt, (takeWhile_append_cons hspaces (by decide)).2]
    show unitAt ((spaces' ++ u :: (tail ++ rest.take window)).dropWhile isSpace) = _
    rw [(takeWhile_append_cons hspaces' hu).2]
    exact hunit.unitAt_append _
  · cases window with
    | zero => rfl
    | succ window =>
      cases rest with
      | nil => rfl
      | cons u rest => exact hrest

theorem PerKiloOrLitreWithin.mono {bound bound' : ℕ} (h : PerKiloOrLitreWithin bound after)
    (hle : bound ≤ bound') : PerKiloOrLitreWithin bound' after := by
  obtain ⟨spaces, spaces', unit, rest, heq, hspaces, hunit, hrest, hbound⟩ := h
  exact ⟨spaces, spaces', unit, rest, heq, hspaces, hunit, hrest, hbound.trans hle⟩

/-- A unit that follows a numeral within a window is found after its comma. -/
theorem PerKiloOrLitreWithin.isSome_search {bound : ℕ} (h : PerKiloOrLitreWithin bound after)
    (hfraction : fraction.length = 2 ∧ AllDigits fraction) (before : JsString) :
    (search trailingUnitPriceAt (before ++ 44 :: (fraction ++ after.take bound))).isSome = true := by
  obtain ⟨last, hlast, hword⟩ := h.perUnitAt_take
  refine TextSearch.isSome_search before ?_
  match fraction, hfraction with
  | [d, d'], hdigits =>
    show (trailingUnitPriceAt (44 :: d :: d' :: after.take bound)).isSome = true
    rw [trailingUnitPriceAt, if_pos (allDigits_pair.mp hdigits.2), hlast]
    simp [hword]

/-- A comparison price within a window is found, at the comma of the numeral before the unit. -/
theorem ComparesWithin.isSome_search {bound : ℕ} (h : ComparesWithin bound after)
    (hfraction : fraction.length = 2 ∧ AllDigits fraction) (before : JsString) :
    (search trailingUnitPriceAt (before ++ 44 :: (fraction ++ after.take bound))).isSome = true := by
  obtain h | ⟨spaces, spaces', whole, fraction', rest, bound', rfl, -, -, hfraction', h, hbound⟩ := h
  · exact h.isSome_search hfraction before
  · obtain ⟨window, rfl⟩ := Nat.exists_eq_add_of_le hbound
    have hsplit : spaces ++ 45 :: (spaces' ++ (whole ++ 44 :: (fraction' ++ rest))) =
        (spaces ++ 45 :: (spaces' ++ (whole ++ 44 :: fraction'))) ++ rest := by simp
    have htake : (spaces ++ 45 :: (spaces' ++ (whole ++ 44 :: (fraction' ++ rest)))).take
        (spaces.length + 1 + spaces'.length + whole.length + 3 + bound' + window) =
          spaces ++ 45 :: (spaces' ++ (whole ++ 44 :: (fraction' ++ rest.take (bound' + window)))) := by
      rw [hsplit, Nat.add_assoc, List.take_append, List.take_of_length_le]
      · simp [hfraction'.1]
        congr 1
        omega
      · simp [hfraction'.1]
        omega
    have hsearch := (h.mono (Nat.le_add_right bound' window)).isSome_search hfraction'
      (before ++ 44 :: (fraction ++ (spaces ++ 45 :: (spaces' ++ whole))))
    rw [htake]
    simpa using hsearch

/-! ### Prices -/

/-- **The blocks of which the price is read soundly.** A split price stands neither after a digit
nor after `FØRPRIS`; a decimal price does not stand after a digit, `FØRPRIS` is at most three spaces
before it where there is one, and its unit is within sixteen code units where it is a comparison
price. -/
structure ReadablePrice (block : JsString) : Prop where
  split : ∀ before whole fraction, search splitDigitPriceAt block = some (before, whole, fraction) →
    before.getLast?.any isDigit = false ∧ ¬ ∃ bound, ForprisWithin bound before
  decimal : search splitDigitPriceAt block = none →
    ∀ before whole fraction, search decimalPriceAt block = some (before, whole, fraction) →
      before.getLast?.any isDigit = false ∧
        ((∃ bound, ForprisWithin bound before) → ForprisWithin 3 before) ∧
        ((∃ bound, ComparesWithin bound (block.drop (before.length + whole.length + 3))) →
          ComparesWithin (13 - whole.length) (block.drop (before.length + whole.length + 3)))

variable {price : ParsedPrice}

/-- The price that is read from a numeral. -/
theorem priceSound_iff_of_numeral (hn : n.WellFormed) (htext : n.text = block)
    (hstart : n.before.length = price.startIndex) (hvalue : n.value = price.ore) :
    PriceSound block price ↔ n.Complete ∧ ¬ n.IsBeforePrice ∧ ¬ n.IsComparisonPrice := by
  constructor
  · rintro ⟨m, hmtext, hmstart, -, hm, hsound⟩
    obtain rfl : m = n := Numeral.eq_of_text hm hn.whole.2 hn.separator hn.fraction.1
      (hmstart.trans hstart.symm) (hmtext.trans htext.symm)
    exact hsound
  · exact fun hsound => ⟨n, htext, hstart, hvalue, hn, hsound⟩

/-- A split price is sound just when it stands neither after a digit nor after `FØRPRIS`. -/
theorem priceSound_split_iff (h : search splitDigitPriceAt block = some (before, whole, fraction))
    (stop : ℕ) : PriceSound block ⟨before.length, oreOf (whole, fraction), stop⟩ ↔
      before.getLast?.any isDigit = false ∧ ¬ ∃ bound, ForprisWithin bound before := by
  obtain ⟨rest, rfl, hrest⟩ := exists_of_search h
  obtain ⟨after, rfl, hwhole, -, hfraction⟩ := splitDigitPriceAt_eq_some hrest
  refine (priceSound_iff_of_numeral (n := ⟨before, whole, 32, fraction, 32 :: 47 :: 32 :: after⟩)
    ⟨hwhole, Or.inl rfl, hfraction⟩ rfl rfl rfl).trans ?_
  constructor
  · rintro ⟨hcomplete, hbefore, -⟩
    exact ⟨hcomplete.1, hbefore⟩
  · rintro ⟨hdigit, hbefore⟩
    exact ⟨⟨hdigit, rfl⟩, hbefore, fun hcomparison =>
      (by decide : ¬ (32 : UInt16) = 44) hcomparison.1⟩

/-- The windows of a decimal price in its block. -/
theorem window_of_decimal (hfraction : fraction.length = 2) (hbound : whole.length ≤ 4)
    (hblock : block = before ++ (whole ++ 44 :: (fraction ++ after))) :
    slice block (before.length - 10) before.length = before.drop (before.length - 10) ∧
      slice block before.length (before.length + 16) =
        whole ++ 44 :: (fraction ++ after.take (13 - whole.length)) ∧
      block.drop (before.length + whole.length + 3) = after := by
  subst hblock
  refine ⟨slice_append_right _ _ _, ?_, ?_⟩
  · rw [slice_append_left, List.take_append, List.take_of_length_le (by omega)]
    obtain ⟨window, hwindow⟩ : ∃ window, 16 - whole.length = window + 3 :=
      ⟨13 - whole.length, by omega⟩
    have heq : 13 - whole.length = window := by omega
    rw [hwindow, heq]
    match fraction, hfraction with
    | [d, d'], _ => rfl
  · rw [Nat.add_assoc, List.drop_append, List.drop_of_length_le (by omega)]
    match fraction, hfraction with
    | [d, d'], _ => simp

/-- A decimal price is sound just when it does not stand after a digit, and the windows show what
stands before it and after it. -/
theorem priceSound_decimal_iff (h : search decimalPriceAt block = some (before, whole, fraction))
    (hprice : findStandaloneDecimal block = some price) : PriceSound block price ↔
      before.getLast?.any isDigit = false ∧
        ((∃ bound, ForprisWithin bound before) → ForprisWithin 3 before) ∧
        ((∃ bound, ComparesWithin bound (block.drop (before.length + whole.length + 3))) →
          ComparesWithin (13 - whole.length) (block.drop (before.length + whole.length + 3))) := by
  obtain ⟨rest, hblock, hrest⟩ := exists_of_search h
  obtain ⟨after, rfl, hwhole, hbound, hfraction, hafter⟩ := decimalPriceAt_eq_some hrest
  obtain ⟨hback, hahead, hrestAfter⟩ := window_of_decimal hfraction.1 hbound hblock
  rw [findStandaloneDecimal, h, Option.bind_some] at hprice
  dsimp only at hprice
  split_ifs at hprice with hforpris hunit
  cases hprice
  rw [hback] at hforpris
  rw [not_or, hahead] at hunit
  rw [hrestAfter]
  refine (priceSound_iff_of_numeral (n := ⟨before, whole, 44, fraction, after⟩)
    ⟨hwhole, Or.inr rfl, hfraction⟩ hblock.symm rfl rfl).trans ?_
  constructor
  · rintro ⟨hcomplete, hbefore, hcomparison⟩
    exact ⟨hcomplete.1, fun h => absurd h hbefore, fun h => absurd ⟨rfl, h⟩ hcomparison⟩
  · rintro ⟨hdigit, hbefore, hcomparison⟩
    refine ⟨⟨hdigit, hafter⟩, fun h => hforpris (endsWithForpris_drop (hbefore h)), fun h => ?_⟩
    -- the unit of a comparison price is within the window
    exact hunit.2 ((hcomparison h.2).isSome_search hfraction whole)

/-- **The price of a block is sound** just when the block is readable. -/
theorem priceSound_iff (hprice : priceOf block = some price) :
    PriceSound block price ↔ ReadablePrice block := by
  cases hsplit : search splitDigitPriceAt block with
  | some found =>
    obtain ⟨before, whole, fraction⟩ := found
    rw [priceOf, findSplitDigitPrice, hsplit] at hprice
    cases hprice
    rw [priceSound_split_iff hsplit]
    constructor
    · intro h
      refine ⟨fun before' whole' fraction' heq => ?_, fun hnone => ?_⟩
      · obtain ⟨rfl, -⟩ := Prod.mk.inj (Option.some.inj (hsplit.symm.trans heq))
        exact h
      · rw [hsplit] at hnone
        cases hnone
    · exact fun h => h.split _ _ _ hsplit
  | none =>
    rw [priceOf, findSplitDigitPrice, hsplit] at hprice
    have hdecimal : findStandaloneDecimal block = some price := hprice
    obtain ⟨⟨before, whole, fraction⟩, hfound, -⟩ := Option.bind_eq_some_iff.mp hdecimal
    rw [priceSound_decimal_iff hfound hdecimal]
    constructor
    · intro h
      refine ⟨fun before' whole' fraction' heq => ?_, fun _ before' whole' fraction' heq => ?_⟩
      · rw [hsplit] at heq
        cases heq
      · obtain ⟨rfl, hnumerals⟩ := Prod.mk.inj (Option.some.inj (hfound.symm.trans heq))
        obtain ⟨rfl, -⟩ := Prod.mk.inj hnumerals
        exact h
    · exact fun h => h.decimal hsplit _ _ _ hfound

/-! ### Packages -/

/-- A text that writes a quantity. -/
def Quantity.Writes (quantity : Quantity) (text : JsString) : Prop :=
  ∃ space, (space = [] ∨ space = [32]) ∧ text = js "PK " ++
    (quantity.unitsPerPack.elim [] (fun units => units ++ [88]) ++ quantity.whole ++
      (if quantity.fraction = [] then [] else 44 :: quantity.fraction) ++ space ++
      quantity.code.text)

/-- What stands before a quantity does not run into it, and white space or a comma follows, or
nothing. -/
def Delimits (before after : JsString) : Prop :=
  before.getLast?.any isWordUnit = false ∧ ∀ u ∈ after.head?, isSpace u = true ∨ u = 44

/-- **A package that is recorded soundly**: the whole quantity text was read. -/
def PackageSound (block : JsString) (package : MenyPackage) : Prop :=
  package ≠ .unknown → ∃ before quantity after text,
    packageText block = some (before, quantity, after) ∧ block = before ++ (text ++ after) ∧
      quantity.Writes text ∧ Delimits before after

variable {quantity : Quantity} {code : UnitCode}

theorem forall₂_beq {pattern head : JsString}
    (h : List.Forall₂ (fun a b => (a == b) = true) pattern head) : head = pattern := by
  induction h with
  | nil => rfl
  | cons hab _ ih => rw [ih, beq_iff_eq.mp hab]

/-- A prefix that is compared exactly. -/
theorem eq_append_of_afterPrefix {pattern : JsString}
    (h : afterPrefix (fun a b => a == b) pattern s = some after) : s = pattern ++ after := by
  obtain ⟨head, rfl, hhead⟩ := afterPrefix_eq_some_iff.mp h
  rw [forall₂_beq hhead]

/-- A code is read with a space before it or none. -/
theorem codeAt_eq_some (h : codeAt s = some (code, after)) :
    ∃ space, (space = [] ∨ space = [32]) ∧ s = space ++ code.text ++ after := by
  obtain ⟨code', -, hcode⟩ := List.exists_of_findSome?_eq_some h
  obtain ⟨rest, hrest, heq⟩ := Option.map_eq_some_iff.mp hcode
  cases heq
  have htext := eq_append_of_afterPrefix (Option.eq_some_of_filter_eq_some hrest)
  by_cases hspace : s.head? = some 32
  · rw [if_pos hspace] at htext
    refine ⟨[32], Or.inr rfl, ?_⟩
    rw [List.append_assoc, ← htext]
    exact (List.cons_head?_tail hspace).symm
  · rw [if_neg hspace] at htext
    exact ⟨[], Or.inl rfl, htext⟩

/-- What `PACKAGE_SINGLE` matches. -/
theorem packageSingleAt_eq_some (h : packageSingleAt s = some (quantity, after)) :
    ∃ text, s = text ++ after ∧ quantity.Writes text := by
  obtain ⟨rest, hrest, h⟩ := Option.bind_eq_some_iff.mp h
  split_ifs at h with hdigits
  obtain ⟨⟨code, last⟩, hcode, heq⟩ := Option.map_eq_some_iff.mp h
  cases heq
  obtain ⟨space, hspace, htail⟩ := codeAt_eq_some hcode
  refine ⟨_, ?_, space, hspace, rfl⟩
  rw [eq_append_of_afterPrefix hrest]
  conv_lhs => rw [← List.takeWhile_append_dropWhile (p := isDigit) (l := rest), htail]
  simp

/-- What `PACKAGE_MULTI` matches. -/
theorem packageMultiAt_eq_some (h : packageMultiAt s = some (quantity, after)) :
    ∃ text, s = text ++ after ∧ quantity.Writes text := by
  obtain ⟨rest, hrest, h⟩ := Option.bind_eq_some_iff.mp h
  split at h
  case h_1 rest' hrest' =>
    split at h
    case h_1 rest'' hrest'' =>
      split_ifs at h with hdigits
      obtain ⟨⟨code, last⟩, hcode, heq⟩ := Option.map_eq_some_iff.mp h
      cases heq
      obtain ⟨space, hspace, htail⟩ := codeAt_eq_some hcode
      refine ⟨_, ?_, space, hspace, rfl⟩
      have hne : rest''.takeWhile isDigit ≠ [] := List.ne_nil_of_length_pos hdigits.2.2.1
      dsimp only
      rw [eq_append_of_afterPrefix hrest, if_neg hne]
      conv_lhs => rw [← List.takeWhile_append_dropWhile (p := isDigit) (l := rest), hrest',
        ← List.takeWhile_append_dropWhile (p := isDigit) (l := rest'), hrest'',
        ← List.takeWhile_append_dropWhile (p := isDigit) (l := rest''), htail]
      simp
    case h_2 => cases h
  case h_2 => cases h

/-- The package text of a block. -/
theorem exists_text_of_packageText (h : packageText block = some (before, quantity, after)) :
    ∃ text, block = before ++ (text ++ after) ∧ quantity.Writes text := by
  rcases Option.or_eq_some_iff.mp h with hmulti | ⟨-, hsingle⟩
  · obtain ⟨rest, rfl, hrest⟩ := exists_of_search hmulti
    obtain ⟨text, rfl, htext⟩ := packageMultiAt_eq_some hrest
    exact ⟨text, rfl, htext⟩
  · obtain ⟨rest, rfl, hrest⟩ := exists_of_search hsingle
    obtain ⟨text, rfl, htext⟩ := packageSingleAt_eq_some hrest
    exact ⟨text, rfl, htext⟩

/-- **The package of a block is recorded soundly** just when its quantity text is delimited. -/
theorem packageSound_iff : PackageSound block (parsePackage block) ↔
    ∀ before quantity after, packageText block = some (before, quantity, after) →
      Delimits before after := by
  constructor
  · intro h before quantity after hfound
    have hne : parsePackage block ≠ .unknown := by
      rw [parsePackage, hfound]
      exact MenyPackage.noConfusion
    obtain ⟨before', quantity', after', text, hfound', -, -, hdelimits⟩ := h hne
    obtain ⟨rfl, hrest⟩ := Prod.mk.inj (Option.some.inj (hfound.symm.trans hfound'))
    obtain ⟨-, rfl⟩ := Prod.mk.inj hrest
    exact hdelimits
  · intro h hne
    cases hfound : packageText block with
    | none =>
      rw [parsePackage, hfound] at hne
      exact absurd rfl hne
    | some found =>
      obtain ⟨before, quantity, after⟩ := found
      obtain ⟨text, htext, hwrites⟩ := exists_text_of_packageText hfound
      exact ⟨before, quantity, after, text, rfl, htext, hwrites, h _ _ _ hfound⟩

/-- A number of a quantity that the contract admits. -/
def Admitted (bound : ℕ) (value : Option ℚ) : Prop :=
  ∃ x ∈ value, x.den = 1 ∧ 1 ≤ x ∧ x ≤ bound

/-- When a quantity is a whole number within a bound. -/
theorem natOf_iff {bound : ℕ} {value : Option ℚ} :
    (∃ m, natOf value = some m ∧ 0 < m ∧ m ≤ bound) ↔ Admitted bound value := by
  cases value with
  | none => simp [natOf, Admitted]
  | some x =>
    simp only [natOf, Admitted, Option.bind_some, Option.mem_def, Option.some.injEq, exists_eq_left']
    by_cases hden : x.den = 1
    · have hx : (x.num : ℚ) = x := Rat.coe_int_num_of_den_eq_one hden
      have hlow : 1 ≤ x ↔ 1 ≤ x.num := by
        rw [← Int.cast_le (R := ℚ), Int.cast_one, hx]
      have hhigh : x ≤ bound ↔ x.num ≤ bound := by
        rw [← Int.cast_le (R := ℚ), Int.cast_natCast, hx]
      rw [hlow, hhigh]
      simp only [hden, true_and]
      constructor
      · rintro ⟨m, hm, hpos, hbound⟩
        split_ifs at hm with hnonneg
        cases hm
        omega
      · rintro ⟨hone, hbound⟩
        exact ⟨x.num.toNat, if_pos (by omega), by omega, by omega⟩
    · simp [hden]

/-- **The package of a block meets the contract** just when its quantity is admitted. -/
theorem exists_parse_parsePackage_iff :
    (∃ package, (parsePackage block).parse = some package ∧ ExtractedPackageSchema package) ↔
      ∀ before quantity after, packageText block = some (before, quantity, after) →
        Admitted 1000000 quantity.amount ∧ Admitted 10000 quantity.units := by
  cases hfound : packageText block with
  | none =>
    rw [parsePackage, hfound]
    exact iff_of_true ⟨_, rfl, trivial⟩ fun _ _ _ h => by cases h
  | some found =>
    obtain ⟨before, quantity, after⟩ := found
    rw [parsePackage, hfound]
    simp only [Option.elim_some, MenyPackage.parse, Option.bind_eq_some_iff, Option.map_eq_some_iff]
    constructor
    · rintro ⟨_, ⟨amount, hamount, units, hunits, rfl⟩, hschema⟩ _ _ _ heq
      obtain ⟨-, hrest⟩ := Prod.mk.inj (Option.some.inj heq)
      obtain ⟨rfl, -⟩ := Prod.mk.inj hrest
      exact ⟨natOf_iff.mp ⟨amount, hamount, hschema.1⟩, natOf_iff.mp ⟨units, hunits, hschema.2⟩⟩
    · intro h
      obtain ⟨hamount, hunits⟩ := h _ _ _ rfl
      obtain ⟨amount, hamount, hamountBound⟩ := natOf_iff.mpr hamount
      obtain ⟨units, hunits, hunitsBound⟩ := natOf_iff.mpr hunits
      exact ⟨_, ⟨amount, hamount, units, hunits, rfl⟩, hamountBound, hunitsBound⟩

/-! ### Candidates -/

theorem isDigits_of_allDigits (h : AllDigits s) : IsDigits s := fun u hu => by
  have hdigit := h u hu
  rw [isDigit, Bool.and_eq_true, decide_eq_true_eq, decide_eq_true_eq] at hdigit
  exact hdigit

/-- The amount of numerals of four digits and of two. -/
theorem moneyOreSchema_oreOf (hwhole : AllDigits whole) (hbound : whole.length ≤ 4)
    (hfraction : AllDigits fraction) (htwo : fraction.length = 2) :
    MoneyOreSchema (oreOf (whole, fraction)) := by
  have hlow := number_lt (isDigits_of_allDigits hwhole)
  have hhigh := number_lt (isDigits_of_allDigits hfraction)
  have hpow : 10 ^ whole.length ≤ 10 ^ 4 := Nat.pow_le_pow_right (by norm_num) hbound
  rw [htwo] at hhigh
  show number whole * 100 + number fraction ≤ 2147483647
  omega

/-- A price is an amount of the contract. -/
theorem moneyOreSchema_priceOf (h : priceOf block = some price) :
    MoneyOreSchema price.ore := by
  rcases Option.or_eq_some_iff.mp h with hsplit | ⟨-, hdecimal⟩
  · obtain ⟨⟨before, whole, fraction⟩, hfound, rfl⟩ := Option.map_eq_some_iff.mp hsplit
    obtain ⟨rest, -, hrest⟩ := exists_of_search hfound
    obtain ⟨after, -, hwhole, hbound, htwo, hfraction⟩ := splitDigitPriceAt_eq_some hrest
    exact moneyOreSchema_oreOf hwhole.2 (hbound.trans (by norm_num)) hfraction htwo
  · obtain ⟨⟨before, whole, fraction⟩, hfound, hprice⟩ := Option.bind_eq_some_iff.mp hdecimal
    obtain ⟨rest, -, hrest⟩ := exists_of_search hfound
    obtain ⟨after, -, hwhole, hbound, hfraction, -⟩ := decimalPriceAt_eq_some hrest
    dsimp only at hprice
    split_ifs at hprice
    cases hprice
    exact moneyOreSchema_oreOf hwhole.2 hbound hfraction.2 hfraction.1

/-- A price before is an amount of the contract. -/
theorem moneyOreSchema_beforePriceOre {ore : ℕ} (h : ore ∈ beforePriceOre block) :
    MoneyOreSchema ore := by
  obtain ⟨⟨before, whole, fraction⟩, hfound, rfl⟩ := Option.map_eq_some_iff.mp h
  obtain ⟨rest, -, hrest⟩ := exists_of_search hfound
  obtain ⟨tail, -, htail⟩ := Option.bind_eq_some_iff.mp hrest
  split_ifs at htail
  obtain ⟨⟨whole', fraction', after⟩, hcomma, heq⟩ := Option.map_eq_some_iff.mp htail
  cases heq
  obtain ⟨-, hwhole, hbound, htwo, hfraction⟩ := commaNumeralAt_eq_some hcomma
  exact moneyOreSchema_oreOf hwhole.2 hbound hfraction htwo

variable {isLetterOrNumber : JsString → Bool} {place : Place} {candidate : MenyCandidate}

/-- The label of a block that is not skipped. -/
theorem label_of_offerOf {offer : ParsedPrice × JsString}
    (h : offerOf isLetterOrNumber block = some offer) : priceOf block = some offer.1 ∧
      trim offer.2 = offer.2 ∧ offer.2 ≠ [] ∧ offer.2.length ≤ 120 := by
  obtain ⟨price, hprice, h⟩ := Option.bind_eq_some_iff.mp h
  obtain ⟨label, hlabel, h⟩ := Option.bind_eq_some_iff.mp h
  split_ifs at h
  cases h
  unfold labelBefore at hlabel
  dsimp only at hlabel
  split_ifs at hlabel with hempty hlong
  cases hlabel
  exact ⟨hprice, trim_trim _, hempty, not_lt.mp hlong⟩

/-- The places of pages whose number and lengths are those of arrays and texts. -/
structure Place.Bounded (place : Place) : Prop where
  pageIndex : place.pageIndex < 10 ^ 10
  blockIndex : place.blockIndex < 10 ^ 16

/-- A text of digits between two texts without white space is trimmed. -/
theorem isSpace_append_ofNat {head tail : JsString} (hhead : ∀ u ∈ head, isSpace u = false)
    (htail : ∀ u ∈ tail, isSpace u = false) (m : ℕ) :
    ∀ u ∈ head ++ ofNat m ++ tail, isSpace u = false := by
  intro u hu
  simp only [List.mem_append] at hu
  obtain (hu | hu) | hu := hu
  · exact hhead u hu
  · exact isSpace_of_isDigit (mem_ofNat hu)
  · exact htail u hu

/-- The key of a candidate is an identifier of the contract. -/
theorem candidateKey_valid (hplace : place.Bounded) (h : candidateOf isLetterOrNumber place =
    some candidate) : IdentifierSchema (trim candidate.candidateKey) ∧
      (trim candidate.candidateKey).length ≤ 160 := by
  obtain ⟨offer, -, rfl⟩ := Option.map_eq_some_iff.mp h
  have hpage := length_ofNat_le (n := place.pageIndex) (by norm_num) hplace.pageIndex
  have hblock := length_ofNat_le (n := place.blockIndex) (by norm_num) hplace.blockIndex
  have htrim : trim (js "p" ++ ofNat place.pageIndex ++ js "-b" ++ ofNat place.blockIndex) =
      js "p" ++ ofNat place.pageIndex ++ js "-b" ++ ofNat place.blockIndex := by
    refine trim_eq_self fun u hu => ?_
    rcases List.mem_append.mp hu with hu | hu
    · exact isSpace_append_ofNat (by decide) (by decide) _ u hu
    · exact isSpace_of_isDigit (mem_ofNat hu)
  have hone : (js "p").length = 1 := rfl
  have htwo : (js "-b").length = 2 := rfl
  dsimp only
  rw [IdentifierSchema, trim_trim, htrim]
  simp only [List.length_append]
  exact ⟨⟨trivial, by omega, by omega⟩, by omega⟩

/-- The place of a candidate is an identifier of the contract. -/
theorem evidenceLocator_valid (hplace : place.Bounded) (h : candidateOf isLetterOrNumber place =
    some candidate) : IdentifierSchema (trim candidate.evidenceLocator) := by
  obtain ⟨offer, -, rfl⟩ := Option.map_eq_some_iff.mp h
  have hpage := length_ofNat_le (n := place.pageIndex) (by norm_num) hplace.pageIndex
  have htrim : trim (js "pageTexts[" ++ ofNat place.pageIndex ++ js "]") =
      js "pageTexts[" ++ ofNat place.pageIndex ++ js "]" :=
    trim_eq_self (isSpace_append_ofNat (by decide) (by decide) _)
  have hhead : (js "pageTexts[").length = 10 := rfl
  have hlast : (js "]").length = 1 := rfl
  dsimp only
  rw [IdentifierSchema, trim_trim, htrim]
  simp only [List.length_append]
  exact ⟨trivial, by omega, by omega⟩

theorem unknownScope_valid :
    GeographicScopeSchema (.unknown (js "meny-payload-carries-no-scope-evidence")) := by decide

theorem trumf_valid : IdentifierSchema (js "trumf") := by decide

/-- **A candidate meets the contract** just when the quantity of its block is admitted. -/
theorem exists_parse_candidateOf_iff (hplace : place.Bounded)
    (h : candidateOf isLetterOrNumber place = some candidate) :
    (∃ parsed, candidate.parse = some parsed ∧ ExtractedOfficialOfferCandidateSchema parsed) ↔
      ∀ before quantity after, packageText place.block = some (before, quantity, after) →
        Admitted 1000000 quantity.amount ∧ Admitted 10000 quantity.units := by
  have hkey := candidateKey_valid hplace h
  have hlocator := evidenceLocator_valid hplace h
  obtain ⟨offer, hoffer, rfl⟩ := Option.map_eq_some_iff.mp h
  obtain ⟨hprice, htrim, hlabel, hlength⟩ := label_of_offerOf hoffer
  rw [← exists_parse_parsePackage_iff]
  constructor
  · rintro ⟨parsed, hparsed, hschema⟩
    obtain ⟨package, hpackage, rfl⟩ := Option.map_eq_some_iff.mp hparsed
    exact ⟨package, hpackage, hschema.package⟩
  · rintro ⟨package, hpackage, hschema⟩
    refine ⟨_, Option.map_eq_some_iff.mpr ⟨package, hpackage, rfl⟩, ?_⟩
    exact
      { candidateKey := hkey
        product := by
          dsimp only
          rw [htrim]
          exact ⟨⟨⟨htrim, List.length_pos_iff.mpr hlabel, hlength.trans (by norm_num)⟩,
            hlength.trans (by norm_num)⟩, by simp⟩
        package := hschema
        pricing := ⟨moneyOreSchema_priceOf hprice, fun _ hore => moneyOreSchema_beforePriceOre hore⟩
        eligibility := by
          dsimp only
          split_ifs
          · exact trumf_valid
          · trivial
        validity := trivial
        geographicScope := unknownScope_valid
        channelsBound := by simp
        provenance := ⟨hlocator, by dsimp only; split_ifs <;> simp⟩
        anomalyBound := by dsimp only; split_ifs <;> simp
        anomalyCodes := by dsimp only; split_ifs <;> simp
        channels := by simp }

/-! ### All pages -/

variable {pageTexts : List JsString}

/-- There is a piece for each unit at most, and one more. -/
theorem length_piecesFrom_le (passed : ℕ) (s : JsString) :
    (piecesFrom passed s).length ≤ s.length + 1 := by
  induction s generalizing passed with
  | nil => cases passed <;> simp [piecesFrom]
  | cons u s ih =>
    cases passed with
    | succ passed => exact (ih passed).trans (by simp)
    | zero =>
      unfold piecesFrom
      split_ifs
      · simpa using ih 11
      · split
        · simp
        case h_2 piece pieces hpieces =>
          have hrest := ih 0
          rw [hpieces] at hrest
          simp only [List.length_cons] at hrest ⊢
          omega

/-- The places of pages are bounded where the pages are. -/
theorem bounded_of_mem_placesOf (hpages : pageTexts.length < 10 ^ 10)
    (hlengths : ∀ page ∈ pageTexts, page.length < 10 ^ 16) (hplace : place ∈ placesOf pageTexts) :
    place.Bounded := by
  obtain ⟨page, hpage, hplace⟩ := List.mem_flatMap.mp hplace
  obtain ⟨block, hblock, rfl⟩ := List.mem_map.mp hplace
  obtain ⟨-, hpageLt, hpageGet⟩ := List.mem_zipIdx hpage
  obtain ⟨-, hblockLt, -⟩ := List.mem_zipIdx hblock
  have hlength : page.1.length < 10 ^ 16 := hlengths _ (hpageGet ▸ List.getElem_mem _)
  have hpieces : (blocksOf page.1).length ≤ page.1.length := by
    rw [blocksOf, List.length_tail]
    have hle := length_piecesFrom_le 0 page.1
    omega
  exact ⟨by dsimp only; omega, by dsimp only; omega⟩

/-- The key of a place. -/
def Place.key (place : Place) : JsString :=
  js "p" ++ ofNat place.pageIndex ++ js "-b" ++ ofNat place.blockIndex

/-- A key names its place. -/
theorem index_of_key_eq {other : Place} (h : place.key = other.key) :
    place.pageIndex = other.pageIndex ∧ place.blockIndex = other.blockIndex := by
  have hdash : ∀ m, (45 : UInt16) ∉ js "p" ++ ofNat m := by
    intro m hmem
    rcases List.mem_append.mp hmem with hmem | hmem
    · revert hmem
      decide
    · exact absurd (mem_ofNat hmem).1 (by decide)
  have hsplit : ∀ p : Place, p.key =
      (js "p" ++ ofNat p.pageIndex) ++ 45 :: (98 :: ofNat p.blockIndex) := by
    intro p
    rw [Place.key, List.append_assoc _ (js "-b")]
    rfl
  rw [hsplit, hsplit] at h
  obtain ⟨hpage, hblock⟩ := append_sep_inj (hdash _) (hdash _) h
  exact ⟨ofNat_injective (List.append_cancel_left hpage),
    ofNat_injective (List.cons.inj hblock).2⟩

/-- No two places have the same key. -/
theorem pairwise_key_placesOf (pageTexts : List JsString) :
    (placesOf pageTexts).Pairwise fun place other => place.key ≠ other.key := by
  have hindex : ∀ (l : List JsString), l.zipIdx.Pairwise fun a b => a.2 ≠ b.2 := by
    intro l
    have hnodup : (l.zipIdx.map Prod.snd).Nodup := by
      rw [List.zipIdx_map_snd]
      exact List.nodup_range'
    exact List.pairwise_map.mp hnodup
  rw [placesOf, List.pairwise_flatMap]
  refine ⟨fun page _ => ?_, (hindex pageTexts).imp fun hpage place hplace other hother heq => ?_⟩
  · rw [List.pairwise_map]
    exact (hindex _).imp fun hblock heq => hblock (index_of_key_eq heq).2
  · obtain ⟨block, -, rfl⟩ := List.mem_map.mp hplace
    obtain ⟨block', -, rfl⟩ := List.mem_map.mp hother
    exact hpage (index_of_key_eq heq).1

/-- **The keys of the candidates are unique.** -/
theorem nodup_candidateKey (isLetterOrNumber : JsString → Bool) (pageTexts : List JsString) :
    ((parseMenyOffers isLetterOrNumber pageTexts).candidates.map
      MenyCandidate.candidateKey).Nodup := by
  refine List.pairwise_map.mpr (List.pairwise_filterMap.mpr ?_)
  refine (pairwise_key_placesOf pageTexts).imp fun hkeys candidate hcandidate other hother heq => ?_
  obtain ⟨offer, -, rfl⟩ := Option.map_eq_some_iff.mp hcandidate
  obtain ⟨offer', -, rfl⟩ := Option.map_eq_some_iff.mp hother
  exact hkeys heq

/-- A block that is not skipped. -/
def CarriesOffer (isLetterOrNumber : JsString → Bool) (block : JsString) : Prop :=
  (offerOf isLetterOrNumber block).isSome = true

instance (isLetterOrNumber : JsString → Bool) : DecidablePred (CarriesOffer isLetterOrNumber) :=
  fun _ => inferInstanceAs (Decidable (_ = true))

/-- The quantity of a block is admitted by the contract. -/
def AdmittedPackage (block : JsString) : Prop :=
  ∀ before quantity after, packageText block = some (before, quantity, after) →
    Admitted 1000000 quantity.amount ∧ Admitted 10000 quantity.units

/-- A block that is not skipped has a candidate. -/
theorem exists_candidateOf_iff : (∃ candidate, candidateOf isLetterOrNumber place = some candidate) ↔
    CarriesOffer isLetterOrNumber place.block := by
  rw [← Option.isSome_iff_exists, candidateOf, Option.isSome_map]
  rfl

theorem length_candidates (isLetterOrNumber : JsString → Bool) (pageTexts : List JsString) :
    (parseMenyOffers isLetterOrNumber pageTexts).candidates.length =
      (placesOf pageTexts).countP fun place => CarriesOffer isLetterOrNumber place.block := by
  rw [parseMenyOffers, List.length_filterMap_eq_countP]
  refine List.countP_congr fun place _ => ?_
  rw [decide_eq_true_eq, ← exists_candidateOf_iff, Option.isSome_iff_exists]

theorem extractorVersion_valid :
    IdentifierSchema (js "meny-embedded-text-v1") ∧ (js "meny-embedded-text-v1").length ≤ 80 := by
  decide

/-- What all candidates of an envelope share. -/
theorem shared_of_parse {parsed : ExtractedOfficialOfferCandidate}
    (h : candidate.parse = some parsed) : parsed.provenance.method = .embeddedText ∧
      parsed.geographicScope = .unknown (js "meny-payload-carries-no-scope-evidence") := by
  obtain ⟨package, -, rfl⟩ := Option.map_eq_some_iff.mp h
  exact ⟨rfl, rfl⟩

section Pages

variable {sha256 : JsString → JsString} {extraction : Extraction}

/-- The envelope of candidates is accepted when each of them meets the contract. -/
theorem exists_extract_iff (hsha256 : ∀ s, Sha256Schema (sha256 s))
    (hchecksum : Sha256Schema extraction.captureChecksumSha256) :
    (∃ envelope, extract isLetterOrNumber sha256 extraction pageTexts = some envelope) ↔
      (∀ candidate ∈ (parseMenyOffers isLetterOrNumber pageTexts).candidates, ∃ parsed,
        candidate.parse = some parsed ∧ ExtractedOfficialOfferCandidateSchema parsed) ∧
      (parseMenyOffers isLetterOrNumber pageTexts).candidates.length ≤ 500 ∧
      (CanonicalTimestamp extraction.startedAt ∧ CanonicalTimestamp extraction.completedAt) ∧
      extraction.startedAt ≤ extraction.completedAt := by
  have hshape : ∀ parsed : List ExtractedOfficialOfferCandidate,
      (parseMenyOffers isLetterOrNumber pageTexts).candidates.mapM MenyCandidate.parse =
        some parsed → (∀ c ∈ parsed, c.provenance.method = .embeddedText ∧
          c.geographicScope = .unknown (js "meny-payload-carries-no-scope-evidence")) ∧
        (parseMenyOffers isLetterOrNumber pageTexts).candidates.length = parsed.length := by
    intro parsed hparsed
    have hread := Choices.mapM_eq_some_iff.mp hparsed
    refine ⟨fun c hc => ?_, hread.length_eq⟩
    obtain ⟨candidate, -, hcandidate⟩ := Choices.exists_mem_of_forall₂ hread hc
    exact shared_of_parse hcandidate
  have hone : scopeMembers (.unknown (js "meny-payload-carries-no-scope-evidence")) = 1 := rfl
  rw [← Choices.exists_mapM_iff]
  constructor
  · rintro ⟨envelope, henvelope⟩
    obtain ⟨henvelope, hschema⟩ := Option.filter_eq_some_iff.mp henvelope
    obtain ⟨parsed, hparsed, rfl⟩ := Option.map_eq_some_iff.mp henvelope
    obtain ⟨hshared, hlength⟩ := hshape parsed hparsed
    have hmeets := (officialOfferExtractionEnvelopeSchema_iff_of_shared hchecksum
      extractorVersion_valid ⟨hsha256 _, hsha256 _⟩ rfl (by rw [hlength]) hshared).mp
        (of_decide_eq_true hschema)
    exact ⟨⟨parsed, hparsed, hmeets.1⟩, hlength ▸ hmeets.2.1, hmeets.2.2.2⟩
  · rintro ⟨⟨parsed, hparsed, hall⟩, hbound, hclocks⟩
    obtain ⟨hshared, hlength⟩ := hshape parsed hparsed
    refine ⟨_, Option.filter_eq_some_iff.mpr
      ⟨Option.map_eq_some_iff.mpr ⟨parsed, hparsed, rfl⟩, decide_eq_true ?_⟩⟩
    refine (officialOfferExtractionEnvelopeSchema_iff_of_shared hchecksum extractorVersion_valid
      ⟨hsha256 _, hsha256 _⟩ rfl (by rw [hlength]) hshared).mpr ⟨hall, ?_, ?_, hclocks⟩
    · exact hlength ▸ hbound
    · show parsed.length * scopeMembers _ ≤ 10000
      rw [hone]
      omega

/-- **When the envelope is accepted**: no more than 500 blocks carry an offer, their quantities are
admitted, and the clock has not gone back. -/
theorem isSome_extract_iff (hsha256 : ∀ s, Sha256Schema (sha256 s))
    (hchecksum : Sha256Schema extraction.captureChecksumSha256)
    (hpages : pageTexts.length < 10 ^ 10) (hlengths : ∀ page ∈ pageTexts, page.length < 10 ^ 16) :
    (∃ envelope, extract isLetterOrNumber sha256 extraction pageTexts = some envelope) ↔
      (∀ place ∈ placesOf pageTexts, CarriesOffer isLetterOrNumber place.block →
        AdmittedPackage place.block) ∧
      ((placesOf pageTexts).countP fun place => CarriesOffer isLetterOrNumber place.block) ≤ 500 ∧
      (CanonicalTimestamp extraction.startedAt ∧ CanonicalTimestamp extraction.completedAt) ∧
      extraction.startedAt ≤ extraction.completedAt := by
  rw [exists_extract_iff hsha256 hchecksum, length_candidates]
  refine and_congr_left fun _ => ?_
  constructor
  · intro h place hplace hcarries
    obtain ⟨candidate, hcandidate⟩ := exists_candidateOf_iff.mpr hcarries
    exact (exists_parse_candidateOf_iff (bounded_of_mem_placesOf hpages hlengths hplace)
      hcandidate).mp (h candidate (List.mem_filterMap.mpr ⟨place, hplace, hcandidate⟩))
  · intro h candidate hcandidate
    obtain ⟨place, hplace, hcandidate⟩ := List.mem_filterMap.mp hcandidate
    exact (exists_parse_candidateOf_iff (bounded_of_mem_placesOf hpages hlengths hplace)
      hcandidate).mpr (h place hplace (exists_candidateOf_iff.mp ⟨candidate, hcandidate⟩))

/-- **What is demanded of a candidate**: its price is read from a sound numeral of its block, and
its package from a whole quantity text. -/
def CandidateSound (place : Place) (candidate : MenyCandidate) : Prop :=
  (∃ price, priceOf place.block = some price ∧ candidate.offerPriceOre = price.ore ∧
    PriceSound place.block price) ∧ PackageSound place.block candidate.package

/-- **A block of which the candidate is sound and meets the contract.** -/
structure ReadableBlock (block : JsString) : Prop where
  price : ReadablePrice block
  delimited : ∀ before quantity after, packageText block = some (before, quantity, after) →
    Delimits before after
  admitted : AdmittedPackage block

/-- A candidate is sound when the price and the package of its block are readable. -/
theorem candidateSound_iff (h : candidateOf isLetterOrNumber place = some candidate) :
    CandidateSound place candidate ↔ ReadablePrice place.block ∧
      ∀ before quantity after, packageText place.block = some (before, quantity, after) →
        Delimits before after := by
  obtain ⟨offer, hoffer, rfl⟩ := Option.map_eq_some_iff.mp h
  obtain ⟨hprice, -⟩ := label_of_offerOf hoffer
  rw [← packageSound_iff, ← priceSound_iff hprice]
  constructor
  · rintro ⟨⟨price, hfound, -, hsound⟩, hpackage⟩
    obtain rfl := Option.some.inj (hprice.symm.trans hfound)
    exact ⟨hsound, hpackage⟩
  · exact fun ⟨hsound, hpackage⟩ => ⟨⟨offer.1, hprice, rfl, hsound⟩, hpackage⟩

end Pages

namespace Example

/-- The letters and the digits of ASCII. -/
def isAsciiWord : JsString → Bool
  | [u] => isWordUnit u && u != 95
  | _ => false

/-- A digest. -/
def digest (_ : JsString) : JsString := List.replicate 64 48

theorem sha256Schema_digest (text : JsString) : Sha256Schema (digest text) := by
  unfold digest
  decide

/-- What the extractor gets. -/
def extraction : Extraction where
  captureChecksumSha256 := List.replicate 64 48
  startedAt := 1767571200000
  completedAt := 1767571201000

/-- A block of a leaflet. -/
def fillet : JsString := js " FERSK KYLLINGFILET 99 00 / PK 700G, PRIOR (141,43/KG) FØRPRIS 139,00"

/-- A block with a price of four digits. -/
def machine : JsString := js " KAFFEMASKIN 1234 50 / STK"

/-- A page with one block. -/
def page (block : JsString) : JsString := js "UKE 39 UKENS TILBUD" ++ block

theorem placesOf_fillet : placesOf [page fillet] = [⟨0, 0, fillet⟩] := by decide +kernel

theorem placesOf_machine : placesOf [page machine] = [⟨0, 0, machine⟩] := by decide +kernel

theorem search_fillet : search splitDigitPriceAt fillet =
    some (js " FERSK KYLLINGFILET ", js "99", js "00") := by decide +kernel

theorem search_machine : search splitDigitPriceAt machine =
    some (js " KAFFEMASKIN 1", js "234", js "50") := by decide +kernel

theorem packageText_fillet : packageText fillet = some (js " FERSK KYLLINGFILET 99 00 / ",
    ⟨none, js "700", [], .g⟩, js ", PRIOR (141,43/KG) FØRPRIS 139,00") := by decide +kernel

/-- The fillet is read. -/
theorem readableBlock_fillet : ReadableBlock fillet where
  price := by
    refine ⟨fun before whole fraction h => ?_, fun hnone => ?_⟩
    · obtain ⟨rfl, -⟩ := Prod.mk.inj (Option.some.inj (search_fillet.symm.trans h))
      refine ⟨by decide, fun hforpris => ?_⟩
      exact absurd (endsWithForpris_iff.mpr hforpris) (by decide)
    · rw [search_fillet] at hnone
      cases hnone
  delimited := by
    intro before quantity after h
    obtain ⟨rfl, hrest⟩ := Prod.mk.inj (Option.some.inj (packageText_fillet.symm.trans h))
    obtain ⟨-, rfl⟩ := Prod.mk.inj hrest
    exact ⟨by decide, by decide⟩
  admitted := by
    intro before quantity after h
    obtain ⟨-, hrest⟩ := Prod.mk.inj (Option.some.inj (packageText_fillet.symm.trans h))
    obtain ⟨rfl, -⟩ := Prod.mk.inj hrest
    exact ⟨natOf_iff.mp ⟨700, by decide +kernel, by norm_num, by norm_num⟩,
      natOf_iff.mp ⟨1, by decide +kernel, by norm_num, by norm_num⟩⟩

end Example

end Handleplan.Meny
