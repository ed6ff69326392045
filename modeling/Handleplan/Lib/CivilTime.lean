import Handleplan.Lib.JsString

/-!
# Texts of instants

The Gregorian date of a day, and the text `YYYY-MM-DDThh:mm:ss.mmmZ` of an instant in milliseconds,
which is read back when its year has four digits.

## Main definitions

* `CivilTime.dateOf`, `CivilTime.dayOf` — the date of a day, and the day of a date.
* `CivilTime.textOf`, `CivilTime.read` — the text of an instant, and the instant of a text.

## Main results

* `CivilTime.dayOf_dateOf` — the day of the date of a day.
* `CivilTime.read_textOf` — the text of an instant of the years 1 to 9999 is read back.

## Implementation notes

Days are counted from the first of January 1970. A year is taken to begin in March, so that a leap
day is the last day of its year; an era is 400 years. A text has no era, so a year before the first
is written as the year it is before the first one.
-/

namespace CivilTime

open JsString

/-! ### Dates -/

/-- A date of the Gregorian calendar. -/
structure Date where
  year : ℤ
  month : ℕ
  day : ℕ

/-- A day of an era: its year, counted from March, and the day of that year. -/
def yearAndDay (doe : ℕ) : ℕ × ℕ :=
  let century := min (doe / 36524) 3
  let ofCentury := doe - 36524 * century
  let leap := ofCentury / 1461
  let ofLeap := ofCentury - 1461 * leap
  let year := min (ofLeap / 365) 3
  (100 * century + 4 * leap + year, ofLeap - 365 * year)

/-- The month of the calendar, of a month counted from March. -/
def monthOf (mp : ℕ) : ℕ := if mp < 10 then mp + 3 else mp - 9

/-- The month counted from March, of a month of the calendar. -/
def marchOf (month : ℕ) : ℕ := if 2 < month then month - 3 else month + 9

/-- How many days of a year precede a month, counted from March. -/
def daysBefore (mp : ℕ) : ℕ := (153 * mp + 2) / 5

/-- The years between a year counted from March and that of the calendar. -/
def shift (month : ℕ) : ℤ := if month ≤ 2 then 1 else 0

/-- The date of a day. -/
def dateOf (days : ℤ) : Date :=
  let z := days + 719468
  let ofEra := yearAndDay (z % 146097).toNat
  let mp := (5 * ofEra.2 + 2) / 153
  { year := ofEra.1 + z / 146097 * 400 + shift (monthOf mp)
    month := monthOf mp
    day := ofEra.2 - daysBefore mp + 1 }

/-- The day of a date. -/
def dayOf (date : Date) : ℤ :=
  let year := date.year - shift date.month
  let yoe := (year % 400).toNat
  let doy := daysBefore (marchOf date.month) + date.day - 1
  year / 400 * 146097 + ↑(365 * yoe + yoe / 4 - yoe / 100 + doy) - 719468

/-- The days of an era are those of its years. -/
theorem yearAndDay_spec (doe : ℕ) (h : doe < 146097) :
    (yearAndDay doe).1 ≤ 399 ∧ (yearAndDay doe).2 ≤ 365 ∧
      365 * (yearAndDay doe).1 + (yearAndDay doe).1 / 4 - (yearAndDay doe).1 / 100 +
        (yearAndDay doe).2 = doe := by
  simp only [yearAndDay]
  obtain ⟨century, hcentury⟩ : ∃ century, century = min (doe / 36524) 3 := ⟨_, rfl⟩
  obtain ⟨leap, hleap⟩ : ∃ leap, leap = (doe - 36524 * century) / 1461 := ⟨_, rfl⟩
  obtain ⟨year, hyear⟩ : ∃ year, year = min ((doe - 36524 * century - 1461 * leap) / 365) 3 :=
    ⟨_, rfl⟩
  rw [← hcentury, ← hleap, ← hyear]
  have hleapLe : leap ≤ 24 := by omega
  have hquarter : (100 * century + 4 * leap + year) / 4 = 25 * century + leap := by omega
  have hhundredth : (100 * century + 4 * leap + year) / 100 = century := by omega
  rw [hquarter, hhundredth]
  refine ⟨by omega, by omega, by omega⟩

theorem marchOf_monthOf {mp : ℕ} (h : mp ≤ 11) : marchOf (monthOf mp) = mp := by
  unfold marchOf monthOf
  split_ifs <;> omega

/-- The month of a day of a year is one of twelve, and begins no later. -/
theorem month_spec {doy : ℕ} (h : doy ≤ 365) :
    (5 * doy + 2) / 153 ≤ 11 ∧ daysBefore ((5 * doy + 2) / 153) ≤ doy := by
  unfold daysBefore
  omega

/-- **The day of the date of a day.** -/
theorem dayOf_dateOf (days : ℤ) : dayOf (dateOf days) = days := by
  obtain ⟨doe, hdoe⟩ : ∃ doe : ℕ, (doe : ℤ) = (days + 719468) % 146097 :=
    ⟨((days + 719468) % 146097).toNat, Int.toNat_of_nonneg (Int.emod_nonneg _ (by norm_num))⟩
  obtain ⟨hyoe, hdoy, hsum⟩ := yearAndDay_spec doe (by omega)
  obtain ⟨hmonth, hbefore⟩ := month_spec hdoy
  obtain ⟨yoe, hyear⟩ : ∃ yoe, yoe = (yearAndDay doe).1 := ⟨_, rfl⟩
  have hcancel : ∀ s : ℤ, (yoe : ℤ) + (days + 719468) / 146097 * 400 + s - s =
      yoe + (days + 719468) / 146097 * 400 := fun s => Int.add_sub_cancel _ _
  have hmod : (((yoe : ℤ) + (days + 719468) / 146097 * 400) % 400).toNat = yoe := by omega
  have hdiv : ((yoe : ℤ) + (days + 719468) / 146097 * 400) / 400 = (days + 719468) / 146097 := by
    omega
  have hday : daysBefore ((5 * (yearAndDay doe).2 + 2) / 153) +
      ((yearAndDay doe).2 - daysBefore ((5 * (yearAndDay doe).2 + 2) / 153) + 1) - 1 =
        (yearAndDay doe).2 := by omega
  have htoNat : ((days + 719468) % 146097).toNat = doe := by omega
  simp only [dayOf, dateOf, htoNat, ← hyear]
  rw [marchOf_monthOf hmonth, hcancel, hmod, hdiv, hday, hyear, hsum]
  omega

/-! ### Digits -/

/-- A number as decimal text of a fixed length. -/
def fixed : ℕ → ℕ → JsString
  | 0, _ => []
  | length + 1, n => fixed length (n / 10) ++ [(48 + n % 10).toUInt16]

/-- The number that a decimal text writes. -/
def number (s : JsString) : ℕ := s.foldl (fun n u => 10 * n + (u.toNat - 48)) 0

@[simp] theorem length_fixed (length n : ℕ) : (fixed length n).length = length := by
  induction length generalizing n with
  | zero => rfl
  | succ length ih => rw [fixed, List.length_append, ih, List.length_singleton]

/-- A number that fits is read back. -/
theorem number_fixed {length n : ℕ} (h : n < 10 ^ length) : number (fixed length n) = n := by
  induction length generalizing n with
  | zero => exact (Nat.lt_one_iff.mp h).symm
  | succ length ih =>
    have hdigit : ((48 + n % 10).toUInt16).toNat = 48 + n % 10 :=
      UInt16.toNat_ofNat_of_lt' (lt_of_lt_of_le (b := 58) (by omega) (by decide))
    have hrest : n / 10 < 10 ^ length := by
      rw [Nat.div_lt_iff_lt_mul (by norm_num)]
      rwa [pow_succ] at h
    rw [fixed, number, List.foldl_append, ← number, ih hrest, List.foldl_cons, List.foldl_nil,
      hdigit]
    omega

/-! ### Texts -/

/-- The year of a date, without its era. -/
def yearOf (year : ℤ) : ℕ := (if year ≤ 0 then 1 - year else year).toNat

/-- The text of an instant in milliseconds. -/
def textOf (ms : ℤ) : JsString :=
  let date := dateOf (ms / 86400000)
  let time := (ms % 86400000).toNat
  let year := yearOf date.year
  (if year ≤ 9999 then fixed 4 year else JsString.ofNat year) ++
    45 :: (fixed 2 date.month ++ 45 :: (fixed 2 date.day ++ 84 :: (fixed 2 (time / 3600000) ++
      58 :: (fixed 2 (time / 60000 % 60) ++ 58 :: (fixed 2 (time / 1000 % 60) ++
        46 :: (fixed 3 (time % 1000) ++ [90]))))))

/-- A number of a fixed length, and the text after the mark that follows it. -/
def part (length : ℕ) (s : JsString) : ℕ × JsString := (number (s.take length), s.drop (length + 1))

/-- What the digits of a text write, at the places of the parts of an instant. -/
def instantOf (s : JsString) : ℤ :=
  let year := part 4 s
  let month := part 2 year.2
  let day := part 2 month.2
  let hour := part 2 day.2
  let minute := part 2 hour.2
  let second := part 2 minute.2
  let ms := part 3 second.2
  dayOf ⟨year.1, month.1, day.1⟩ * 86400000 +
    ↑(hour.1 * 3600000 + minute.1 * 60000 + second.1 * 1000 + ms.1)

/-- The instant that a text writes, if there is one of the years 1 to 9999. -/
def read (s : JsString) : Option ℤ := if textOf (instantOf s) = s then some (instantOf s) else none

theorem part_fixed {length n : ℕ} {mark : UInt16} {rest : JsString} (h : n < 10 ^ length) :
    part length (fixed length n ++ mark :: rest) = (n, rest) := by
  have htake : (fixed length n ++ mark :: rest).take length = fixed length n :=
    List.take_left' (length_fixed length n)
  have hdrop : (fixed length n ++ mark :: rest).drop (length + 1) = rest := by
    rw [← List.drop_drop, List.drop_left' (length_fixed length n), List.drop_succ_cons,
      List.drop_zero]
  rw [part, htake, hdrop, number_fixed h]

/-- The year of a day of the years 1 to 9999. -/
theorem year_dateOf (days : ℤ) (hfirst : -719162 ≤ days) (hlast : days ≤ 2932896) :
    1 ≤ (dateOf days).year ∧ (dateOf days).year ≤ 9999 := by
  obtain ⟨doe, hdoe⟩ : ∃ doe : ℕ, (doe : ℤ) = (days + 719468) % 146097 :=
    ⟨((days + 719468) % 146097).toNat, Int.toNat_of_nonneg (Int.emod_nonneg _ (by norm_num))⟩
  obtain ⟨hyoe, hdoy, hsum⟩ := yearAndDay_spec doe (by omega)
  have htoNat : ((days + 719468) % 146097).toNat = doe := by omega
  simp only [dateOf, htoNat, shift, monthOf]
  obtain ⟨yoe, hyear⟩ : ∃ yoe, yoe = (yearAndDay doe).1 := ⟨_, rfl⟩
  obtain ⟨doy, hday⟩ : ∃ doy, doy = (yearAndDay doe).2 := ⟨_, rfl⟩
  rw [← hyear] at hyoe hsum ⊢
  rw [← hday] at hdoy hsum ⊢
  split_ifs <;> omega

/-- The parts of a date have at most two digits, but for the year. -/
theorem month_dateOf (days : ℤ) : (dateOf days).month ≤ 12 ∧ (dateOf days).day ≤ 31 := by
  obtain ⟨hyoe, hdoy, hsum⟩ := yearAndDay_spec ((days + 719468) % 146097).toNat (by omega)
  simp only [dateOf, monthOf, daysBefore]
  split_ifs <;> omega

/-- **The text of an instant of the years 1 to 9999** is read back. -/
theorem read_textOf {ms : ℤ} (hfirst : -62135596800000 ≤ ms) (hlast : ms ≤ 253402300799999) :
    read (textOf ms) = some ms := by
  obtain ⟨hone, hyears⟩ := year_dateOf (ms / 86400000) (by omega) (by omega)
  obtain ⟨hmonth, hday⟩ := month_dateOf (ms / 86400000)
  obtain ⟨time, htime⟩ : ∃ time : ℕ, (time : ℤ) = ms % 86400000 :=
    ⟨(ms % 86400000).toNat, Int.toNat_of_nonneg (Int.emod_nonneg _ (by norm_num))⟩
  have htoNat : (ms % 86400000).toNat = time := by omega
  obtain ⟨year, hyear⟩ : ∃ year : ℕ, (year : ℤ) = (dateOf (ms / 86400000)).year :=
    ⟨(dateOf (ms / 86400000)).year.toNat, Int.toNat_of_nonneg (by omega)⟩
  have hyearOf : yearOf (dateOf (ms / 86400000)).year = year := by
    rw [yearOf, if_neg (by omega)]
    omega
  have hdate : (⟨year, (dateOf (ms / 86400000)).month, (dateOf (ms / 86400000)).day⟩ : Date) =
      dateOf (ms / 86400000) := by
    rw [hyear]
  have hinstant : instantOf (textOf ms) = ms := by
    simp only [textOf, instantOf, hyearOf, htoNat, if_pos (show year ≤ 9999 by omega)]
    simp (disch := omega) only [part_fixed]
    rw [hdate, dayOf_dateOf]
    omega
  rw [read, if_pos (by rw [hinstant]), hinstant]

end CivilTime
