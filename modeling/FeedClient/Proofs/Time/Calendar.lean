import FeedClient.Time.Moment
import Mathlib.Algebra.BigOperators.Group.List.Basic
import Mathlib.Data.List.Lex
import Mathlib.Tactic.IntervalCases

/-!
# The Gregorian calendar

Years have 365 days, and leap years one more. The calendar counts the days from the first of January
1970 by adding up whole years, whole months and days, and `Moment.sinceEpoch` counts milliseconds in
the same way. The date of a day is one of the calendar, and the calendar counts as many days up to
it; a later date has a greater count. An era of four centuries is the same as every other, and in it
centuries, spans of four years and years are told by their lengths, as the shorter ones come last.
-/

namespace FeedClient.Moment

/-! ### Lengths -/

/-- A leap year: every fourth year, but of the years that end a century only every fourth. -/
def IsLeap (year : Int) : Prop :=
  4 ∣ year ∧ (100 ∣ year → 400 ∣ year)

instance : DecidablePred IsLeap :=
  fun year => inferInstanceAs (Decidable (4 ∣ year ∧ (100 ∣ year → 400 ∣ year)))

/-- The number of days of a month. -/
def monthLength (year : Int) : Nat → Nat
  | 2 => if IsLeap year then 29 else 28
  | 4 | 6 | 9 | 11 => 30
  | _ => 31

/-- The number of days of the first months of a year. -/
def monthsLength (year : Int) (count : Nat) : Nat :=
  ((List.range count).map fun k => monthLength year (k + 1)).sum

/-- The number of days of so many years from a first one on. -/
def yearsLength (first : Int) (count : Nat) : Nat :=
  ((List.range count).map fun k : Nat => monthsLength (first + k) 12).sum

/-- How many days after the first of January 1970 a year begins, or before it. -/
def daysToYear (year : Int) : Int :=
  yearsLength 1970 (year - 1970).toNat - yearsLength year (1970 - year).toNat

/-- How many days after the first of January 1970 a date is, or before it. -/
def dayNumber (year : Int) (month day : Nat) : Int :=
  daysToYear year + monthsLength year (month - 1) + (day - 1)

/-- How many milliseconds after the epoch a moment is, or before it. -/
def sinceEpoch (m : Moment) : Int :=
  dayNumber m.year m.month m.day * 86400000
    + (((m.hour * 60 + m.minute) * 60 + m.second) * 1000 + m.milli : Nat)

/-- A date of the calendar. -/
@[mk_iff]
structure IsDate (year : Int) (month day : Nat) : Prop where
  one_le_month : 1 ≤ month
  month_le : month ≤ 12
  one_le_day : 1 ≤ day
  day_le : day ≤ monthLength year month

/-- A date of the calendar and a time of day. -/
@[mk_iff]
structure Valid (m : Moment) : Prop where
  date : IsDate m.year m.month m.day
  hour : m.hour < 24
  minute : m.minute < 60
  second : m.second < 60
  milli : m.milli < 1000

/-! ### Counting days -/

/-- The number of leap years up to a year, but for a constant. -/
def leapDays (year : Int) : Int :=
  year / 4 - year / 100 + year / 400

theorem leapDays_eq (year : Int) :
  leapDays year = leapDays (year - 1) + if IsLeap year then 1 else 0
  := by
  simp only [leapDays]
  split
  all_goals
    simp only [IsLeap] at *
    omega

theorem monthsLength_succ (year : Int) (count : Nat) :
  monthsLength year (count + 1) = monthsLength year count + monthLength year (count + 1)
  := by
  rw [monthsLength, List.sum_range_succ]
  rfl

/-- From March on, every five months have 153 days. -/
theorem monthsLength_add_two (year : Int) {count : Nat} (h : count ≤ 10) :
  (monthsLength year (count + 2) : Int)
    = ((153 * count + 2) / 5 + 59 : Nat) + if IsLeap year then 1 else 0
  := by
  interval_cases count
  all_goals
    simp only [monthsLength, List.range_succ, List.range_zero, monthLength, List.map_cons,
      List.map_nil, List.nil_append, List.cons_append, List.sum_cons, List.sum_nil]
    split <;> rfl

theorem monthsLength_le (year : Int) {count count' : Nat} (h : count ≤ count') :
  monthsLength year count ≤ monthsLength year count'
  := by
  induction h with
  | refl => apply Nat.le_refl
  | step h ih =>
      rw [monthsLength_succ]
      apply Nat.le_add_right_of_le ih

theorem yearsLength_succ (first : Int) (count : Nat) :
  yearsLength first (count + 1) = yearsLength first count + monthsLength (first + count) 12
  := by
  rw [yearsLength, List.sum_range_succ]
  rfl

theorem monthsLength_twelve (year : Int) :
  (monthsLength year 12 : Int) = 365 + if IsLeap year then 1 else 0
  := by
  apply monthsLength_add_two year (Nat.le_refl 10)

theorem yearsLength_eq (first : Int) (count : Nat) :
  (yearsLength first count : Int)
    = 365 * count + leapDays (first + count - 1) - leapDays (first - 1)
  := by
  induction count with
  | zero =>
      simp [yearsLength]
  | succ count ih =>
      have hleap := leapDays_eq (first + count)
      have hlength := monthsLength_twelve (first + count)
      have hyear : first + (count + 1 : Nat) - 1 = first + count := by omega
      rw [yearsLength_succ, hyear]
      omega

theorem daysToYear_eq (year : Int) :
  daysToYear year = 365 * (year - 1970) + leapDays (year - 1) - leapDays 1969
  := by
  have hepoch : (1970 : Int) - 1 = 1969 := rfl
  rw [daysToYear, yearsLength_eq, yearsLength_eq, hepoch]
  obtain h | h := Int.le_total 1970 year
  · have hlast : (1970 : Int) + (year - 1970).toNat - 1 = year - 1 := by omega
    have hnone : (1970 - year).toNat = 0 := by omega
    rw [hlast, hnone, Int.natCast_zero, Int.add_zero]
    omega
  · have hlast : year + (1970 - year).toNat - 1 = 1969 := by omega
    have hnone : (year - 1970).toNat = 0 := by omega
    rw [hlast, hnone, Int.natCast_zero, Int.add_zero, hepoch]
    omega

/-- A date lies within its year. -/
theorem IsDate.lt_daysToYear {year : Int} {month day : Nat} (h : IsDate year month day) :
  dayNumber year month day < daysToYear (year + 1)
  := by
  have hmonth := monthsLength_succ year (month - 1)
  have hyear := monthsLength_le year h.month_le
  have hlength := monthsLength_twelve year
  have hleap := leapDays_eq year
  have hday := h.day_le
  rw [Nat.sub_add_cancel h.one_le_month] at hmonth
  rw [dayNumber, daysToYear_eq, daysToYear_eq, Int.add_sub_cancel]
  omega

theorem daysToYear_mono {year year' : Int} (h : year ≤ year') :
  daysToYear year ≤ daysToYear year'
  := by
  simp only [daysToYear_eq, leapDays]
  omega

theorem IsDate.daysToYear_le {year : Int} {month day : Nat} (h : IsDate year month day) :
  daysToYear year ≤ dayNumber year month day
  := by
  have hday := h.one_le_day
  rw [dayNumber]
  omega

theorem IsDate.day_lt {year : Int} {month day : Nat} (h : IsDate year month day) :
  day < 32
  := by
  have hlength : monthLength year month ≤ 31 := by
    unfold monthLength
    split
    · split <;> decide
    all_goals decide
  have hday := h.day_le
  omega

/-! ### The date of a day -/

/-- An era is centuries, spans of four years, years and days, and each of the first three counts ends
with a shorter one. -/
theorem exists_parts_dayOfEra {day : Nat} (h : day < 146097) :
  ∃ century span year rest : Nat,
    day = 36524 * century + 1461 * span + 365 * year + rest ∧ century ≤ 3 ∧ span ≤ 24 ∧ year ≤ 3
      ∧ rest ≤ 365 ∧ (rest = 365 → year = 3 ∧ (span = 24 → century = 3))
  := by
  -- the last century and the last year of a span are longer, so their quotients would be 4
  use min (day / 36524) 3, (day - 36524 * min (day / 36524) 3) / 1461,
    min ((day - 36524 * min (day / 36524) 3) % 1461 / 365) 3
  use (day - 36524 * min (day / 36524) 3) % 1461
    - 365 * min ((day - 36524 * min (day / 36524) 3) % 1461 / 365) 3
  omega

/-- The year of a day of an era. A span of four years is a day longer than 1460, a century is a day
shorter than its 25 spans, and the era is a day longer than its four centuries. -/
theorem yearOfEra_eq {day century span year rest : Nat}
    (hday : day = 36524 * century + 1461 * span + 365 * year + rest) (hcentury : century ≤ 3)
    (hspan : span ≤ 24) (hyear : year ≤ 3) (hrest : rest ≤ 365)
    (hlast : rest = 365 → year = 3 ∧ (span = 24 → century = 3)) :
  (day - day / 1460 + day / 36524 - day / 146096) / 365 = 100 * century + 4 * span + year
  := by
  have hspans : day / 1460 = 25 * century + span
      + (24 * century + span + 365 * year + rest) / 1460 := by
    omega
  have hcenturies : day / 36524 = century + day / 146096 := by
    obtain hera | hera : day = 146096 ∨ day < 146096 := by omega
    · omega
    · have hnone : day / 146096 = 0 := Nat.div_eq_of_lt hera
      rw [hnone]
      omega
  rw [hspans, hcenturies]
  omega

/-- The date of a day of a year that begins in March: one of the calendar, which counts as many days
up to it as there are to the year and the day. -/
structure IsMarchDay (year : Int) (dayOfYear : Nat) (year' : Int) (month day : Nat) : Prop where
  eq : ofMarch year dayOfYear = (year', month, day)
  date : IsDate year' month day
  dayNumber_eq : dayNumber year' month day = 365 * year + leapDays year + dayOfYear - 719468

theorem leapDays_epoch :
  leapDays 1969 = 477
  := by
  decide

/-- The ten months from March to December. -/
theorem isMarchDay_of_lt {dayOfYear m : Nat} (year : Int) (h : dayOfYear < 306)
    (hm : (5 * dayOfYear + 2) / 153 = m) :
  IsMarchDay year dayOfYear year (m + 3) (dayOfYear - (153 * m + 2) / 5 + 1)
  := by
  have hlt : m < 10 := by omega
  have hmonth : monthsLength year (m + 1 + 2) = monthsLength year (m + 2) + monthLength year (m + 3)
    := monthsLength_succ year (m + 2)
  have hbefore := monthsLength_add_two year (show m ≤ 10 by omega)
  have hafter := monthsLength_add_two year (show m + 1 ≤ 10 by omega)
  have hleap := leapDays_eq year
  refine ⟨?_, ⟨by omega, by omega, by omega, ?_⟩, ?_⟩
  · have hlate : ¬ m + 3 ≤ 2 := by omega
    rw [ofMarch, hm]
    simp only [if_pos hlt, if_neg hlate, Int.add_zero]
  · omega
  · rw [dayNumber, daysToYear_eq, leapDays_epoch, Nat.add_sub_cancel (m + 2) 1]
    omega

theorem isMarchDay_january {dayOfYear : Nat} (year : Int) (hfirst : 306 ≤ dayOfYear)
    (hlast : dayOfYear < 337) :
  IsMarchDay year dayOfYear (year + 1) 1 (dayOfYear - 305)
  := by
  have hm : (5 * dayOfYear + 2) / 153 = 10 := by omega
  have hlength : monthLength (year + 1) 1 = 31 := rfl
  have hnone : monthsLength (year + 1) (1 - 1) = 0 := rfl
  refine ⟨?_, ⟨by omega, by omega, by omega, by omega⟩, ?_⟩
  · have hday : dayOfYear - (153 * 10 + 2) / 5 + 1 = dayOfYear - 305 := by omega
    simp only [ofMarch, hm, hday]
    rfl
  · rw [dayNumber, daysToYear_eq, leapDays_epoch, hnone, Int.add_sub_cancel]
    omega

/-- The month that leap years end with. -/
theorem isMarchDay_february {year : Int} {dayOfYear : Nat} (hfirst : 337 ≤ dayOfYear)
    (hlast : dayOfYear ≤ 365) (hleap : dayOfYear = 365 → IsLeap (year + 1)) :
  IsMarchDay year dayOfYear (year + 1) 2 (dayOfYear - 336)
  := by
  have hm : (5 * dayOfYear + 2) / 153 = 11 := by omega
  have hlength : monthLength (year + 1) 2 = if IsLeap (year + 1) then 29 else 28 := rfl
  have hjanuary : monthsLength (year + 1) (2 - 1) = 31 := rfl
  refine ⟨?_, ⟨by omega, by omega, by omega, ?_⟩, ?_⟩
  · have hday : dayOfYear - (153 * 11 + 2) / 5 + 1 = dayOfYear - 336 := by omega
    simp only [ofMarch, hm, hday]
    rfl
  · rw [hlength]
    split
    · omega
    · next hnot =>
        have hshort : dayOfYear ≠ 365 := by
          intro hday
          apply hnot (hleap hday)
        omega
  · rw [dayNumber, daysToYear_eq, leapDays_epoch, hjanuary, Int.add_sub_cancel]
    omega

theorem exists_isMarchDay {year : Int} {dayOfYear : Nat} (h : dayOfYear ≤ 365)
    (hleap : dayOfYear = 365 → IsLeap (year + 1)) :
  ∃ (year' : Int) (month day : Nat), IsMarchDay year dayOfYear year' month day
  := by
  obtain hspring | hjanuary | hfebruary :
      dayOfYear < 306 ∨ (306 ≤ dayOfYear ∧ dayOfYear < 337) ∨ 337 ≤ dayOfYear := by omega
  · exact ⟨_, _, _, isMarchDay_of_lt year hspring rfl⟩
  · exact ⟨_, _, _, isMarchDay_january year hjanuary.1 hjanuary.2⟩
  · exact ⟨_, _, _, isMarchDay_february hfebruary h hleap⟩

/-- A day of an era is one of the first 366 of its year, and the 366th only if a leap year follows. -/
theorem exists_yearOfEra_eq {day : Nat} (h : day < 146097) :
  ∃ yearOfEra dayOfYear : Nat,
    (day - day / 1460 + day / 36524 - day / 146096) / 365 = yearOfEra
      ∧ day = 365 * yearOfEra + yearOfEra / 4 - yearOfEra / 100 + dayOfYear ∧ yearOfEra < 400
      ∧ dayOfYear ≤ 365 ∧ (dayOfYear = 365 → IsLeap (yearOfEra + 1))
  := by
  obtain ⟨century, span, year, rest, hday, hcentury, hspan, hyear, hrest, hlast⟩
    := exists_parts_dayOfEra h
  have hyearOfEra := yearOfEra_eq hday hcentury hspan hyear hrest hlast
  have hspans : (100 * century + 4 * span + year) / 4 = 25 * century + span := by omega
  have hcenturies : (100 * century + 4 * span + year) / 100 = century := by omega
  use 100 * century + 4 * span + year, rest
  refine ⟨hyearOfEra, ?_, by omega, hrest, ?_⟩
  · rw [hspans, hcenturies, hday]
    omega
  · intro hleap
    obtain ⟨hyears, hspans⟩ := hlast hleap
    rw [IsLeap]
    omega

theorem isLeap_add_era (year era : Int) :
  IsLeap (era * 400 + year) ↔ IsLeap year
  := by
  rw [IsLeap, IsLeap]
  omega

/-- The date of a day is one of the calendar, which counts as many days up to it. -/
theorem exists_date_eq (days : Int) :
  ∃ (year : Int) (month day : Nat),
    date days = (year, month, day) ∧ IsDate year month day ∧ dayNumber year month day = days
  := by
  obtain ⟨era, hera⟩ : ∃ era, (days + 719468) / 146097 = era := ⟨_, rfl⟩
  obtain ⟨day, hday⟩ : ∃ day, ((days + 719468) % 146097).toNat = day := ⟨_, rfl⟩
  obtain ⟨yearOfEra, dayOfYear, hyear, hdays, hlt, hle, hlast⟩
    := exists_yearOfEra_eq (show day < 146097 by omega)
  have hdayOfYear : day - (365 * yearOfEra + yearOfEra / 4 - yearOfEra / 100) = dayOfYear := by
    rw [hdays, Nat.add_sub_cancel_left]
  have hleap : dayOfYear = 365 → IsLeap (era * 400 + yearOfEra + 1) := by
    rw [Int.add_assoc, isLeap_add_era]
    apply hlast
  have hleapDays : leapDays (era * 400 + yearOfEra)
      = 97 * era + (yearOfEra / 4 - yearOfEra / 100 : Nat) := by
    rw [leapDays]
    omega
  obtain ⟨year', month', day', hofMarch, hdate, hnumber⟩ := exists_isMarchDay hle hleap
  refine ⟨year', month', day', ?_, hdate, ?_⟩
  · simp only [date, hera, hday, hyear, hdayOfYear, hofMarch]
  · -- the divisions of these two are settled by now
    clear hyear hdayOfYear
    rw [hnumber, hleapDays]
    omega

/-- The moment of a count of milliseconds is one of the calendar, which counts as many up to it. -/
theorem valid_ofMillis (millis : Int) :
  (ofMillis millis).Valid
  := by
  obtain ⟨year, month, day, hdate, h, -⟩ := exists_date_eq (millis / 86400000)
  rw [ofMillis, hdate]
  refine ⟨h, ?_, ?_, ?_, ?_⟩
  all_goals
    dsimp only
    omega

@[simp]
theorem sinceEpoch_ofMillis (millis : Int) :
  (ofMillis millis).sinceEpoch = millis
  := by
  obtain ⟨year, month, day, hdate, -, hnumber⟩ := exists_date_eq (millis / 86400000)
  rw [ofMillis, hdate, sinceEpoch, hnumber]
  dsimp only
  omega

/-! ### Order -/

/-- A later date has a greater count of days. -/
theorem IsDate.dayNumber_lt {year year' : Int} {month month' day day' : Nat}
    (h : IsDate year month day) (h' : IsDate year' month' day')
    (hlt : year < year' ∨ year = year' ∧ (month < month' ∨ month = month' ∧ day < day')) :
  dayNumber year month day < dayNumber year' month' day'
  := by
  rcases hlt with hyear | ⟨rfl, hmonth | ⟨rfl, hday⟩⟩
  · have hnext := daysToYear_mono (show year + 1 ≤ year' by omega)
    have hwithin := h.lt_daysToYear
    have hfrom := h'.daysToYear_le
    omega
  · have hsucc := monthsLength_succ year (month - 1)
    have hle := monthsLength_le year (show month ≤ month' - 1 by omega)
    have hday := h.day_le
    have hday' := h'.one_le_day
    rw [Nat.sub_add_cancel h.one_le_month] at hsucc
    rw [dayNumber, dayNumber]
    omega
  · rw [dayNumber, dayNumber]
    omega

/-- The parts of a moment, the greatest first. -/
def parts (m : Moment) : List Int :=
  [m.year, m.month, m.day, m.hour, m.minute, m.second, m.milli]

/-- A later moment has a greater count of milliseconds. -/
theorem Valid.sinceEpoch_lt {m m' : Moment} (h : m.Valid) (h' : m'.Valid)
    (hlt : m.parts < m'.parts) :
  m.sinceEpoch < m'.sinceEpoch
  := by
  obtain ⟨hdate, hhour, hminute, hsecond, hmilli⟩ := h
  obtain ⟨hdate', hhour', hminute', hsecond', hmilli'⟩ := h'
  -- no time of day makes up for a whole day
  have hdays : (m.year < m'.year ∨ m.year = m'.year
      ∧ (m.month < m'.month ∨ m.month = m'.month ∧ m.day < m'.day))
      → m.sinceEpoch < m'.sinceEpoch := by
    intro hearlier
    have hnumber := hdate.dayNumber_lt hdate' hearlier
    rw [sinceEpoch, sinceEpoch]
    omega
  simp only [parts, List.cons_lt_cons_iff, Int.ofNat_lt, Int.natCast_inj, List.not_lt_nil,
    and_false, or_false] at hlt
  rcases hlt with hyear | ⟨hyear, hmonth | ⟨hmonth, hday | ⟨hday, htime⟩⟩⟩
  · apply hdays (Or.inl hyear)
  · apply hdays (Or.inr ⟨hyear, Or.inl hmonth⟩)
  · apply hdays (Or.inr ⟨hyear, Or.inr ⟨hmonth, hday⟩⟩)
  · have hsame : dayNumber m.year m.month m.day = dayNumber m'.year m'.month m'.day := by
      rw [hyear, hmonth, hday]
    rw [sinceEpoch, sinceEpoch, hsame]
    omega

/-- A year has come when its first day has. -/
theorem Valid.le_year_iff {m : Moment} (h : m.Valid) (year : Int) :
  year ≤ m.year ↔ daysToYear year * 86400000 ≤ m.sinceEpoch
  := by
  obtain ⟨hdate, hhour, hminute, hsecond, hmilli⟩ := h
  have hfrom := hdate.daysToYear_le
  have hwithin := hdate.lt_daysToYear
  rw [sinceEpoch]
  constructor
  · intro hle
    have hyears := daysToYear_mono hle
    omega
  · intro hle
    by_contra hlt
    have hyears := daysToYear_mono (show m.year + 1 ≤ year by omega)
    omega

/-- Moments whose counts are in order are in order themselves. -/
theorem Valid.parts_le {m m' : Moment} (h : m.Valid) (h' : m'.Valid)
    (hle : m.sinceEpoch ≤ m'.sinceEpoch) :
  m.parts ≤ m'.parts
  := by
  rw [← not_lt]
  intro hlt
  have hcount := h'.sinceEpoch_lt h hlt
  omega

theorem parts_inj {m m' : Moment} :
  m.parts = m'.parts ↔ m = m'
  := by
  rw [Moment.ext_iff]
  simp only [parts, List.cons.injEq, Int.natCast_inj, and_true]

/-- The moment of a count of milliseconds is the only one of the calendar that has this count. -/
theorem ofMillis_eq_iff {millis : Int} {m : Moment} :
  ofMillis millis = m ↔ m.Valid ∧ m.sinceEpoch = millis
  := by
  constructor
  · rintro rfl
    use valid_ofMillis millis, sinceEpoch_ofMillis millis
  · rintro ⟨h, rfl⟩
    have hcount := sinceEpoch_ofMillis m.sinceEpoch
    rw [← parts_inj]
    apply le_antisymm
    · apply (valid_ofMillis _).parts_le h hcount.le
    · apply h.parts_le (valid_ofMillis _) hcount.ge

end FeedClient.Moment
