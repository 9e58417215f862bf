/-!
# Dates and times of day

`Moment.ofMillis` turns milliseconds since the epoch into a date of the proleptic Gregorian calendar
and a time of day, in Coordinated Universal Time. Days are counted from the first of March of the
year 0, so that a leap day is the last day of its year; 400 years are always 146097 days. The calendar
does not go on for ever: `Moment.ofMillis?` is the moment if its year is one that can be told.
-/

namespace FeedClient

/-- A date and a time of day, to the millisecond. -/
@[ext]
structure Moment where
  year : Int
  month : Nat
  day : Nat
  hour : Nat
  minute : Nat
  second : Nat
  milli : Nat
deriving DecidableEq, Repr

namespace Moment

/-- The date of a day of a year that begins in March; the day is counted from zero. -/
def ofMarch (year : Int) (dayOfYear : Nat) : Int × Nat × Nat :=
  let monthFromMarch := (5 * dayOfYear + 2) / 153
  let day := dayOfYear - (153 * monthFromMarch + 2) / 5 + 1
  let month := if monthFromMarch < 10 then monthFromMarch + 3 else monthFromMarch - 9
  (year + if month ≤ 2 then 1 else 0, month, day)

/-- The date of a day, counted from the first of January 1970: year, month and day of the month. -/
def date (days : Int) : Int × Nat × Nat :=
  let fromMarch := days + 719468
  let dayOfEra := (fromMarch % 146097).toNat
  let yearOfEra := (dayOfEra - dayOfEra / 1460 + dayOfEra / 36524 - dayOfEra / 146096) / 365
  let dayOfYear := dayOfEra - (365 * yearOfEra + yearOfEra / 4 - yearOfEra / 100)
  ofMarch (fromMarch / 146097 * 400 + yearOfEra) dayOfYear

/-- The moment that many milliseconds after the epoch, or before it. -/
def ofMillis (millis : Int) : Moment :=
  let (year, month, day) := date (millis / 86400000)
  let ofDay := (millis % 86400000).toNat
  { year, month, day
    hour := ofDay / 3600000
    minute := ofDay / 60000 % 60
    second := ofDay / 1000 % 60
    milli := ofDay % 1000 }

/-- The first year that can be told. -/
def firstYear : Int :=
  -262143

/-- The last year that can be told. -/
def lastYear : Int :=
  262142

/-- The moment that many milliseconds after the epoch, or before it, if its year can be told. -/
def ofMillis? (millis : Int) : Option Moment :=
  let m := ofMillis millis
  if firstYear ≤ m.year ∧ m.year ≤ lastYear then some m else none

/-- The last `width` decimal digits of a number. -/
def digits : Nat → Nat → List Char
  | 0, _ => []
  | width + 1, n => digits width (n / 10) ++ [Char.ofNat (48 + n % 10)]

/-- A year in four digits. A year that needs more of them, or is before the year 0, has a sign. -/
def yearChars (year : Int) : List Char :=
  let n := year.natAbs
  if 0 ≤ year ∧ year ≤ 9999 then digits 4 n
  else (if 0 ≤ year then '+' else '-') :: digits (max 4 (Nat.toDigits 10 n).length) n

/-- The moment to the second, as `YYYY-MM-DD HH:MM:SS`. -/
def chars (m : Moment) : List Char :=
  yearChars m.year ++ '-' :: digits 2 m.month ++ '-' :: digits 2 m.day ++ ' ' ::
    digits 2 m.hour ++ ':' :: digits 2 m.minute ++ ':' :: digits 2 m.second

/-- The moment to the second, as `YYYY-MM-DD HH:MM:SS`. -/
def text (m : Moment) : String :=
  String.ofList m.chars

/-- The moment to the millisecond, as `YYYY-MM-DD HH:MM:SS.mmm`. -/
def preciseText (m : Moment) : String :=
  String.ofList (m.chars ++ '.' :: digits 3 m.milli)

end Moment

end FeedClient
