import FeedClient.Json.Quoted
import FeedClient.Number.Digit
import FeedClient.Number.Signed
import FeedClient.Toml.Value

/-!
# Numbers, dates and truth values

Everything that is neither quoted nor in brackets is one run of letters, digits and a few marks, and
is read as a whole. Underscores may stand between digits. Integers have 64 bits; a number with a
fraction or an exponent is a binary64 number, which must not be too large. The seconds of a time of
day may be left out.
-/

namespace FeedClient.Toml

/-- Digits with single underscores between them; the underscores are taken out. -/
def grouped? (isDigit : Char → Bool) : List Char → Option (List Char)
  | [] => none
  | [c] => if isDigit c then some [c] else none
  | c :: '_' :: rest => if isDigit c then (grouped? isDigit rest).map (c :: ·) else none
  | c :: rest => if isDigit c then (grouped? isDigit rest).map (c :: ·) else none

/-- Digits of the integer part of a number: a zero at the start stands alone. -/
def integerDigits? (s : List Char) : Option (List Char) := do
  let digits ← grouped? isDigit s
  match digits with
  | '0' :: _ :: _ => none
  | _ => some digits

/-- An integer of 64 bits. -/
def integer? (n : Int) : Option Value :=
  (int64? n).map .integer

/-- An integer in another base. -/
def based? (base : Nat) (s : List Char) : Option Value := do
  let isDigit (c : Char) : Bool := match Json.hexValue? c with
    | some d => d < base
    | none => false
  let digits ← grouped? isDigit s
  integer? (digits.foldl (fun n c => n * base + (Json.hexValue? c).getD 0) 0 : Nat)

/-- An exponent, with an optional sign. -/
def exponent? (s : List Char) : Option Int :=
  match s with
  | '-' :: digits => (grouped? isDigit digits).map fun d => -(natOfDigits d : Int)
  | '+' :: digits => (grouped? isDigit digits).map fun d => natOfDigits d
  | digits => (grouped? isDigit digits).map fun d => natOfDigits d

/-- A number with a fraction or an exponent. -/
def real? (negative : Bool) (whole fraction : List Char) (exponent : Int) : Option Value :=
  match Binary64.ofDecimal negative (natOfDigits (whole ++ fraction))
    (exponent - fraction.length) with
  | .infinite _ => none
  | x => some (.real x)

/-- A decimal number without its sign. -/
def unsignedNumber? (negative : Bool) (s : List Char) : Option Value := do
  let isMark (c : Char) : Bool := c = 'e' || c = 'E'
  let whole ← integerDigits? (s.takeWhile fun c => c ≠ '.' && !isMark c)
  match s.dropWhile fun c => c ≠ '.' && !isMark c with
  | [] => integer? (if negative then -(natOfDigits whole : Int) else natOfDigits whole)
  | '.' :: rest =>
    let fraction ← grouped? isDigit (rest.takeWhile fun c => !isMark c)
    match rest.dropWhile fun c => !isMark c with
    | [] => real? negative whole fraction 0
    | _ :: power => real? negative whole fraction (← exponent? power)
  | _ :: power => real? negative whole [] (← exponent? power)

/-- A number. -/
def number? (s : List Char) : Option Value :=
  let unsigned (negative : Bool) (s : List Char) : Option Value :=
    match s with
    | ['i', 'n', 'f'] => some (.real (.infinite negative))
    | ['n', 'a', 'n'] => some (.real .nan)
    | _ => unsignedNumber? negative s
  match s with
  | '0' :: 'x' :: digits => based? 16 digits
  | '0' :: 'o' :: digits => based? 8 digits
  | '0' :: 'b' :: digits => based? 2 digits
  | '-' :: rest => unsigned true rest
  | '+' :: rest => unsigned false rest
  | _ => unsigned false s

/-- The number of days of a month. -/
def monthLength (year month : Nat) : Nat :=
  if month = 2 then
    if year % 4 = 0 && (year % 100 ≠ 0 || year % 400 = 0) then 29 else 28
  else if month = 4 || month = 6 || month = 9 || month = 11 then 30
  else 31

/-- A number of the given count of digits and what comes after them. -/
def fixed? (count : Nat) (s : List Char) : Option (Nat × List Char) :=
  let digits := s.take count
  if digits.length = count && digits.all isDigit then some (natOfDigits digits, s.drop count)
  else none

/-- What comes after a mark. -/
def after? (mark : Char) : List Char → Option (List Char)
  | c :: rest => if c = mark then some rest else none
  | [] => none

/-- What comes after a date of the calendar. -/
def skipDate? (s : List Char) : Option (List Char) := do
  let (year, s) ← fixed? 4 s
  let (month, s) ← fixed? 2 (← after? '-' s)
  let (day, s) ← fixed? 2 (← after? '-' s)
  if 1 ≤ month && month ≤ 12 && 1 ≤ day && day ≤ monthLength year month then some s else none

/-- What comes after hours and minutes. -/
def skipMinutes? (s : List Char) : Option (List Char) := do
  let (hour, s) ← fixed? 2 s
  let (minute, s) ← fixed? 2 (← after? ':' s)
  if hour ≤ 23 && minute ≤ 59 then some s else none

/-- What comes after seconds; there are leap seconds. -/
def skipSeconds? (s : List Char) : Option (List Char) := do
  let (second, s) ← fixed? 2 s
  if second ≤ 60 then some s else none

/-- The usual spelling of a fraction of a second: to the nanosecond, without zeros at the end but
for one that stands alone. -/
def secondFraction (digits : List Char) : List Char :=
  match ((digits.take 9).reverse.dropWhile (· = '0')).reverse with
  | [] => ['.', '0']
  | kept => '.' :: kept

/-- The usual spelling of a time of day, and what comes after it. Only seconds have fractions. -/
def timeOfDay? (s : List Char) : Option (List Char × List Char) := do
  match ← skipMinutes? s with
  | ':' :: rest =>
    match ← skipSeconds? rest with
    | '.' :: rest =>
      let digits := rest.takeWhile isDigit
      if digits.isEmpty then none
      else some (s.take 8 ++ secondFraction digits, rest.dropWhile isDigit)
    | rest => some (s.take 8, rest)
  | rest => some (s.take 5, rest)

/-- The usual spelling of the distance from Coordinated Universal Time, if there is any. -/
def offset? : List Char → Option (List Char)
  | [] => some []
  | ['Z'] | ['z'] => some ['Z']
  | sign :: rest =>
    if sign = '+' || sign = '-' then do
      let [] ← skipMinutes? rest | none
      some ((if rest.all fun c => c = '0' || c = ':' then '+' else sign) :: rest)
    else none

/-- A date, a time of day, or both. -/
def time? (s : List Char) : Option Value := do
  match skipDate? s with
  | some [] => some (.time (String.ofList s))
  | some (mark :: rest) =>
    if mark = 'T' || mark = 't' || mark = ' ' then
      let (time, rest) ← timeOfDay? rest
      let offset ← offset? rest
      some (.time (String.ofList (s.take 10 ++ 'T' :: time ++ offset)))
    else none
  | none =>
    let (time, []) ← timeOfDay? s | none
    some (.time (String.ofList time))

/-- The value that a whole run of characters stands for. -/
def scalar? (run : List Char) : Option Value :=
  match run with
  | ['t', 'r', 'u', 'e'] => some (.boolean true)
  | ['f', 'a', 'l', 's', 'e'] => some (.boolean false)
  | _ => (time? run).or (number? run)

/-- Whether a character may stand in a run. -/
def isRun (c : Char) : Bool :=
  c.isAlphanum || c = '+' || c = '-' || c = '_' || c = '.' || c = ':'

/-- Reads a run as a value. A blank between a date and a time of day does not end the run. -/
def scalar (s : List Char) : Option (Value × List Char) := do
  let run := s.takeWhile isRun
  let rest := s.dropWhile isRun
  match rest with
  | ' ' :: c :: more =>
    if isDigit c && (skipDate? run).any List.isEmpty then
      let value ← scalar? (run ++ ' ' :: (c :: more).takeWhile isRun)
      some (value, (c :: more).dropWhile isRun)
    else some (← scalar? run, rest)
  | _ => some (← scalar? run, rest)

end FeedClient.Toml
