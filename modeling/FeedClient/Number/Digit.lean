/-!
# Decimal digits

Numbers are written with the ten ASCII digits, the highest first.
-/

namespace FeedClient

/-- Whether a character is a decimal digit. -/
def isDigit (c : Char) : Bool :=
  '0' ≤ c && c ≤ '9'

/-- The value of a decimal digit. -/
def digitValue (c : Char) : Nat :=
  c.toNat - 48

/-- The number that digits make up. -/
def natOfDigits (digits : List Char) : Nat :=
  digits.foldl (fun n c => n * 10 + digitValue c) 0

/-- Reads digits, at least one, with an optional plus before them, as a number of 64 bits. -/
def unsigned? (s : List Char) : Option UInt64 :=
  let digits := match s with
    | '+' :: rest => rest
    | _ => s
  if digits.isEmpty || !digits.all isDigit then none
  else if natOfDigits digits ≤ 0xFFFFFFFFFFFFFFFF then some (UInt64.ofNat (natOfDigits digits))
  else none

end FeedClient
