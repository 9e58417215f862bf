import FeedClient.Json.Fault
import FeedClient.Number.Binary64
import FeedClient.Number.Digit
import FeedClient.Number.Signed

/-!
# JSON numbers

A number is read character by character. Its digits make up a significand of at most 64 bits; those
that do not fit are counted in the scale and dropped. A number is an integer when it has neither
fraction nor exponent; every other number is taken for a binary64 number, which has to be finite.
-/

namespace FeedClient.Json

/-- What has been read of a number. -/
structure Numeral where
  negative : Bool
  significand : Nat := 0
  /-- The power of ten that the significand is scaled by. -/
  scale : Int := 0
  /-- No further digit fits into the significand. -/
  full : Bool := false
  /-- There is neither a fraction nor an exponent. -/
  whole : Bool := true
  powerNegative : Bool := false
  power : Nat := 0
deriving DecidableEq, Repr

namespace Numeral

/-- The largest significand. -/
def limit : Nat :=
  0xFFFFFFFFFFFFFFFF

/-- Appends a digit, which stands before the point or after it. -/
def addDigit (n : Numeral) (afterPoint : Bool) (c : Char) : Numeral :=
  let next := n.significand * 10 + digitValue c
  if !n.full && next ≤ limit then
    { n with significand := next, scale := if afterPoint then n.scale - 1 else n.scale }
  else { n with full := true, scale := if afterPoint then n.scale else n.scale + 1 }

/-- The point: digits after it may fit again. -/
def addPoint (n : Numeral) : Numeral :=
  { n with whole := false, full := false }

/-- The power of ten that the significand is multiplied by. -/
def exponent (n : Numeral) : Int :=
  if n.powerNegative then n.scale - n.power else n.scale + n.power

/-- Whether the number is beyond the binary64 numbers. The significand and the power of ten are
each rounded before they are multiplied. -/
def isInfinite (n : Numeral) : Bool :=
  let f := Binary64.roundNat n.significand
  if f = 0 || n.exponent < 0 then false
  else if 308 < n.exponent then true
  else Binary64.overflows (f * Binary64.roundNat (Nat.pow 10 n.exponent.toNat))

/-- The number as an integer of 64 bits. Minus zero is no integer. -/
def toInt64? (n : Numeral) : Option Int64 :=
  if !n.whole || n.full then none
  else if n.negative then
    if n.significand = 0 then none else int64? (-(n.significand : Int))
  else int64? n.significand

/-- Where in a number the reader stands. -/
inductive Place
  /-- After the sign. -/
  | sign
  /-- After a leading zero. -/
  | zero
  | integer
  /-- After the point. -/
  | point
  | fraction
  /-- After the mark of the exponent. -/
  | mark
  /-- After the sign of the exponent. -/
  | powerSign
  | power
deriving DecidableEq, Repr

/-- Whether a number may end here. -/
def Place.isEnd : Place → Bool
  | zero | integer | fraction | power => true
  | sign | point | mark | powerSign => false

/-- What a character does to a number that is being read. -/
inductive Step
  | more (place : Place) (n : Numeral)
  /-- The number has ended before the character. -/
  | ended

/-- What may follow an integer part. -/
def afterInteger (n : Numeral) (c : Char) : Step :=
  if c = '.' then .more .point n.addPoint
  else if c = 'e' || c = 'E' then .more .mark { n with whole := false }
  else .ended

/-- Reads one character of a number. -/
def step (n : Numeral) (place : Place) (c : Char) : Except Fault Step :=
  match place with
  | .sign =>
    if c = '0' then .ok (.more .zero n)
    else if isDigit c then .ok (.more .integer (n.addDigit false c))
    else .error .malformed
  | .zero => if isDigit c then .error .malformed else .ok (n.afterInteger c)
  | .integer =>
    if isDigit c then .ok (.more .integer (n.addDigit false c)) else .ok (n.afterInteger c)
  | .point => if isDigit c then .ok (.more .fraction (n.addDigit true c)) else .error .malformed
  | .fraction =>
    if isDigit c then .ok (.more .fraction (n.addDigit true c))
    else if c = 'e' || c = 'E' then .ok (.more .mark n)
    else .ok .ended
  | .mark =>
    if c = '+' then .ok (.more .powerSign n)
    else if c = '-' then .ok (.more .powerSign { n with powerNegative := true })
    else if isDigit c then .ok (.more .power { n with power := digitValue c })
    else .error .malformed
  | .powerSign =>
    if isDigit c then .ok (.more .power { n with power := digitValue c }) else .error .malformed
  | .power =>
    if isDigit c then .ok (.more .power { n with power := n.power * 10 + digitValue c })
    else .ok .ended

end Numeral

end FeedClient.Json
