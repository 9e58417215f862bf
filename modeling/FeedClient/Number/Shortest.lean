import FeedClient.Number.Binary64

/-!
# The shortest decimal text of a binary64 number

Every decimal number between the midpoints to the neighbours of a binary64 number is read as that
number; the midpoints themselves are when the significand is even. Of the powers of ten, the largest
that has a multiple between the midpoints gives the fewest digits, and of two multiples the nearer
one is taken, the larger one if both are equally near. Numbers are written without an exponent.
-/

namespace FeedClient.Binary64

/-- The multiple of `10 ^ e` that is read as `significand * 2 ^ power`, if there is any. -/
def multiple? (significand : Nat) (power e : Int) : Option Nat :=
  let n := Nat.pow 2 (power - 2).toNat * Nat.pow 10 (-e).toNat
  let d := Nat.pow 2 (2 - power).toNat * Nat.pow 10 e.toNat
  let value := 4 * significand * n
  let low := (4 * significand - if significand = Nat.pow 2 52 && -1074 < power then 1 else 2) * n
  let high := (4 * significand + 2) * n
  let inside (k : Nat) : Bool :=
    if significand % 2 = 0 then low ≤ k * d && k * d ≤ high else low < k * d && k * d < high
  let down := value / d
  if inside down && (!inside (down + 1) || 2 * (value - down * d) < d) then some down
  else if inside (down + 1) then some (down + 1)
  else none

/-- Goes through the powers of ten from `e` downwards, at most `steps` of them. -/
def search (significand : Nat) (power : Int) : Nat → Int → Nat × Int
  | 0, e => (significand, e)
  | steps + 1, e =>
    match multiple? significand power e with
    | some k => (k, e)
    | none => search significand power steps (e - 1)

/-- The digits of a number and the power of ten of the last one. -/
def shortest (significand : Nat) (power : Int) : Nat × Int :=
  let size : Int := significand.log2 + power
  search significand power 120 (if 0 ≤ size then size / 3 + 1 else size / 4 + 1)

/-- Digits with the point where the power of ten of the last digit wants it. -/
def placePoint (digits : List Char) (e : Int) : List Char :=
  if 0 ≤ e then digits ++ List.replicate e.toNat '0'
  else
    let places := (-e).toNat
    if digits.length ≤ places then
      '0' :: '.' :: List.replicate (places - digits.length) '0' ++ digits
    else digits.take (digits.length - places) ++ '.' :: digits.drop (digits.length - places)

/-- The text of a number. -/
def text : Binary64 → String
  | nan => "NaN"
  | infinite false => "inf"
  | infinite true => "-inf"
  | finite negative significand power =>
    let (k, e) := if significand = 0 then (0, 0) else shortest significand power
    String.ofList ((if negative then ['-'] else []) ++ placePoint (Nat.toDigits 10 k) e)

end FeedClient.Binary64
