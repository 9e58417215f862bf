/-!
# Binary64 numbers

A binary64 number has at most 53 significant bits, and its power of two is at least -1074. Numbers
are rounded to the nearest such number, ties to the one whose significand is even, and a number that
is as close to 2 to the 1024th as to any number below is infinite.
-/

namespace FeedClient

/-- A binary64 number. -/
inductive Binary64
  /-- The number `significand * 2 ^ power`, or its negative. -/
  | finite (negative : Bool) (significand : Nat) (power : Int)
  | infinite (negative : Bool)
  /-- No number. -/
  | nan
deriving DecidableEq, Repr

namespace Binary64

/-- The quotient rounded to the nearest integer, ties to the even one. -/
def divNearest (n d : Nat) : Nat :=
  let q := n / d
  let r := n % d
  if 2 * r < d then q else if d < 2 * r then q + 1 else q + q % 2

/-- The nearest natural number of at most 53 significant bits. -/
def roundNat (n : Nat) : Nat :=
  let excess := n.log2 + 1 - 53
  divNearest n (Nat.pow 2 excess) * Nat.pow 2 excess

/-- Whether a number is closer to 2 to the 1024th, or as close to it, as to any number below. -/
def overflows (n : Nat) : Bool :=
  Nat.pow 2 1024 - Nat.pow 2 970 ≤ n

/-- The largest `e` for which 2 to the power `e` is at most `n / d`. -/
def log2Quotient (n d : Nat) : Int :=
  let e : Int := n.log2 - d.log2
  if n * Nat.pow 2 (-e).toNat < d * Nat.pow 2 e.toNat then e - 1 else e

/-- The number nearest to `n / d`. A significand that is rounded up to 54 bits is a power of two,
and is halved. -/
def ofQuotient (negative : Bool) (n d : Nat) : Binary64 :=
  if n = 0 then finite negative 0 0
  else
    let power := max (log2Quotient n d - 52) (-1074)
    let significand := divNearest (n * Nat.pow 2 (-power).toNat) (d * Nat.pow 2 power.toNat)
    if 1024 ≤ significand.log2 + power then infinite negative
    else if significand = Nat.pow 2 53 then finite negative (Nat.pow 2 52) (power + 1)
    else finite negative significand power

/-- The number nearest to `significand * 10 ^ exponent`. Exponents that are out of reach are not
raised to. -/
def ofDecimal (negative : Bool) (significand : Nat) (exponent : Int) : Binary64 :=
  if significand = 0 || exponent + significand.log2 / 3 + 1 < -400 then finite negative 0 0
  else if 400 < exponent then infinite negative
  else ofQuotient negative (significand * Nat.pow 10 exponent.toNat) (Nat.pow 10 (-exponent).toNat)

/-- The largest number of 64 bits. -/
def largest : Nat :=
  0xFFFFFFFFFFFFFFFF

/-- The nearest natural number, a half going up, within 64 bits. Negative numbers and what is no
number count as zero. -/
def toUInt64 : Binary64 → UInt64
  | finite true _ _ | infinite true | nan => 0
  | infinite false => UInt64.ofNat largest
  | finite false significand power =>
    let n :=
      if 0 ≤ power then significand * Nat.pow 2 power.toNat
      else (2 * significand + Nat.pow 2 (-power).toNat) / Nat.pow 2 ((-power).toNat + 1)
    UInt64.ofNat (min n largest)

end Binary64

end FeedClient
