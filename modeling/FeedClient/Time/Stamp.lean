import FeedClient.Number.Signed

/-!
# Hexadecimal timestamps

The server writes times as nanoseconds since the epoch in hexadecimal. `Stamp.parse` reads copies
of `0x`, then at most one sign, then at least one digit; the value has to fit into 64 bits with
sign. The first problem from left to right decides the fault, and at one place a character that is
no digit comes before a value that has grown too large.
-/

namespace FeedClient.Stamp

/-- Why a text is no timestamp. -/
inductive Fault
  | empty
  | invalidDigit
  | tooLarge
  | tooSmall
deriving DecidableEq, Repr

def Fault.message : Fault → String
  | empty => "cannot parse integer from empty string"
  | invalidDigit => "invalid digit found in string"
  | tooLarge => "number too large to fit in target type"
  | tooSmall => "number too small to fit in target type"

/-- What the user is told about a text that is no timestamp. -/
def invalidMessage (posted : String) : String :=
  "invalid hex timestamp '" ++ posted ++ "'"

/-- The value of a hexadecimal digit of either case. -/
def digit? (c : Char) : Option Nat :=
  if '0' ≤ c ∧ c ≤ '9' then some (c.toNat - 48)
  else if 'a' ≤ c ∧ c ≤ 'f' then some (c.toNat - 87)
  else if 'A' ≤ c ∧ c ≤ 'F' then some (c.toNat - 55)
  else none

/-- Takes all copies of `0x` off the start of a text. -/
def dropMarks : List Char → List Char
  | '0' :: 'x' :: rest => dropMarks rest
  | s => s

/-- Reads digits after those that make up `value`, as long as the value is at most `limit`. -/
def magnitude (limit : Nat) (excess : Fault) (value : Nat) : List Char → Except Fault Nat
  | [] => .ok value
  | c :: rest =>
    match digit? c with
    | none => .error .invalidDigit
    | some d =>
      if value * 16 + d ≤ limit then magnitude limit excess (value * 16 + d) rest else .error excess

/-- Reads one or more digits; `whenEmpty` is the fault of a text without any. -/
def digits (whenEmpty : Fault) (limit : Nat) (excess : Fault) : List Char → Except Fault Nat
  | [] => .error whenEmpty
  | s => magnitude limit excess 0 s

/-- Reads an optional sign and digits as an integer of 64 bits. -/
def signed : List Char → Except Fault Int64
  | '-' :: s =>
    (digits .invalidDigit depthInt64 .tooSmall s).map fun n => Int64.ofInt (-(n : Int))
  | '+' :: s => (digits .invalidDigit greatestInt64 .tooLarge s).map fun n => Int64.ofInt n
  | s => (digits .empty greatestInt64 .tooLarge s).map fun n => Int64.ofInt n

/-- Reads the hexadecimal text of a timestamp as nanoseconds since the epoch. -/
def parse (posted : String) : Except Fault Int64 :=
  signed (dropMarks posted.toList)

/-- Milliseconds since the epoch: the nanoseconds divided by a million, rounded toward zero. -/
def millis (nanos : Int64) : Int :=
  nanos.toInt.tdiv 1000000

end FeedClient.Stamp
