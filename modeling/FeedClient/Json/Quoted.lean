import FeedClient.Json.Fault

/-!
# JSON strings

Between quotes, a quote, a backslash and the characters below the space are written as escapes, and
everything else as it is. Reading accepts every escape of JSON. A character beyond 16 bits may be
written as two escapes of 16 bits, a leading and a trailing surrogate; where a string is read for
its text, a surrogate without its partner is refused, and where it is only passed over it is not.
-/

namespace FeedClient.Json

/-- The lower case hexadecimal digit of a number below sixteen. -/
def hexChar (n : Nat) : Char :=
  Char.ofNat (if n < 10 then 48 + n else 87 + n)

/-- A character as it is written in a string. -/
def escapeChar (c : Char) : List Char :=
  if c = '"' then ['\\', '"']
  else if c = '\\' then ['\\', '\\']
  else if c = '\x08' then ['\\', 'b']
  else if c = '\x0c' then ['\\', 'f']
  else if c = '\n' then ['\\', 'n']
  else if c = '\r' then ['\\', 'r']
  else if c = '\t' then ['\\', 't']
  else if c.toNat < 0x20 then
    ['\\', 'u', '0', '0', hexChar (c.toNat / 16), hexChar (c.toNat % 16)]
  else [c]

/-- A text as a JSON string. -/
def quote (s : List Char) : List Char :=
  '"' :: s.flatMap escapeChar ++ ['"']

/-- The value of a hexadecimal digit of either case. -/
def hexValue? (c : Char) : Option Nat :=
  if '0' ≤ c ∧ c ≤ '9' then some (c.toNat - 48)
  else if 'a' ≤ c ∧ c ≤ 'f' then some (c.toNat - 87)
  else if 'A' ≤ c ∧ c ≤ 'F' then some (c.toNat - 55)
  else none

/-- The value of hexadecimal digits, the first of them the highest. -/
def hexNumber? (digits : List Char) : Option Nat :=
  digits.foldlM (fun n c => (hexValue? c).map fun d => n * 16 + d) 0

/-- The character that a backslash and a letter stand for. -/
def simpleEscape? (c : Char) : Option Char :=
  if c = '"' then some '"'
  else if c = '\\' then some '\\'
  else if c = '/' then some '/'
  else if c = 'b' then some '\x08'
  else if c = 'f' then some '\x0c'
  else if c = 'n' then some '\n'
  else if c = 'r' then some '\r'
  else if c = 't' then some '\t'
  else none

def isLead (unit : Nat) : Bool :=
  0xD800 ≤ unit && unit < 0xDC00

def isTrail (unit : Nat) : Bool :=
  0xDC00 ≤ unit && unit < 0xE000

/-- The character that two surrogates make. -/
def joinSurrogates (lead trail : Nat) : Char :=
  Char.ofNat (0x10000 + (lead - 0xD800) * 0x400 + (trail - 0xDC00))

/-- How many bytes a text takes up in UTF-8. -/
def byteLength : List Char → Nat
  | [] => 0
  | c :: rest => c.utf8Size + byteLength rest

namespace Quoted

/-- Where in a string the reader stands. -/
inductive Place
  | plain
  /-- After a backslash. -/
  | escape
  /-- Among the four digits of a unit, of which `digits` have been read, the last one first. A
  leading surrogate may have been read before it. -/
  | unit (lead : Option Nat) (digits : List Char)
  /-- After a leading surrogate, whose partner has to follow. -/
  | lead (unit : Nat)
  /-- After a leading surrogate and a backslash. -/
  | leadEscape (unit : Nat)
deriving DecidableEq, Repr

/-- What a character does to a string that is being read. -/
inductive Step
  /-- The characters of the text so far, the last one first. -/
  | more (place : Place) (text : List Char)
  /-- The closing quote. -/
  | closed
deriving DecidableEq, Repr

/-- Ends a unit of 16 bits. -/
def endUnit (strict : Bool) (text : List Char) (lead : Option Nat) (unit : Nat) :
    Except Fault Step :=
  if !strict then .ok (.more .plain text)
  else
    match lead with
    | none =>
      if isTrail unit then .error .malformed
      else if isLead unit then .ok (.more (.lead unit) text)
      else .ok (.more .plain (Char.ofNat unit :: text))
    | some high =>
      if isTrail unit then .ok (.more .plain (joinSurrogates high unit :: text))
      else .error .malformed

/-- Reads one character of a string. The four digits of a unit take up four bytes of the text, and
are looked at only once these four bytes are there. -/
def step (strict : Bool) (place : Place) (text : List Char) (c : Char) : Except Fault Step :=
  match place with
  | .plain =>
    if c = '"' then .ok .closed
    else if c = '\\' then .ok (.more .escape text)
    else if c.toNat < 0x20 then .error .malformed
    else .ok (.more .plain (c :: text))
  | .escape =>
    if c = 'u' then .ok (.more (.unit none []) text)
    else
      match simpleEscape? c with
      | some d => .ok (.more .plain (d :: text))
      | none => .error .malformed
  | .unit lead digits =>
    let digits := c :: digits
    if byteLength digits < 4 then .ok (.more (.unit lead digits) text)
    else
      match hexNumber? digits.reverse with
      | some unit => endUnit strict text lead unit
      | none => .error .malformed
  | .lead unit => if c = '\\' then .ok (.more (.leadEscape unit) text) else .error .malformed
  | .leadEscape unit =>
    if c = 'u' then .ok (.more (.unit (some unit) []) text) else .error .malformed

end Quoted

end FeedClient.Json
