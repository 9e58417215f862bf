/-!
# Texts as bytes

Texts are sent in UTF-8. A text that arrives may start with a byte order mark, which is dropped and
tells the encoding; without a mark it is UTF-8, unless another encoding is named beside it. Of these
only UTF-16 and the western encoding of one byte a character are known here. Bytes that do not fit
are no reason to give up: each longest start of a character that is not completed, and each byte that
starts none, becomes one replacement character.
-/

namespace FeedClient.Charset

/-- The bytes of a text in UTF-8. -/
def encode (s : List Char) : List UInt8 :=
  s.flatMap String.utf8EncodeChar

/-- Stands for bytes that do not fit. -/
def replacement : Char :=
  '\ufffd'

/-- A character of which the first bytes have been read. -/
structure Partial where
  /-- The bits that have been read. -/
  bits : Nat
  /-- How many bytes are to come. -/
  due : Nat
  /-- The least next byte. -/
  low : Nat := 0x80
  /-- The greatest next byte. -/
  high : Nat := 0xBF
deriving DecidableEq, Repr

/-- What the first byte of a character gives: the whole character, a part of one, or nothing. -/
def start (b : Nat) : Option (Char ⊕ Partial) :=
  if b < 0x80 then some (.inl (Char.ofNat b))
  else if b < 0xC2 then none
  else if b < 0xE0 then some (.inr ⟨b - 0xC0, 1, 0x80, 0xBF⟩)
  else if b < 0xF0 then
    some (.inr ⟨b - 0xE0, 2, if b = 0xE0 then 0xA0 else 0x80, if b = 0xED then 0x9F else 0xBF⟩)
  else if b < 0xF5 then
    some (.inr ⟨b - 0xF0, 3, if b = 0xF0 then 0x90 else 0x80, if b = 0xF4 then 0x8F else 0xBF⟩)
  else none

/-- Reads a byte that is not part of the character before it. -/
def fresh (b : Nat) : List Char × Option Partial :=
  match start b with
  | some (.inl c) => ([c], none)
  | some (.inr p) => ([], some p)
  | none => ([replacement], none)

/-- Reads one byte: the characters it completes, and the character it is part of. -/
def step (p : Option Partial) (b : Nat) : List Char × Option Partial :=
  match p with
  | none => fresh b
  | some p =>
    if p.low ≤ b ∧ b ≤ p.high then
      let bits := p.bits * 64 + (b - 0x80)
      if p.due ≤ 1 then ([Char.ofNat bits], none) else ([], some { bits, due := p.due - 1 })
    else
      let (text, p) := fresh b
      (replacement :: text, p)

/-- Reads UTF-8 after a part of a character. -/
def decodeFrom (p : Option Partial) : List UInt8 → List Char
  | [] => if p.isSome then [replacement] else []
  | b :: rest =>
    let (text, p) := step p b.toNat
    text ++ decodeFrom p rest

/-- Reads bytes as UTF-8. -/
def utf8 (bytes : List UInt8) : List Char :=
  decodeFrom none bytes

/-- Puts bytes together to units of 16 bits. A last byte without a partner is no unit. -/
def units (bigEndian : Bool) : List UInt8 → List Nat × Bool
  | [] => ([], false)
  | [_] => ([], true)
  | a :: b :: rest =>
    let unit := if bigEndian then a.toNat * 256 + b.toNat else b.toNat * 256 + a.toNat
    let (others, odd) := units bigEndian rest
    (unit :: others, odd)

/-- Puts units together to characters, after a leading surrogate. `odd` tells whether a byte without
a partner follows the units. -/
def joinUnits (odd : Bool) (lead : Option Nat) : List Nat → List Char
  | [] => if odd || lead.isSome then [replacement] else []
  | unit :: rest =>
    let isTrail := 0xDC00 ≤ unit && unit < 0xE000
    let alone : List Char :=
      if 0xD800 ≤ unit && unit < 0xDC00 then joinUnits odd (some unit) rest
      else if isTrail then replacement :: joinUnits odd none rest
      else Char.ofNat unit :: joinUnits odd none rest
    match lead with
    | none => alone
    | some high =>
      if isTrail then
        Char.ofNat (0x10000 + (high - 0xD800) * 0x400 + (unit - 0xDC00)) :: joinUnits odd none rest
      else replacement :: alone

/-- Reads bytes as UTF-16. -/
def utf16 (bigEndian : Bool) (bytes : List UInt8) : List Char :=
  let (us, odd) := units bigEndian bytes
  joinUnits odd none us

/-- Reads the text that bytes stand for, in UTF-8 as a rule. -/
def decode : List UInt8 → List Char
  | 0xEF :: 0xBB :: 0xBF :: rest => utf8 rest
  | 0xFE :: 0xFF :: rest => utf16 true rest
  | 0xFF :: 0xFE :: rest => utf16 false rest
  | bytes => utf8 bytes

/-- The characters of the bytes from 80 to 9F in the western encoding; the other bytes are the
numbers of their characters. -/
def western : List Char :=
  "€\x81‚ƒ„…†‡ˆ‰Š‹Œ\x8dŽ\x8f\x90‘’“”•–—˜™š›œ\x9džŸ".toList

/-- Reads the text that bytes stand for in the encoding of a name. A byte order mark tells the
encoding before the name does; what has an unknown name is read as if it had none. -/
def decodeAs (encoding : String) (bytes : List UInt8) : List Char :=
  let marked := match bytes with
    | 0xEF :: 0xBB :: 0xBF :: _ | 0xFE :: 0xFF :: _ | 0xFF :: 0xFE :: _ => true
    | _ => false
  if marked then decode bytes
  else if ["utf-16", "utf-16le"].contains encoding then utf16 false bytes
  else if encoding = "utf-16be" then utf16 true bytes
  else if ["us-ascii", "ascii", "iso-8859-1", "latin1", "l1", "windows-1252", "cp1252"].contains
      encoding then
    bytes.map fun b => if 0x80 ≤ b && b < 0xA0 then western.getD (b.toNat - 0x80) replacement
      else Char.ofNat b.toNat
  else decode bytes

end FeedClient.Charset
