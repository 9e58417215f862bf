import FeedClient.Http.Charset
import FeedClient.Json.Quoted

/-!
# Form encoding

The parameters of a request are written as `name=value` with an ampersand between them. A blank is
written as a plus; letters, digits and `*`, `-`, `.`, `_` stand for themselves; every other byte of
the UTF-8 text is written as a percent sign and two hexadecimal digits. Reading undoes this, and
takes a percent sign that is not followed by two digits for itself.
-/

namespace FeedClient.Form

/-- Whether a byte stands for itself. -/
def isPlain (b : UInt8) : Bool :=
  (0x30 ≤ b && b ≤ 0x39) || (0x41 ≤ b && b ≤ 0x5A) || (0x61 ≤ b && b ≤ 0x7A)
    || b == 0x2A || b == 0x2D || b == 0x2E || b == 0x5F

/-- The upper case hexadecimal digit of a number below sixteen. -/
def hexDigit (n : Nat) : Char :=
  Char.ofNat (if n < 10 then 48 + n else 55 + n)

/-- A byte as a percent sign and two digits. -/
def percent (b : UInt8) : List Char :=
  ['%', hexDigit (b.toNat / 16), hexDigit (b.toNat % 16)]

/-- A byte as it is written. -/
def encodeByte (b : UInt8) : List Char :=
  if b == 0x20 then ['+'] else if isPlain b then [Char.ofNat b.toNat] else percent b

/-- A text as it is written. -/
def encodeText (s : List Char) : List Char :=
  (Charset.encode s).flatMap encodeByte

/-- A parameter as it is written. -/
def encodePair (pair : String × String) : List Char :=
  encodeText pair.1.toList ++ '=' :: encodeText pair.2.toList

/-- Parameters as they are written. -/
def encode : List (String × String) → List Char
  | [] => []
  | [pair] => encodePair pair
  | pair :: rest => encodePair pair ++ '&' :: encode rest

/-- The bytes that written text stands for. -/
def decodeBytes : List Char → List UInt8
  | [] => []
  | '+' :: rest => 0x20 :: decodeBytes rest
  | '%' :: a :: b :: rest =>
    match Json.hexValue? a, Json.hexValue? b with
    | some m, some n => UInt8.ofNat (m * 16 + n) :: decodeBytes rest
    | _, _ => 0x25 :: decodeBytes (a :: b :: rest)
  | c :: rest => String.utf8EncodeChar c ++ decodeBytes rest

/-- The text that written text stands for. -/
def decodeText (s : List Char) : String :=
  String.ofList (Charset.utf8 (decodeBytes s))

/-- Cuts a text at every occurrence of a character. -/
def cutAll (mark : Char) : List Char → List (List Char)
  | [] => [[]]
  | c :: rest =>
    match cutAll mark rest with
    | [] => [[c]]
    | part :: parts => if c = mark then [] :: part :: parts else (c :: part) :: parts

/-- The parameter that a part between ampersands stands for. -/
def decodePair (s : List Char) : String × String :=
  (decodeText (s.takeWhile (· ≠ '=')), decodeText ((s.dropWhile (· ≠ '=')).drop 1))

/-- The parameters that a query stands for. Empty parts stand for none. -/
def decode (query : List Char) : List (String × String) :=
  ((cutAll '&' query).filter fun part => !part.isEmpty).map decodePair

end FeedClient.Form
