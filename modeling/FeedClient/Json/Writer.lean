import FeedClient.Json.Quoted

/-!
# Writing JSON

Texts are written without white space, and the members of an object in the order in which they are
given.
-/

namespace FeedClient.Json

/-- Writes items one after the other, with commas between them. -/
def joined : List (List Char) → List Char
  | [] => []
  | [item] => item
  | item :: rest => item ++ ',' :: joined rest

/-- An array of items that have been written. -/
def writeArray (items : List (List Char)) : List Char :=
  '[' :: joined items ++ [']']

/-- An object of members whose values have been written. -/
def writeObject (members : List (String × List Char)) : List Char :=
  '\x7b' :: joined (members.map fun (name, value) => quote name.toList ++ ':' :: value) ++ ['\x7d']

/-- The decimal digits of a number. -/
def writeNat (n : Nat) : List Char :=
  Nat.toDigits 10 n

/-- An integer. -/
def writeInt (n : Int) : List Char :=
  if n < 0 then '-' :: writeNat n.natAbs else writeNat n.natAbs

/-- The absence of a value. -/
def writeNull : List Char :=
  ['n', 'u', 'l', 'l']

end FeedClient.Json
