import FeedClient.Number.Binary64

/-!
# Values of a configuration text

A configuration text is a table of named values. A table remembers how it came to be, because that
decides which later lines may add to it.
-/

namespace FeedClient.Toml

/-- How a table came to be. -/
inductive Origin
  /-- It was written between braces and is complete. -/
  | inline
  /-- It has a header of its own. -/
  | header
  /-- It is on the way to the table of a header, and no dotted key has led through it. -/
  | implied
  /-- It is on the way to the value of a dotted key. -/
  | dotted
deriving DecidableEq, Repr

/-- A value of a configuration text. -/
inductive Value
  | text (s : String)
  | integer (n : Int64)
  | real (x : Binary64)
  | boolean (b : Bool)
  /-- A date, a time of day or both, in its usual spelling. -/
  | time (s : String)
  | array (items : List Value)
  | table (origin : Origin) (entries : List (String × Value))
  /-- An array of tables with headers of their own, the last one first. -/
  | tables (last : List (String × Value)) (earlier : List (List (String × Value)))
deriving Repr

/-- Named values. -/
abbrev Entries : Type :=
  List (String × Value)

end FeedClient.Toml
