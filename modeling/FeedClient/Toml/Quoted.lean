import FeedClient.Json.Quoted
import FeedClient.Toml.Layout

/-!
# Strings of a configuration text

A string stands between double quotes, where a backslash starts an escape, or between single quotes,
where it does not. Three quotes at either end make a long string, which may hold newlines and up to
two quotes in a row, also before the closing ones. Newlines are kept as they are written. In a long
string a backslash at the end of a line joins the lines: the white space up to the next character is
left out.
-/

namespace FeedClient.Toml

/-- The parts of a text before and after a closing quote. -/
def cutQuote (mark : Char) (escapes : Bool) : List Char → Option (List Char × List Char)
  | [] => none
  | c :: rest =>
    if c = mark then some ([], rest)
    else if escapes && c = '\\' then
      match rest with
      | [] => none
      | d :: rest => (cutQuote mark escapes rest).map fun (body, after) => (c :: d :: body, after)
    else (cutQuote mark escapes rest).map fun (body, after) => (c :: body, after)

/-- The parts of a text before and after three closing quotes. Of more than three, the last three
close the string. -/
def cutQuotes (mark : Char) (escapes : Bool) : List Char → Option (List Char × List Char)
  | [] => none
  | c :: rest =>
    if c = mark && [mark, mark].isPrefixOf rest then
      let after := rest.drop 2
      let more := ((after.take 2).takeWhile (· = mark)).length
      some (List.replicate more mark, after.drop more)
    else if escapes && c = '\\' then
      match rest with
      | [] => none
      | d :: rest => (cutQuotes mark escapes rest).map fun (body, after) => (c :: d :: body, after)
    else (cutQuotes mark escapes rest).map fun (body, after) => (c :: body, after)

/-- The character that a backslash and a letter stand for. -/
def escape? (c : Char) : Option Char :=
  if c = '/' then none else if c = 'e' then some '\x1b' else Json.simpleEscape? c

/-- How many hexadecimal digits of a character come after a backslash and a letter. -/
def unitLength? (c : Char) : Option Nat :=
  if c = 'x' then some 2 else if c = 'u' then some 4 else if c = 'U' then some 8 else none

/-- Whether a character may stand in a string, with the text that comes after it. -/
def isContent (long : Bool) (c : Char) (rest : List Char) : Bool :=
  isText c || (long && isNewline c rest)

/-- The character of a number; surrogates and what is beyond the last character have none. -/
def char? (n : Nat) : Option Char :=
  if n.isValidChar then some (Char.ofNat n) else none

/-- Where in a string with escapes the reader stands. -/
inductive Place
  | plain
  | escape
  /-- Among the hexadecimal digits of a character, with the number of those to come. -/
  | unit (left : Nat) (value : Nat)
  /-- After a backslash that joins lines, before the newline or after it. -/
  | joint (newline : Bool)

/-- What a character without a backslash before it stands for, with the text that comes after it. -/
def stepPlain (long : Bool) (c : Char) (rest : List Char) : Option (Place × List Char) :=
  if c = '\\' then some (.escape, [])
  else if isContent long c rest then some (.plain, [c])
  else none

/-- What a character right after a backslash stands for, with the text that comes after it. -/
def stepEscape (long : Bool) (c : Char) (rest : List Char) : Option (Place × List Char) :=
  match unitLength? c with
  | some count => some (.unit count 0, [])
  | none =>
    if long && (isNewline c rest || isBlank c) then some (.joint (isNewline c rest), [])
    else (escape? c).map fun d => (.plain, [d])

/-- Reads one character of a string with escapes, with the text that comes after it. -/
def step (long : Bool) (place : Place) (c : Char) (rest : List Char) :
    Option (Place × List Char) :=
  match place with
  | .plain => stepPlain long c rest
  | .escape => stepEscape long c rest
  | .unit left value => do
    let value := value * 16 + (← Json.hexValue? c)
    if left ≤ 1 then (char? value).map fun d => (.plain, [d])
    else some (.unit (left - 1) value, [])
  | .joint newline =>
    if isNewline c rest || isBlank c then some (.joint (newline || isNewline c rest), [])
    else if newline then stepPlain long c rest
    else none

/-- The text of a string with escapes. -/
def unescape (long : Bool) : Place → List Char → Option (List Char)
  | .plain, [] | .joint true, [] => some []
  | _, [] => none
  | place, c :: rest => do
    let (place, read) ← step long place c rest
    (unescape long place rest).map (read ++ ·)

/-- Whether all characters of a text may stand in a string. -/
def isContents (long : Bool) : List Char → Bool
  | [] => true
  | c :: rest => isContent long c rest && isContents long rest

/-- The text of a string, as it stands between its quotes. -/
def content (mark : Char) (long : Bool) (body : List Char) : Option (List Char) :=
  if mark = '"' then unescape long .plain body
  else if isContents long body then some body
  else none

/-- Reads a string on one line, whose opening quote has been read. -/
def quoted (mark : Char) (s : List Char) : Option (String × List Char) := do
  let (body, after) ← cutQuote mark (mark = '"') s
  let text ← content mark false body
  some (String.ofList text, after)

/-- Reads a long string, whose opening quotes have been read. A newline right after them is not part
of it. -/
def longQuoted (mark : Char) (s : List Char) : Option (String × List Char) := do
  let (body, after) ← cutQuotes mark (mark = '"') ((newline? s).getD s)
  let text ← content mark true body
  some (String.ofList text, after)

end FeedClient.Toml
