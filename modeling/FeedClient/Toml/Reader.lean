import FeedClient.Toml.Quoted
import FeedClient.Toml.Scalar
import FeedClient.Toml.Table

/-!
# Reading a configuration text

A text is a sequence of lines: headers, and keys with their values. Arrays and tables between braces
may go over several lines and may have a comma after their last item. Brackets and braces are nested
at most eighty deep.
-/

namespace FeedClient.Toml

/-- Reads something from the start of a text, and gives the rest of it. -/
abbrev Reader (α : Type) : Type :=
  List Char → Option (α × List Char)

/-- Whether a character may stand in a name without quotes. -/
def isBare (c : Char) : Bool :=
  c.isAlphanum || c = '_' || c = '-'

/-- Reads a name. -/
def name : Reader String
  | '"' :: rest => quoted '"' rest
  | '\'' :: rest => quoted '\'' rest
  | s =>
    let bare := s.takeWhile isBare
    if bare.isEmpty then none else some (String.ofList bare, s.dropWhile isBare)

/-- Reads a key: names with points between them, at most as many as there are steps. The last name
is given apart. -/
def key : Nat → Reader (List String × String)
  | 0, _ => none
  | steps + 1, s => do
    let (first, s) ← name (skipBlanks s)
    match skipBlanks s with
    | '.' :: rest =>
      let ((path, last), rest) ← key steps rest
      some ((first :: path, last), rest)
    | rest => some (([], first), rest)

/-- How deep values may be nested, and how many names a key may have. -/
def depthLimit : Nat :=
  80

/-- Reads a key, the equals sign and a value. Between these, `skip` is skipped. -/
def assignment (skip : List Char → Option (List Char)) (value : Reader Value) :
    Reader ((List String × String) × Value) := fun s => do
  let (k, s) ← key depthLimit s
  let s ← after? '=' (← skip s)
  let (v, s) ← value (← skip s)
  some ((k, v), s)

/-- Reads the items of an array, whose opening bracket has been read. -/
def items (value : Reader Value) : Nat → Reader (List Value)
  | 0, _ => none
  | steps + 1, s => do
    match ← skipLines false s with
    | ']' :: rest => some ([], rest)
    | s =>
      let (v, s) ← value s
      match ← skipLines false s with
      | ']' :: rest => some ([v], rest)
      | ',' :: rest =>
        let (vs, rest) ← items value steps rest
        some (v :: vs, rest)
      | _ => none

/-- Reads the entries of a table between braces, whose opening brace has been read, after those that
have been read. -/
def members (value : Reader Value) : Nat → Entries → Reader Entries
  | 0, _, _ => none
  | steps + 1, read, s => do
    match ← skipLines false s with
    | '\x7d' :: rest => some (read, rest)
    | s =>
      let (((path, last), v), s) ← assignment (skipLines false) value s
      let read ← addValue path last v .inline read
      match ← skipLines false s with
      | '\x7d' :: rest => some (read, rest)
      | ',' :: rest => members value steps read rest
      | _ => none

/-- Reads a value that is neither between brackets nor between braces. -/
def atom (s : List Char) : Option (Value × List Char) :=
  let text (read : Option (String × List Char)) : Option (Value × List Char) :=
    read.map fun (t, rest) => (.text t, rest)
  match s with
  | '"' :: '"' :: '"' :: rest => text (longQuoted '"' rest)
  | '"' :: rest => text (quoted '"' rest)
  | '\'' :: '\'' :: '\'' :: rest => text (longQuoted '\'' rest)
  | '\'' :: rest => text (quoted '\'' rest)
  | _ => scalar s

/-- Reads a value in which brackets and braces are nested to at most the given depth. -/
def value : Nat → Reader Value
  | depth + 1, '[' :: rest =>
    (items (value depth) rest.length rest).map fun (vs, rest) => (.array vs, rest)
  | depth + 1, '\x7b' :: rest =>
    (members (value depth) rest.length [] rest).map fun (entries, rest) =>
      (.table .inline entries, rest)
  | _, s => atom s

/-- What has been read of a text: its entries, and the path of the last header. -/
structure Document where
  entries : Entries
  path : List String

namespace Document

/-- Reads a header whose opening brackets have been read, up to the closing ones. -/
def header (d : Document) (start : String → Entries → Option Entries) (brackets : List Char)
    (s : List Char) : Option (Document × List Char) := do
  let ((path, last), s) ← key depthLimit s
  let entries ← descend false (fun _ => start last) path .header d.entries
  if brackets.isPrefixOf s then some (⟨entries, path ++ [last]⟩, s.drop brackets.length) else none

/-- Reads a key and its value into the table of the last header. -/
def entry (d : Document) (s : List Char) : Option (Document × List Char) := do
  let (((path, last), v), s) ← assignment (some ∘ skipBlanks) (value depthLimit) s
  let entries ← descend false (addValue path last v) d.path .header d.entries
  some ({ d with entries }, s)

/-- Reads the lines of a text. -/
def lines : Nat → Document → List Char → Option Document
  | 0, _, _ => none
  | steps + 1, d, s => do
    match ← skipLines false s with
    | [] => some d
    | '[' :: '[' :: rest =>
      let (d, rest) ← d.header startElement [']', ']'] rest
      lines steps d (← endLine rest)
    | '[' :: rest =>
      let (d, rest) ← d.header startTable [']'] rest
      lines steps d (← endLine rest)
    | s =>
      let (d, rest) ← d.entry s
      lines steps d (← endLine rest)

end Document

/-- What comes after a byte order mark, if there is one. -/
def skipMark : List Char → List Char
  | '\ufeff' :: rest => rest
  | s => s

/-- Reads a configuration text. A byte order mark may stand at its start. -/
def read (text : String) : Option Entries :=
  let s := skipMark text.toList
  (Document.lines (s.length + 1) ⟨[], []⟩ s).map Document.entries

end FeedClient.Toml
