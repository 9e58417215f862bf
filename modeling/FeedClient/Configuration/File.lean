import FeedClient.Configuration
import FeedClient.Number.Digit
import FeedClient.Number.Shortest
import FeedClient.Number.Signed
import FeedClient.Toml.Reader

/-!
# The configuration file

The preferences are the entries of a file in the user's configuration directory. Entries of other
names are left alone. A value is converted where that makes sense: a number, a date or a truth value
is a text as well, and a text or a truth value may stand for a number of seconds.
-/

namespace FeedClient

/-- Why the preferences cannot be read. -/
inductive Preferences.Fault
  /-- The file is no configuration text. -/
  | malformed
  /-- A value is not what its entry wants. -/
  | mismatched
deriving DecidableEq, Repr

namespace Configuration

open Toml (Value Entries)

/-- A step from a table to one of its entries, or from an array to one of its items. -/
inductive Step
  | entry (name : String)
  | item

/-- What comes after an index. Indices are integers of 64 bits, and count from the end when they are
negative. -/
def skipIndex? (s : List Char) : Option (List Char) := do
  let (negative, s) := match s with
    | '-' :: rest => (true, rest)
    | _ => (false, s)
  let digits := s.takeWhile isDigit
  if digits.isEmpty then none
  else
    let n : Int := natOfDigits digits
    let _ ← int64? (if negative then -n else n)
    some (s.dropWhile isDigit)

/-- Reads the steps of a path behind its first name: names after points and indices in brackets. -/
def steps? : Nat → List Char → Option (List Step)
  | 0, _ => none
  | _, [] => some []
  | limit + 1, '.' :: rest =>
    let name := rest.takeWhile Toml.isBare
    if name.isEmpty then none
    else (steps? limit (rest.dropWhile Toml.isBare)).map (.entry (String.ofList name) :: ·)
  | limit + 1, '[' :: rest => do
    match Toml.skipBlanks (← skipIndex? (Toml.skipBlanks rest)) with
    | ']' :: rest => (steps? limit rest).map (.item :: ·)
    | _ => none
  | _, _ => none

/-- A name as a path. A name that is none stands for itself. -/
def path (name : String) : String × List Step :=
  let s := name.toList
  let first := s.takeWhile Toml.isBare
  match first, steps? (s.length + 1) (s.dropWhile Toml.isBare) with
  | _ :: _, some steps => (String.ofList first, steps)
  | _, _ => (name, [])

/-- The entries of what may be a table. -/
def entriesOf : Option Value → Entries
  | some (.table _ entries) => entries
  | _ => []

mutual

/-- Puts a value where another one may be. The entries of a table are added to those of a table that
is there; any other value replaces what is there. -/
def merge : Value → Option Value → Value
  | .table origin entries, there => .table origin (mergeAll entries (entriesOf there))
  | v, _ => v

/-- Puts entries into a table. -/
def mergeAll : Entries → Entries → Entries
  | [], there => there
  | (name, v) :: rest, there =>
    mergeAll rest (Toml.put name (merge v (there.lookup name)) there)

end

/-- Puts a value at the end of a path into what is there already. -/
def place (v : Value) : List Step → Option Value → Value
  | [], there => merge v there
  | .entry name :: steps, there =>
    let entries := entriesOf there
    .table .implied (Toml.put name (place v steps (entries.lookup name)) entries)
  | .item :: steps, _ => .array [place v steps none]

/-- The entries of a file with those whose name is a path put into tables and arrays. -/
def unfold (entries : Entries) : Entries :=
  entries.foldl (fun out (name, v) =>
    let (first, steps) := path name
    Toml.put first (place v steps (out.lookup first)) out) []

/-- The text that a value stands for. -/
def text? : Value → Option String
  | .text s => some s
  | .integer n => some (toString n.toInt)
  | .real x => some x.text
  | .boolean b => some (if b then "true" else "false")
  | .time s => some s
  | .array _ | .table .. | .tables .. => none

/-- The number of seconds that a text stands for. Words for truth values are numbers, in upper and
lower case. -/
def secondsOf? (s : String) : Option UInt64 :=
  let word := s.toLower
  if word == "true" || word == "on" || word == "yes" then some 1
  else if word == "false" || word == "off" || word == "no" then some 0
  else unsigned? s.toList

/-- The number of seconds that a value stands for. -/
def seconds? : Value → Option UInt64
  | .integer n => if 0 ≤ n.toInt then some (UInt64.ofNat n.toInt.toNat) else none
  | .real x => some x.toUInt64
  | .boolean b => some (if b then 1 else 0)
  | .text s | .time s => secondsOf? s
  | .array _ | .table .. | .tables .. => none

/-- The refresh rule of a name. -/
def refreshNamed? (name : String) : Option RefreshOn :=
  if name == "success" then some .success
  else if name == "always" then some .always
  else none

/-- The refresh rule that a value names: a text, or the only entry of a table. -/
def refresh? : Value → Option RefreshOn
  | .text s | .time s => refreshNamed? s
  | .table _ [(name, _)] => refreshNamed? name
  | _ => none

/-- The value of an entry that may be missing. -/
def entry? {α : Type} (convert : Value → Option α) (entries : Entries) (name : String) :
    Except Preferences.Fault (Option α) :=
  match entries.lookup name with
  | none => .ok none
  | some v =>
    match convert v with
    | some a => .ok (some a)
    | none => .error .mismatched

end Configuration

open FeedClient.Configuration

/-- Reads the text of a configuration file. A byte order mark at its start belongs to the file and
not to the text. -/
def Preferences.read (file : String) : Except Fault Preferences :=
  match Toml.read (String.ofList (Toml.skipMark file.toList)) with
  | none => .error .malformed
  | some entries => do
    let entries := unfold entries
    .ok {
      server := ← entry? text? entries "server"
      user := ← entry? text? entries "user"
      view := ← entry? text? entries "view"
      timeout := ← entry? seconds? entries "timeout_secs"
      subscribeRefresh := ← entry? refresh? entries "subscribe_refresh"
      unsubscribeRefresh := ← entry? refresh? entries "unsubscribe_refresh" }

/-- Reads the configuration file, if there is one. -/
def Preferences.load : Option String → Except Fault Preferences
  | none => .ok {}
  | some file => read file

end FeedClient
