/-!
# Words of the command line

A word that starts with one hyphen names an option by a letter, one that starts with two names it in
full. The value of an option may be attached to it: `--user=ann`, `-u=ann` and `-uann`. Two hyphens
alone end the options, and one hyphen alone is a word like any other.
-/

namespace FeedClient

/-- An option that takes a value. -/
inductive Setting
  | server
  | user
  | view
  | timeout
  | logLevel
deriving DecidableEq, Repr

namespace Setting

def all : List Setting :=
  [server, user, view, timeout, logLevel]

def name : Setting → String
  | server => "server"
  | user => "user"
  | view => "view"
  | timeout => "timeout"
  | logLevel => "log-level"

def letter? : Setting → Option Char
  | user => some 'u'
  | logLevel => some 'l'
  | _ => none

end Setting

/-- An option that asks the program about itself. -/
inductive Inquiry
  | help
  | version
deriving DecidableEq, Repr

namespace Inquiry

def all : List Inquiry :=
  [help, version]

def name : Inquiry → String
  | help => "help"
  | version => "version"

def letter : Inquiry → Char
  | help => 'h'
  | version => 'V'

end Inquiry

/-- A word of the command line. -/
inductive Word
  /-- An option with a value, which may be attached. -/
  | setting (setting : Setting) (attached : Option String)
  | inquiry (inquiry : Inquiry)
  /-- An inquiry with a value attached, which it does not take. -/
  | surplus (inquiry : Inquiry)
  /-- An option that does not exist. -/
  | stranger
  /-- The end of the options. -/
  | separator
  | plain (text : String)
deriving DecidableEq, Repr

namespace Word

/-- The parts of a text around its first equals sign. -/
def cutAtEquals (s : List Char) : List Char × Option (List Char) :=
  match s.dropWhile (· ≠ '=') with
  | [] => (s, none)
  | _ :: value => (s.takeWhile (· ≠ '='), some value)

/-- A word that names an option in full; the two hyphens are taken off. -/
def long (s : List Char) : Word :=
  let (name, attached) := cutAtEquals s
  match Setting.all.find? fun x => x.name.toList == name with
  | some x => setting x (attached.map String.ofList)
  | none =>
    match Inquiry.all.find? fun x => x.name.toList == name with
    | some x => if attached.isSome then surplus x else inquiry x
    | none => stranger

/-- The value that is attached to a letter, if there is any. -/
def attachedTo : List Char → Option String
  | [] => none
  | '=' :: value => some (String.ofList value)
  | value => some (String.ofList value)

/-- A word that names an option by a letter; the hyphen is taken off. What follows the letter of an
inquiry is not looked at. -/
def short (letter : Char) (rest : List Char) : Word :=
  match Setting.all.find? fun x => x.letter? == some letter with
  | some x => setting x (attachedTo rest)
  | none =>
    match Inquiry.all.find? fun x => x.letter == letter with
    | some x => inquiry x
    | none => stranger

/-- Reads an argument as a word. -/
def read (arg : String) : Word :=
  match arg.toList with
  | ['-', '-'] => separator
  | '-' :: '-' :: name => long name
  | '-' :: letter :: rest => short letter rest
  | _ => plain arg

end Word

end FeedClient
