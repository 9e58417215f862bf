import FeedClient.Toml.Value

/-!
# Building tables

Every header starts a table, and every line with a key adds a value to it. No value is ever
replaced. A header may lead through tables of any header or dotted key, and through the last table
of an array of tables; a dotted key leads only through tables that have no header of their own, and
makes them its own: no header can start them any more.
-/

namespace FeedClient.Toml

/-- Gives a name another value; a new name is added at the end. -/
def put (name : String) (v : Value) : Entries → Entries
  | [] => [(name, v)]
  | (other, w) :: rest =>
    if other = name then (name, v) :: rest else (other, w) :: put name v rest

/-- Changes the table at the end of a path. Tables that are missing on the way are made, and those
that a header implied are taken over by a dotted key. -/
def descend (dotted : Bool) (change : Origin → Entries → Option Entries) :
    List String → Origin → Entries → Option Entries
  | [], origin, entries => change origin entries
  | name :: path, _, entries => do
    match entries.lookup name with
    | none =>
      let origin := if dotted then Origin.dotted else Origin.implied
      let inner ← descend dotted change path origin []
      some (put name (.table origin inner) entries)
    | some (.table origin inner) =>
      if origin = .inline || (dotted && origin = .header) then none
      else
        let origin := if dotted then Origin.dotted else origin
        let inner ← descend dotted change path origin inner
        some (put name (.table origin inner) entries)
    | some (.tables last earlier) =>
      let last ← descend dotted change path .header last
      some (put name (.tables last earlier) entries)
    | some _ => none

/-- Adds a value under a new name. -/
def addNew (name : String) (v : Value) (entries : Entries) : Option Entries :=
  if (entries.lookup name).isSome then none else some (put name v entries)

/-- Adds a value under a dotted key to a table of the given origin. -/
def addValue (path : List String) (name : String) (v : Value) (origin : Origin)
    (entries : Entries) : Option Entries :=
  descend true
    (fun origin entries =>
      if (origin == .dotted) == path.isEmpty then none else addNew name v entries)
    path origin entries

/-- Starts the table of a header. -/
def startTable (name : String) (entries : Entries) : Option Entries :=
  match entries.lookup name with
  | none => some (put name (.table .header []) entries)
  | some (.table .implied inner) => some (put name (.table .header inner) entries)
  | some _ => none

/-- Starts one more table of an array of tables. -/
def startElement (name : String) (entries : Entries) : Option Entries :=
  match entries.lookup name with
  | none => some (put name (.tables [] []) entries)
  | some (.tables last earlier) => some (put name (.tables [] (last :: earlier)) entries)
  | some _ => none

end FeedClient.Toml
