import FeedClient.Text.Blank

/-!
# Views

The views are the tabs of the client. A label names a view when it is the view's own label once the
blank characters around it are taken off.
-/

namespace FeedClient

/-- A tab of the client. -/
inductive View
  | home
  | myTimeline
  | discover
deriving DecidableEq, Repr, Inhabited

namespace View

/-- The views in the order in which the navigation bar shows them. -/
def all : List View :=
  [home, myTimeline, discover]

def label : View → String
  | home => "Home"
  | myTimeline => "MyTimeline"
  | discover => "Discover"

/-- The view that a label names. -/
def ofLabel? (label : String) : Option View :=
  all.find? fun view => view.label.toList == Text.trim label.toList

/-- The label that names no view. -/
structure Unknown where
  label : String
deriving DecidableEq, Repr

def Unknown.message (e : Unknown) : String :=
  "unknown view '" ++ e.label ++ "', expected one of " ++ ", ".intercalate (all.map View.label)

/-- Reads a label as the name of a view. -/
def parse (label : String) : Except Unknown View :=
  match ofLabel? label with
  | some view => .ok view
  | none => .error ⟨label⟩

end View

end FeedClient
