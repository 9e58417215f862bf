import FeedClient.View

/-!
# The navigation bar

The bar has one control for each view, and at most one of them is on. Activating a label turns on
the control with that label and every other control off. When no control is on, the first view
counts as the active one.
-/

namespace FeedClient

/-- A tab of the navigation bar. -/
structure NavControl where
  label : String
  on : Bool
deriving DecidableEq, Repr

/-- The tabs at the top of the client. -/
structure NavBar where
  controls : List NavControl
deriving DecidableEq, Repr

namespace NavBar

/-- The bar with the tab of one view on. -/
def ofView (active : View) : NavBar :=
  ⟨View.all.map fun view => ⟨view.label, view == active⟩⟩

/-- The label of the tab that is on, that of the home view when none is. -/
def activeLabel (bar : NavBar) : String :=
  match bar.controls.find? NavControl.on with
  | some control => control.label
  | none => View.home.label

/-- Turns on the tab whose label is `label` without the blanks around it, and all others off. -/
def activate (bar : NavBar) (label : String) : NavBar :=
  ⟨bar.controls.map fun control =>
    { control with on := control.label.toList == Text.trim label.toList }⟩

end NavBar

/-- Who is acting and which view is shown. -/
structure Session where
  viewLabel : String
  user : String
deriving DecidableEq, Repr

end FeedClient
