import FeedClient.NavBar

/-!
# Endpoints

An endpoint is where the server publishes a feed: a path, and the user whose feed it is. The
discover view has no feed of its own and reads that of the home view. A label that names no view
leads to the empty endpoint, from which nothing can be fetched.
-/

namespace FeedClient

/-- Where a feed is published. -/
structure Endpoint where
  path : String
  user : String
deriving DecidableEq, Repr

namespace Endpoint

/-- The endpoint that publishes nothing. -/
def empty : Endpoint :=
  ⟨"", ""⟩

def isEmpty (e : Endpoint) : Bool :=
  e.path == ""

/-- The endpoint of the feed that a view shows to a user. -/
def ofView (view : View) (user : String) : Endpoint :=
  match view with
  | .home => ⟨"/home", user⟩
  | .myTimeline => ⟨"/timeline", user⟩
  | .discover => ⟨"/home", user⟩

/-- The endpoint of the view that a label names. -/
def ofLabel (label user : String) : Endpoint :=
  match View.ofLabel? label with
  | some view => ofView view user
  | none => empty

/-- The endpoint of the view that a session shows. -/
def ofSession (session : Session) : Endpoint :=
  ofLabel session.viewLabel session.user

/-- The endpoint as it is shown to people: nothing in the user's name is escaped. -/
def text (e : Endpoint) : String :=
  if e.isEmpty then "" else e.path ++ "?UserID=" ++ e.user

end Endpoint

end FeedClient
