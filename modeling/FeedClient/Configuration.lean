import FeedClient.Controller.Action
import FeedClient.Invocation

/-!
# The configuration

What the program works with comes from three sources: the invocation counts first, then the
preferences of the user, then the defaults. The view of the preferences is a label, and is looked at
only when the invocation names no view.
-/

namespace FeedClient

/-- What the user has written down for all invocations. -/
structure Preferences where
  server : Option String := none
  user : Option String := none
  /-- The label of a view. -/
  view : Option String := none
  /-- In seconds. -/
  timeout : Option UInt64 := none
  subscribeRefresh : Option RefreshOn := none
  unsubscribeRefresh : Option RefreshOn := none
deriving DecidableEq, Repr

/-- What the program works with. -/
structure Configuration where
  server : String
  user : String
  view : View
  /-- In seconds. -/
  timeout : UInt64
  policy : RefreshPolicy
deriving DecidableEq, Repr

namespace Configuration

def defaultServer : String :=
  "http://localhost"

/-- Thirty seconds. -/
def defaultTimeout : UInt64 :=
  30

/-- What is said about a preferred view that does not exist. -/
def invalidView (e : View.Unknown) : String :=
  "invalid view in config file: " ++ e.message

/-- The view that is shown first. -/
def chooseView (given : Option View) (preferred : Option String) : Except View.Unknown View :=
  match given, preferred with
  | some view, _ => .ok view
  | none, some label => View.parse label
  | none, none => .ok .home

/-- Puts the sources together. -/
def choose (i : Invocation) (p : Preferences) : Except View.Unknown Configuration := do
  let view ← chooseView i.view p.view
  let usual : RefreshPolicy := {}
  .ok {
    server := (i.server.or p.server).getD defaultServer
    user := (i.user.or p.user).getD ""
    view
    timeout := (i.timeout.or p.timeout).getD defaultTimeout
    policy :=
      ⟨p.subscribeRefresh.getD usual.subscribe, p.unsubscribeRefresh.getD usual.unsubscribe⟩ }

end Configuration

end FeedClient
