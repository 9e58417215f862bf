import FeedClient.Configuration
import FeedClient.Controller
import FeedClient.Feed.Screen
import FeedClient.Gateway
import FeedClient.Program.Question

/-!
# The client

A client is a controller with a gateway, and the cookies that the gateway keeps from one call to the
next. It prints what came of its actions, and its feed.
-/

namespace FeedClient

open Text (Style)

/-- A controller that calls a server. -/
structure Client where
  gateway : Gateway
  jar : Http.Jar
  controller : Controller
  /-- The zone whose clocks the user goes by. -/
  zone : Zone

namespace Client

/-- The client of a configuration. -/
def start (c : Configuration) (zone : Zone) : Client :=
  ⟨Gateway.ofAddress c.server, [], Controller.start c.user c.view c.policy, zone⟩

/-- Carries out an action. -/
def act (c : Client) (action : Action) : Program (Client × Outcome) := do
  let ((controller, outcome), jar) ←
    Program.ofExchange ((c.controller.run c.gateway.answer action).run c.jar)
  return ({ c with controller, jar }, outcome)

/-- The feed with the navigation bar, as it is printed. -/
def screen (c : Client) : String :=
  "\n" ++ Feed.screen c.controller.nav c.controller.feed c.zone ++ "\n\n"

def printFeed (c : Client) : Program Unit :=
  Program.print c.screen

end Client

namespace Program

/-- What is said about a refresh, if anything is. -/
def refreshLine? : RefreshOutcome → Option String
  | .failed => some (Style.yellow.apply "⚠" ++ " feed could not be loaded")
  | .noEndpoint => some (Style.blue.apply "ℹ" ++ " no feed for this view")
  | .applied _ | .stale => none

/-- What is said about an action of the given name. -/
def outcomeLines (name : String) : Outcome → List String
  | .refreshed refresh => (refreshLine? refresh).toList
  | .acted accepted refresh =>
    let line :=
      if accepted then Style.brightGreen.apply "✓" ++ " " ++ name
      else Style.brightRed.apply "✗" ++ " " ++ name ++ " was not accepted"
    line :: (refresh.bind refreshLine?).toList

/-- Says what came of an action. -/
def report (name : String) (outcome : Outcome) : Program Unit :=
  (outcomeLines name outcome).forM printLine

end Program

end FeedClient
