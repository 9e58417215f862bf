import FeedClient.Feed
import FeedClient.NavBar
import FeedClient.Text.Style
import FeedClient.Time.Clock

/-!
# The feed on the screen

What the terminal shows is the navigation bar, then one section for each post, with a rule between
sections. A feed without posts has one section that says so. Times are those of the zone that the
screen is in.
-/

namespace FeedClient

open Text (Style)

/-- The control as it is listed under its post. -/
def Control.screen (control : Control) : String :=
  "[" ++ control.kind.label ++ "] " ++ control.id

/-- The lines of a post: author, contents, time and controls. -/
def PostView.screen (view : PostView) (zone : Zone := .utc) : String :=
  Style.bold.apply (Style.brightCyan.apply ("@" ++ view.post.author)) ++ "\n"
    ++ view.post.contents ++ "\n"
    ++ Style.dimmed.apply ("Posted at: " ++ Stamp.clockIn zone view.post.posted) ++ "\n"
    ++ Style.dimmed.apply ("  ".intercalate (view.controls.map Control.screen))

/-- A tab of the navigation bar, in brackets when it is on. -/
def NavControl.screen (control : NavControl) : String :=
  if control.on then Style.highlighted.apply ("[" ++ control.label ++ "]")
  else " " ++ control.label ++ " "

/-- The line of the navigation bar. -/
def NavBar.screen (bar : NavBar) : String :=
  " ".intercalate (bar.controls.map NavControl.screen)

namespace Feed

/-- The line between two sections. -/
def rule : String :=
  "\n" ++ String.ofList (List.replicate 60 '─') ++ "\n"

/-- The sections of the posts. -/
def sections (feed : Feed) (zone : Zone) : List String :=
  if feed.views.isEmpty then [Style.dimmed.apply "No posts."]
  else feed.views.map fun view => view.screen zone

/-- The whole screen: the navigation bar and the feed. -/
def screen (bar : NavBar) (feed : Feed) (zone : Zone := .utc) : String :=
  rule.intercalate (bar.screen :: feed.sections zone)

end Feed

end FeedClient
