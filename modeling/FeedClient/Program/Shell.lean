import FeedClient.Program.Client

/-!
# The interactive session

In a session the user chooses entries of a menu, one in every round. An entry may ask for more: a
text, or one of the posts on display. When the user cancels that, or there is no post to choose, the
round ends without an action and nothing is printed; every action is followed by the feed.
-/

namespace FeedClient.Program

open Text (Style)

/-- An entry of the menu. -/
inductive Entry
  | post
  /-- A control of a post on display. -/
  | control (kind : ControlKind)
  | view (view : View)
  | switchUser
  | refresh
  | quit
deriving DecidableEq, Repr

namespace Entry

/-- The menu. -/
def all : List Entry :=
  [post, control .delete, control .subscribe, control .unsubscribe] ++ View.all.map view
    ++ [switchUser, refresh, quit]

def label : Entry → String
  | post => "Post"
  | control .delete => "Delete a post"
  | control .subscribe => "Subscribe to an author"
  | control .unsubscribe => "Unsubscribe from an author"
  | view v => "Show " ++ v.label
  | switchUser => "Switch user"
  | refresh => "Refresh"
  | quit => "Quit"

end Entry

/-- What becomes of a round. -/
inductive Decision
  | act (action : Action)
  /-- Nothing is done. -/
  | skip
  | leave (exit : Exit)
deriving DecidableEq, Repr

/-- What an answer decides. Without a user to ask, the session fails. -/
def Decision.ofPrompted {α : Type} (failure : String) (action : α → Action) :
    Prompted α → Decision
  | .given a => .act (action a)
  | .cancelled => .skip
  | .unavailable => .leave (.failure failure)

/-- The action of a control. -/
def controlAction : ControlKind → String → Action
  | .subscribe => .subscribe
  | .unsubscribe => .unsubscribe
  | .delete => .delete

/-- The ids of the controls of a kind. The placeholder is no post and has none. -/
def controlIds (feed : Feed) (kind : ControlKind) : List String :=
  (feed.views.filter fun view => view.post.author != Post.loading).filterMap fun view =>
    (view.control? kind).map Control.id

/-- Lets the user choose a post for a control. -/
def pick (c : Client) (kind : ControlKind) : Program Decision := do
  let ids := controlIds c.controller.feed kind
  if ids.isEmpty then
    printLine (Style.blue.apply "ℹ" ++ " No posts to " ++ kind.label ++ ".")
    return .skip
  let answer ← choose ("Which post to " ++ kind.label ++ "?") ids
  return .ofPrompted "Failed to get post selection" (fun i => controlAction kind (ids.get i)) answer

/-- Lets the user write a line. -/
def ask (message initial : String) (action : String → Action) : Program Decision := do
  return .ofPrompted "Failed to read input" action (← write message initial)

/-- What an entry decides. -/
def decide (c : Client) : Entry → Program Decision
  | .post => ask "Contents:" "" .post
  | .control kind => pick c kind
  | .view v => return .act (.switchView v.label)
  | .switchUser => ask "User ID:" c.controller.user .switchUser
  | .refresh => return .act .refresh
  | .quit => return .leave .success

/-- What stands above the menu. -/
def greeting (c : Client) : String :=
  Style.brightCyan.apply ("@" ++ c.controller.user) ++ " on "
    ++ Style.brightGreen.apply c.controller.nav.activeLabel

/-- Where the program stands. -/
inductive Stage
  /-- In a session, before the next round. -/
  | session (c : Client)
  | ended (exit : Exit)

/-- Carries out an action and shows the feed after it. -/
def actAndShow (c : Client) (action : Action) : Program Client := do
  let (c, _) ← c.act action
  c.printFeed
  return c

/-- Starts a session. -/
def openSession (c : Client) : Program Stage := do
  return .session (← actAndShow c .refresh)

/-- One round of a session. -/
def round (c : Client) : Program Stage := do
  match ← choose (greeting c) (Entry.all.map Entry.label) with
  | .cancelled => return .ended .success
  | .unavailable => return .ended (.failure "Failed to get action")
  | .given i =>
    match ← decide c (Entry.all.get (i.cast (List.length_map _))) with
    | .act action => return .session (← actAndShow c action)
    | .skip => return .session c
    | .leave exit => return .ended exit

/-- At most so many rounds. -/
def rounds : Nat → Stage → Program Stage
  | limit + 1, .session c => do rounds limit (← round c)
  | _, stage => return stage

end FeedClient.Program
