import FeedClient.Configuration.File
import FeedClient.Program.Shell

/-!
# The program

The program reads the preferences, puts the configuration together and carries out the command. A
command is over after one action, and succeeds whatever came of the action; without a command there
is a session.
-/

namespace FeedClient.Program

/-- The action of a command, and what it is called; none for the session. -/
def commandAction? : Command → Option (String × Action)
  | .feed => some ("feed", .refresh)
  | .post contents => some ("post", .post contents)
  | .delete tag => some ("delete", .delete tag)
  | .subscribe target => some ("subscribe", .subscribeUser target)
  | .unsubscribe target => some ("unsubscribe", .unsubscribeUser target)
  | .register => some ("register", .register)
  | .shell => none

/-- Carries out one action, says what came of it, and shows the feed. -/
def oneShot (c : Client) (name : String) (action : Action) : Program Stage := do
  let (c, outcome) ← c.act action
  report name outcome
  c.printFeed
  return .ended .success

/-- Carries out a command in a time zone. -/
def ofCommand (config : Configuration) (command : Command) (zone : Zone := .utc) : Program Stage :=
  match commandAction? command with
  | some (name, action) => oneShot (Client.start config zone) name action
  | none => openSession (Client.start config zone)

/-- Starts the program in a time zone with the text of the configuration file, if there is one. -/
def start (i : Invocation) (file : Option String) (zone : Zone := .utc) : Program Stage :=
  match Preferences.load file with
  | .error _ => return .ended (.failure "Failed to load settings")
  | .ok preferences =>
    match Configuration.choose i preferences with
    | .error e => return .ended (.failure (Configuration.invalidView e))
    | .ok config => ofCommand config (i.command.getD .shell) zone

end FeedClient.Program
