import FeedClient.Controller

/-!
# Concurrent tasks

A desk is a controller together with the tasks that wait for replies, each under a name. A step
either begins an action or delivers the reply that one task waits for. An action begun under the
name of a waiting task takes its place, and the task is abandoned.
-/

namespace FeedClient

/-- A controller and the tasks that wait. -/
structure Desk where
  controller : Controller
  waiting : List (String × Task)
deriving DecidableEq, Repr

namespace Desk

/-- Something that happens to a desk. -/
inductive Step
  | begin (name : String) (action : Action)
  | reply (name : String) (reply : Reply)
deriving DecidableEq, Repr

/-- The desk of a controller that nothing waits for. -/
def ofController (c : Controller) : Desk :=
  ⟨c, []⟩

/-- The task that waits under a name. -/
def task? (desk : Desk) (name : String) : Option Task :=
  desk.waiting.lookup name

/-- Files the progress of the action under a name, and forgets what waited under it. -/
def file (desk : Desk) (name : String) : Controller × Progress → Desk × Progress
  | (c, progress) =>
    let others := desk.waiting.filter fun entry => entry.1 != name
    match progress with
    | .waiting task => (⟨c, (name, task) :: others⟩, progress)
    | .done _ => (⟨c, others⟩, progress)

/-- One step. A reply under a name that nothing waits under changes nothing. -/
def step (desk : Desk) : Step → Desk × Option Progress
  | .begin name action =>
    let (desk, progress) := desk.file name (desk.controller.begin action)
    (desk, some progress)
  | .reply name reply =>
    match desk.task? name with
    | some task =>
      let (desk, progress) := desk.file name (desk.controller.deliver task reply)
      (desk, some progress)
    | none => (desk, none)

/-- The desk after a sequence of steps. -/
def run (desk : Desk) (steps : List Step) : Desk :=
  steps.foldl (fun desk step => (desk.step step).1) desk

end Desk

end FeedClient
