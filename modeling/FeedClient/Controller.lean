import FeedClient.Controller.Action
import FeedClient.Feed

/-!
# The controller

The controller carries out actions. An action runs until it needs the gateway; from then on it is a
task that waits for a reply, and other actions may begin and other replies may arrive before it goes
on. Every refresh is numbered when it starts, and a fetched feed is shown only if no newer refresh
has been started since.
-/

namespace FeedClient

/-- What the client knows and shows. -/
structure Controller where
  user : String
  nav : NavBar
  feed : Feed
  /-- How many refreshes have been started. The count does not overflow: it is taken for granted that
  fewer than 2 ^ 64 are started. -/
  generation : Nat
  policy : RefreshPolicy
deriving DecidableEq, Repr

/-- What a refresh is part of. -/
inductive Purpose
  | refresh
  /-- The end of an action, which was accepted or not. -/
  | action (accepted : Bool)
deriving DecidableEq, Repr

/-- The outcome of what a refresh is part of. -/
def Purpose.outcome : Purpose → RefreshOutcome → Outcome
  | refresh, r => .refreshed r
  | action accepted, r => .acted accepted (some r)

/-- A mutation under way, and when a refresh follows it. -/
structure Change where
  mutation : Mutation
  refreshOn : RefreshOn
deriving DecidableEq, Repr

/-- A fetch under way: the number of the refresh, and what it is part of. -/
structure Fetch where
  endpoint : Endpoint
  generation : Nat
  purpose : Purpose
deriving DecidableEq, Repr

/-- An action that waits for the reply to a gateway call. -/
inductive Task
  | change (change : Change)
  | fetch (fetch : Fetch)
deriving DecidableEq, Repr

/-- The gateway call whose reply a task waits for. -/
def Task.call : Task → Call
  | change c => .mutate c.mutation
  | fetch f => .fetch f.endpoint

/-- What is left to do once a refresh has started, if anything is. -/
inductive Refreshing
  | fetching (fetch : Fetch)
  | ended (outcome : Outcome)
deriving DecidableEq, Repr

/-- How far an action has come. -/
inductive Progress
  | waiting (task : Task)
  | done (outcome : Outcome)
deriving DecidableEq, Repr

def Refreshing.progress : Refreshing → Progress
  | fetching f => .waiting (.fetch f)
  | ended o => .done o

namespace Controller

/-- A client that shows an empty feed. -/
def start (user : String) (view : View) (policy : RefreshPolicy) : Controller :=
  ⟨user, NavBar.ofView view, Feed.empty, 0, policy⟩

/-- Who is acting and which view is shown. -/
def session (c : Controller) : Session :=
  ⟨c.nav.activeLabel, c.user⟩

/-- Starts a refresh: it gets the next number, the placeholder is shown in front of the feed, and
the feed of the session has to be fetched. -/
def refresh (c : Controller) (purpose : Purpose) : Controller × Refreshing :=
  let endpoint := Endpoint.ofSession c.session
  let c := { c with generation := c.generation + 1, feed := c.feed.prepend Post.placeholder }
  if endpoint.isEmpty then (c, .ended (purpose.outcome .noEndpoint))
  else (c, .fetching ⟨endpoint, c.generation, purpose⟩)

/-- Ends a fetch: the posts replace the feed, unless a newer refresh has been started. -/
def receive (c : Controller) (fetch : Fetch) : Reply → Controller × Outcome
  | .failed => (c, fetch.purpose.outcome .failed)
  | .succeeded posts =>
    if c.generation = fetch.generation then
      ({ c with feed := c.feed.replaceAll posts }, fetch.purpose.outcome (.applied posts.length))
    else (c, fetch.purpose.outcome .stale)

/-- Ends a mutation, and starts the refresh that follows it. -/
def settle (c : Controller) (change : Change) (reply : Reply) : Controller × Refreshing :=
  if change.refreshOn.refreshes reply.accepted then c.refresh (.action reply.accepted)
  else (c, .ended (.acted reply.accepted none))

/-- Delivers the reply that a task waits for. -/
def deliver (c : Controller) (task : Task) (reply : Reply) : Controller × Progress :=
  match task with
  | .change change =>
    let (c, refreshing) := c.settle change reply
    (c, refreshing.progress)
  | .fetch fetch =>
    let (c, outcome) := c.receive fetch reply
    (c, .done outcome)

/-- Begins an action and runs it to its first gateway call. A deletion whose tag leads to no post
key is over at once. -/
def begin (c : Controller) (action : Action) : Controller × Progress :=
  let change (mutation : Mutation) (on : RefreshOn) : Controller × Progress :=
    (c, .waiting (.change ⟨mutation, on⟩))
  let refreshed (c : Controller) (purpose : Purpose) : Controller × Progress :=
    let (c, refreshing) := c.refresh purpose
    (c, refreshing.progress)
  match action with
  | .post contents => change (.createPost c.user contents) .success
  | .delete tag =>
    match PostKey.parse (Tag.stem tag) with
    | .ok key => change (.deletePost c.user key) .success
    | .error _ => (c, .done (.acted false none))
  | .subscribe tag => change (.subscribe c.user (Tag.author tag)) c.policy.subscribe
  | .unsubscribe tag => change (.unsubscribe c.user (Tag.author tag)) c.policy.unsubscribe
  | .subscribeUser target => change (.subscribe c.user target) c.policy.subscribe
  | .unsubscribeUser target => change (.unsubscribe c.user target) c.policy.unsubscribe
  | .register => change (.createUser c.user) .success
  | .switchView label => refreshed { c with nav := c.nav.activate label } (.action true)
  | .switchUser user => refreshed { c with user } (.action true)
  | .refresh => refreshed c .refresh

variable {m : Type → Type} [Monad m]

/-- Fetches the feed that a refresh waits for. -/
def finishRefresh (ask : Call → m Reply) : Controller × Refreshing → m (Controller × Outcome)
  | (c, .ended outcome) => pure (c, outcome)
  | (c, .fetching fetch) => do
    let reply ← ask (.fetch fetch.endpoint)
    pure (c.receive fetch reply)

/-- Runs an action to its end, asking the gateway for what it needs. -/
def run (ask : Call → m Reply) (c : Controller) (action : Action) : m (Controller × Outcome) :=
  match c.begin action with
  | (c, .done outcome) => pure (c, outcome)
  | (c, .waiting (.fetch fetch)) => finishRefresh ask (c, .fetching fetch)
  | (c, .waiting (.change change)) => do
    let reply ← ask (.mutate change.mutation)
    finishRefresh ask (c.settle change reply)

end Controller

end FeedClient
