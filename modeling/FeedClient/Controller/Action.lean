import FeedClient.Endpoint
import FeedClient.Post.Control

/-!
# Actions and gateway calls

An action is what the user does. Carrying it out takes at most one mutation, which changes something
on the server, and at most one fetch, which brings the feed up to date. The refresh policy says
whether a mutation that the server rejected is still followed by the fetch.
-/

namespace FeedClient

/-- What the user does. -/
inductive Action
  | post (contents : String)
  | delete (tag : String)
  /-- Subscribes to the author that a tag points at. -/
  | subscribe (tag : String)
  | unsubscribe (tag : String)
  /-- Subscribes to a user by name. -/
  | subscribeUser (target : String)
  | unsubscribeUser (target : String)
  | register
  | switchView (label : String)
  | switchUser (user : String)
  | refresh
deriving DecidableEq, Repr

/-- A change that the server is asked for. -/
inductive Mutation
  | createUser (user : String)
  | createPost (author contents : String)
  | deletePost (user : String) (key : PostKey)
  | subscribe (user target : String)
  | unsubscribe (user target : String)
deriving DecidableEq, Repr

/-- What the gateway is called for. -/
inductive Call
  | mutate (mutation : Mutation)
  | fetch (endpoint : Endpoint)
deriving DecidableEq, Repr

/-- How a gateway call ended. The posts are those of a fetched feed, none for a mutation. -/
inductive Reply
  | failed
  | succeeded (posts : List Post)
deriving DecidableEq, Repr

/-- Whether the server did what it was asked for. -/
def Reply.accepted : Reply → Bool
  | failed => false
  | succeeded _ => true

/-- When a finished mutation is followed by a refresh. -/
inductive RefreshOn
  | success
  | always
deriving DecidableEq, Repr

/-- Whether a mutation is followed by a refresh, given whether it was accepted. -/
def RefreshOn.refreshes (on : RefreshOn) (accepted : Bool) : Bool :=
  match on with
  | success => accepted
  | always => true

/-- When subscribing and unsubscribing are followed by a refresh. -/
structure RefreshPolicy where
  subscribe : RefreshOn := .always
  unsubscribe : RefreshOn := .success
deriving DecidableEq, Repr

/-- How a refresh ended. -/
inductive RefreshOutcome
  /-- The feed shows this many fetched posts. -/
  | applied (count : Nat)
  /-- A newer refresh was started in the meantime. -/
  | stale
  | failed
  /-- There was nothing to fetch from. -/
  | noEndpoint
deriving DecidableEq, Repr

/-- How an action ended. -/
inductive Outcome
  /-- The action was a refresh. -/
  | refreshed (refresh : RefreshOutcome)
  | acted (accepted : Bool) (refresh : Option RefreshOutcome)
deriving DecidableEq, Repr

end FeedClient
