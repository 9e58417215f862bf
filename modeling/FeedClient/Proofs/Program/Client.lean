import FeedClient.Program.Client
import FeedClient.Proofs.Controller.Alone
import FeedClient.Proofs.Program.World

/-!
# What a client does

A client carries out one action at a time: its gateway conducts the calls of the action, and its
controller goes as the replies say. Nothing else is sent for an action, and the user is not asked.
-/

namespace FeedClient

open Http (Sent)
open Program (Event)

/-- Something that a client has done. -/
structure Deed where
  action : Action
  /-- The calls with their replies. -/
  calls : List Called
  /-- The requests with what came back. -/
  sent : List Sent
  outcome : Outcome

namespace Client

/-- A client does something and becomes another. -/
structure Does (c : Client) (deed : Deed) (c' : Client) : Prop where
  gateway : c'.gateway = c.gateway
  zone : c'.zone = c.zone
  conducted : c.gateway.Conducts c.jar deed.calls deed.sent c'.jar
  performed : c.controller.Performed deed.action deed.calls c'.controller deed.outcome

/-- What a client does for an action sends its requests, and asks nothing else. -/
theorem does_of_runs_act {c c' : Client} (hnav : c.controller.nav.Standard) {action : Action}
    {events : List Event} {outcome : Outcome} (h : (c.act action).Runs events (c', outcome)) :
  ∃ calls sent, c.Does ⟨action, calls, sent, outcome⟩ c' ∧ events = sent.map .sent
  := by
  obtain ⟨first, ⟨⟨controller, o⟩, jar⟩, rest, hfirst, hrest, rfl⟩ := Dialogue.runs_bind.mp h
  obtain ⟨rfl, heq⟩ := Dialogue.runs_pure.mp hrest
  obtain ⟨rfl, rfl⟩ := Prod.mk.inj heq
  obtain ⟨sent, hsent, rfl⟩ := Program.runs_ofExchange hfirst
  rw [Controller.run_eq] at hsent
  obtain ⟨calls, hcalls, hconducts⟩ := Gateway.conducts_of_runs hsent
  refine ⟨calls, sent, ⟨rfl, rfl, hconducts, ?_⟩, List.append_nil _⟩
  apply Controller.performed_of_runs hnav hcalls

end Client

end FeedClient
