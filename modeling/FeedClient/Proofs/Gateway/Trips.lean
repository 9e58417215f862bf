import FeedClient.Proofs.Gateway.Server

/-!
# Where requests lead

A response may send the client elsewhere, and the response from there may do so again. So a request
makes a trip: it is sent from one place to the next, until a response lets the client stay, or until
the trip ends without one. For a call only the trips count: the request that each of them has begun
with, and the response that it has ended with. The log of a call falls into its trips. Where no
response sends the client elsewhere, the trips are the requests with their responses.
-/

namespace FeedClient

open Http (Request Response Route Jar redirectLimit)

namespace Server

/-- A request is sent elsewhere at most so many times; what is sent comes back like this, and the
last response, if the client has got one, is this. -/
inductive Trip : Nat → Request → Log → Option Response → Prop
  | lost (limit : Nat) (request : Request) : Trip limit request [(request, none)] none
  | arrived (limit : Nat) {request : Request} {response : Response}
      (h : response.Leads request .arrived) :
    Trip limit request [(request, some response)] (some response)
  | astray (limit : Nat) {request : Request} {response : Response}
      (h : response.Leads request .astray) :
    Trip limit request [(request, some response)] none
  /-- The client is sent elsewhere once too often. -/
  | strained {request next : Request} {response : Response}
      (h : response.Leads request (.onward next)) :
    Trip 0 request [(request, some response)] none
  | onward {limit : Nat} {request next : Request} {response : Response} {later : Log}
      {outcome : Option Response} (h : response.Leads request (.onward next))
      (cookie : Option String) (hlater : Trip limit { next with cookie } later outcome) :
    Trip (limit + 1) request ((request, some response) :: later) outcome

theorem Trip.length_le {limit : Nat} {request : Request} {log : Log} {outcome : Option Response}
    (h : Trip limit request log outcome) :
  log.length ≤ limit + 1
  := by
  induction h with
  | onward _ _ _ ih => exact Nat.succ_le_succ ih
  | _ => simp

/-! ### The trips in a log -/

namespace Log

/-- The trips in a log that goes on where a request has set out and may be sent elsewhere so many
times more, or where a trip has ended. -/
def tripsFrom : Option (Request × Nat) → Log → Log
  | none, [] => []
  | some (departed, _), [] => [(departed, none)]
  | underway, (request, response) :: later =>
    let (departed, limit) := underway.getD (request, redirectLimit)
    match response.map fun r : Response => r.route request, limit with
    | some .arrived, _ => (departed, response) :: tripsFrom none later
    | some (.onward _), limit + 1 => tripsFrom (some (departed, limit)) later
    | _, _ => (departed, none) :: tripsFrom none later

/-- The trips in a log: the requests that they have begun with, and the responses that they have
ended with. -/
def trips (log : Log) : Log :=
  tripsFrom none log

/-- A log falls into trips. -/
inductive Splits : Log → Log → Prop
  | nil : Splits [] []
  | cons {request : Request} {log later trips : Log} {outcome : Option Response}
      (htrip : Trip redirectLimit request log outcome) (hlater : Splits later trips) :
    Splits (log ++ later) ((request, outcome) :: trips)

/-- No response sends the client elsewhere. -/
def Direct (log : Log) : Prop :=
  ∀ request response, (request, some response) ∈ log → response.Leads request .arrived

end Log

theorem Trip.tripsFrom_append {limit : Nat} {request : Request} {log : Log}
    {outcome : Option Response} (h : Trip limit request log outcome) (departed : Request)
    (later : Log) :
  Log.tripsFrom (some (departed, limit)) (log ++ later)
    = (departed, outcome) :: Log.tripsFrom none later
  := by
  induction h with
  | lost limit request => rfl
  | arrived limit h => simp [Log.tripsFrom, h.route_eq]
  | astray limit h => simp [Log.tripsFrom, h.route_eq]
  | strained h => simp [Log.tripsFrom, h.route_eq]
  | onward h cookie hlater ih =>
      simp only [List.cons_append, Log.tripsFrom, Option.getD_some, Option.map_some,
        h.route_eq]
      apply ih

/-- A trip is under way once its first request has been sent. -/
theorem Trip.tripsFrom_none {limit : Nat} {request : Request} {log : Log}
    {outcome : Option Response} (h : Trip limit request log outcome) (later : Log) :
  Log.tripsFrom none (log ++ later)
    = Log.tripsFrom (some (request, redirectLimit)) (log ++ later)
  := by
  cases h <;> rfl

namespace Log

/-- A log falls into no other trips than its own. -/
theorem Splits.trips_eq {log trips : Log} (h : Splits log trips) :
  log.trips = trips
  := by
  induction h with
  | nil => rfl
  | cons htrip hlater ih =>
      rw [Log.trips, htrip.tripsFrom_none, htrip.tripsFrom_append]
      exact congrArg (List.cons _) ih

theorem Splits.single {request : Request} {log : Log} {outcome : Option Response}
    (h : Trip redirectLimit request log outcome) :
  Splits log [(request, outcome)]
  := by
  rw [← List.append_nil log]
  apply Splits.cons h Splits.nil

theorem Splits.length_le {log trips : Log} (h : Splits log trips) :
  log.length ≤ (redirectLimit + 1) * trips.length
  := by
  induction h with
  | nil => apply Nat.zero_le
  | cons htrip hlater ih =>
      have hlength := htrip.length_le
      rw [List.length_append, List.length_cons, Nat.mul_succ]
      omega

/-- Where no response sends the client elsewhere, every trip is over at once. -/
theorem Direct.trips_eq {log : Log} (h : Direct log) :
  trips log = log
  := by
  induction log with
  | nil => rfl
  | cons entry log ih =>
      have hlater : Direct log := by
        intro request response hmem
        exact h request response (List.mem_cons_of_mem _ hmem)
      obtain ⟨request, _ | response⟩ := entry
      · exact congrArg (List.cons _) (ih hlater)
      · have hroute := (h request response List.mem_cons_self).route_eq
        simp only [trips, tripsFrom, Option.map_some, hroute]
        exact congrArg (List.cons _) (ih hlater)

end Log

end Server

namespace Gateway

open Server (Log Trip)

variable {σ : Type}

/-- What an exchange brings when its trip ends like this. -/
def arrival (outcome : Option Response) : Except Error Response :=
  outcome.elim (.error .transport) .ok

theorem logged_eq {server : Server σ} {request : Request} {s s' : σ} {response : Option Response}
    (h : server request s = (response, s')) (log : Log) :
  server.logged request (s, log) = (response, s', log ++ [(request, response)])
  := by
  rw [Server.logged, h]

/-- A request that is followed at most so many times makes a trip. -/
def Travels (server : Server σ) (limit : Nat) (request : Request) : Prop :=
  ∀ (jar : Jar) (s : σ) (log : Log), ∃ outcome jar' s' entries,
    serve server.logged (follow limit request) jar (s, log)
        = ⟨arrival outcome, jar', (s', log ++ entries)⟩
      ∧ Trip limit (request.carrying jar) entries outcome

theorem travels_of_next {server : Server σ} {limit : Nat} {request : Request}
    (hnext : ∀ limit', limit = limit' + 1 → ∀ next, Travels server limit' next) :
  Travels server limit request
  := by
  intro jar s log
  rcases hserver : server (request.carrying jar) s with ⟨_ | response, s'⟩
  · rw [serve_follow_of_none (logged_eq hserver log)]
    exact ⟨none, jar, s', _, rfl, Trip.lost _ _⟩
  · rw [serve_follow_of_some (logged_eq hserver log)]
    have hleads :=
      Response.leads_iff.mpr (response.route_cookie request (jar.header? request.url))
    cases hroute : response.route request with
    | arrived =>
        rw [hroute] at hleads
        exact ⟨some response, _, s', _, rfl, Trip.arrived _ hleads⟩
    | astray =>
        rw [hroute] at hleads
        exact ⟨none, _, s', _, rfl, Trip.astray _ hleads⟩
    | onward next =>
        rw [hroute] at hleads
        cases limit with
        | zero => exact ⟨none, _, s', _, rfl, Trip.strained hleads⟩
        | succ limit =>
            obtain ⟨outcome, jar', s'', entries, hserve, htrip⟩ :=
              hnext limit rfl next (jar.keep request.url response.cookies) s'
                (log ++ [(request.carrying jar, some response)])
            refine ⟨outcome, jar', s'', _ :: entries, ?_, Trip.onward hleads _ htrip⟩
            rw [List.append_assoc] at hserve
            apply hserve

/-- However often the server sends the client elsewhere, its request makes a trip. -/
theorem travels (server : Server σ) (limit : Nat) (request : Request) :
  Travels server limit request
  := by
  induction limit generalizing request with
  | zero =>
      apply travels_of_next
      intro limit' hlimit
      cases hlimit
  | succ limit ih =>
      apply travels_of_next
      rintro limit' ⟨rfl⟩
      apply ih

/-- An exchange makes a trip. -/
theorem trip_exchange (server : Server σ) (request : Request) (jar : Jar) (s : σ) (log : Log) :
  ∃ outcome jar' s' entries,
    serve server.logged (exchange request) jar (s, log)
        = ⟨arrival outcome, jar', (s', log ++ entries)⟩
      ∧ Trip redirectLimit (request.carrying jar) entries outcome
  := travels server redirectLimit request jar s log

end Gateway

end FeedClient
