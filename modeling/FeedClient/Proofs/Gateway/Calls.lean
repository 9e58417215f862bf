import FeedClient.Proofs.Dialogue
import FeedClient.Proofs.Gateway.Transcript

/-!
# Calls one after another

A client makes its calls one after another, and keeps its cookies from each call to the next. What
is sent for them all is what is sent for each of them, in their order. What the controller is told
about a call is what the responses of the server bring: they decide whether the call has failed, and
the posts that it brings are those of the response.
-/

namespace FeedClient

open Http (Request Response Route Jar Exchange)
open Server (Log)

/-- A request with what came back; nothing, if the connection ended without a response. -/
abbrev Http.Sent : Type :=
  Dialogue.Event fun (_ : Request) => Option Response

/-- With some cookies kept, each request is sent with those that are kept for its address, and after
it those that its response asks for are kept; in the end these are. -/
inductive Server.Log.Keeps : Jar → Log → Jar → Prop
  | nil (jar : Jar) : Keeps jar [] jar
  | lost {jar jar' : Jar} (request : Request) {later : Log} (hlater : Keeps jar later jar') :
    Keeps jar ((request.carrying jar, none) :: later) jar'
  | answered {jar jar' : Jar} (request : Request) (response : Response) {later : Log}
      (hlater : Keeps (jar.keep request.url response.cookies) later jar') :
    Keeps jar ((request.carrying jar, some response) :: later) jar'

theorem Server.Log.Keeps.append {jar jar' jar'' : Jar} {log later : Log}
    (h : Log.Keeps jar log jar') (hlater : Log.Keeps jar' later jar'') :
  Log.Keeps jar (log ++ later) jar''
  := by
  induction h with
  | nil jar => apply hlater
  | lost request hrest ih => exact .lost request (ih hlater)
  | answered request response hrest ih => exact .answered request response (ih hlater)

/-- The log of what was sent. -/
def Server.Log.ofSent (sent : List Http.Sent) : Log :=
  sent.map fun ⟨request, response⟩ => (request, response)

/-- A computation that makes calls; who answers them is left open. -/
abbrev Calls : Type → Type :=
  Dialogue fun (_ : Call) => Reply

/-- A call with its reply. -/
abbrev Called : Type :=
  Dialogue.Event fun (_ : Call) => Reply

/-- Makes a call. -/
def Calls.make (call : Call) : Calls Reply :=
  Dialogue.question call

/-! ### Runs and servers -/

/-- A server that gives these responses one after another. -/
def Server.replay : Server (List (Option Response)) := fun _ responses =>
  (responses.headD none, responses.tail)

/-- A run of an exchange is what happens with a server that gives its responses. -/
theorem run_replay {α : Type} {exchange : Exchange α} {sent : List Http.Sent} {a : α}
    (h : exchange.Runs sent a) (later : List (Option Response)) (log : Log) :
  (exchange.run Server.replay.logged).run (sent.map Sigma.snd ++ later, log)
    = (a, later, log ++ Log.ofSent sent)
  := by
  induction h generalizing log with
  | done a =>
      have hlog : log ++ Log.ofSent [] = log := List.append_nil log
      rw [hlog]
      rfl
  | @ask request next response sent a h ih =>
      have hask : (Server.replay.logged request).run
          (response :: (sent.map Sigma.snd ++ later), log)
            = (response, sent.map Sigma.snd ++ later, log ++ [(request, response)]) := rfl
      rw [Dialogue.run_ask, StateT.run_bind, List.map_cons, List.cons_append, hask]
      have hrest := ih (log ++ [(request, response)])
      rw [List.append_assoc] at hrest
      apply hrest

namespace Gateway

open Server.Log (Splits)

theorem serve_replay {α : Type} {call : Calling α} {jar jar' : Jar} {sent : List Http.Sent}
    {result : Except Error α} (h : (call.run.run jar).Runs sent (result, jar')) :
  serve Server.replay.logged call jar (sent.map Sigma.snd, [])
    = ⟨result, jar', ([], Log.ofSent sent)⟩
  := by
  have hrun := run_replay h [] []
  rw [List.append_nil, List.nil_append] at hrun
  rw [serve, hrun]

/-! ### What the controller is told -/

/-- What the controller is told about a call with this result. -/
inductive Tells : Except Error Yield → Reply → Prop
  | failed (e : Error) : Tells (.error e) .failed
  | acknowledged (ack : Ack) : Tells (.ok (.acknowledged ack)) (.succeeded [])
  | fetched (posts : List Post) : Tells (.ok (.fetched posts)) (.succeeded posts)

/-- What is said to the controller about a result. -/
def replyOf : Except Error Yield → Reply
  | .error _ => .failed
  | .ok (.acknowledged _) => .succeeded []
  | .ok (.fetched posts) => .succeeded posts

theorem tells_replyOf (result : Except Error Yield) :
  Tells result (replyOf result)
  := by
  rcases result with e | ack | posts
  · apply Tells.failed
  · apply Tells.acknowledged
  · apply Tells.fetched

/-- The controller is told what the result of the call says. -/
theorem answer_eq (g : Gateway) (call : Call) :
  g.answer call = replyOf <$> (g.perform call).run
  := by
  cases call with
  | mutate mutation =>
      rw [answer, perform, ExceptT.run_map, Functor.map_map, map_eq_pure_bind]
      apply bind_congr
      intro result
      cases result <;> rfl
  | fetch endpoint =>
      rw [answer, perform, ExceptT.run_map, Functor.map_map, map_eq_pure_bind]
      apply bind_congr
      intro result
      cases result <;> rfl

/-! ### Cookies -/

section

variable {α β : Type}

/-- Whatever a server does, all that is sent carries the cookies that are kept. -/
def Keeping (call : Calling α) : Prop :=
  ∀ {σ : Type} (server : Server σ) (jar : Jar) (s : σ) (log : Log), ∃ entries,
    (serve server.logged call jar (s, log)).state.2 = log ++ entries
      ∧ Log.Keeps jar entries (serve server.logged call jar (s, log)).jar

theorem keeping_pure (a : α) :
  Keeping (pure a)
  := by
  intro σ server jar s log
  exact ⟨[], (List.append_nil log).symm, .nil jar⟩

theorem keeping_throw (e : Error) :
  Keeping (throw e : Calling α)
  := by
  intro σ server jar s log
  exact ⟨[], (List.append_nil log).symm, .nil jar⟩

theorem keeping_bind {call : Calling α} {next : α → Calling β} (h : Keeping call)
    (hnext : ∀ a, Keeping (next a)) :
  Keeping (call >>= next)
  := by
  intro σ server jar s log
  obtain ⟨entries, hlog, hkeeps⟩ := h server jar s log
  rcases hserved : serve server.logged call jar (s, log) with ⟨_ | a, jar', s', log'⟩
  · rw [serve_bind_of_error hserved]
    rw [hserved] at hlog hkeeps
    exact ⟨entries, hlog, hkeeps⟩
  · rw [serve_bind_of_ok hserved]
    rw [hserved] at hlog hkeeps
    obtain rfl : log' = log ++ entries := hlog
    obtain ⟨entries', hlog', hkeeps'⟩ := hnext a server jar' s' (log ++ entries)
    refine ⟨entries ++ entries', ?_, hkeeps.append hkeeps'⟩
    rw [hlog', List.append_assoc]

theorem keeping_transmit (request : Request) :
  Keeping (transmit request)
  := by
  intro σ server jar s log
  rcases hserver : server (request.carrying jar) s with ⟨_ | response, s'⟩
  · rw [serve_transmit_of_none (logged_eq hserver log)]
    exact ⟨_, rfl, .lost request (.nil jar)⟩
  · rw [serve_transmit_of_some (logged_eq hserver log)]
    exact ⟨_, rfl, .answered request response (.nil _)⟩

/-- What comes after a response keeps the cookies if all that is followed with fewer steps does. -/
theorem keeping_proceed {limit : Nat}
    (hnext : ∀ limit', limit = limit' + 1 → ∀ next, Keeping (follow limit' next))
    (response : Response) (route : Route) :
  Keeping (proceed limit response route)
  := by
  cases route with
  | arrived => apply keeping_pure
  | astray => apply keeping_throw
  | onward next =>
      cases limit with
      | zero => apply keeping_throw
      | succ limit => apply hnext limit rfl

theorem keeping_follow (limit : Nat) (request : Request) :
  Keeping (follow limit request)
  := by
  induction limit generalizing request with
  | zero =>
      rw [follow_eq]
      apply keeping_bind (keeping_transmit request)
      intro response
      apply keeping_proceed
      intro limit' hlimit
      cases hlimit
  | succ limit ih =>
      rw [follow_eq]
      apply keeping_bind (keeping_transmit request)
      intro response
      apply keeping_proceed
      rintro limit' ⟨rfl⟩
      apply ih

theorem keeping_read (request : Request) :
  Keeping (read request)
  := by
  apply keeping_bind (keeping_follow _ request)
  intro response
  split
  · apply keeping_pure
  · apply keeping_throw

theorem keeping_insist (request : Request) :
  Keeping (insist request)
  := by
  apply keeping_bind (keeping_read request)
  intro body
  split
  · apply keeping_throw
  · apply keeping_pure

theorem keeping_resend (g : Gateway) (request : Request) :
  Keeping (g.resend request)
  := by
  apply keeping_bind
  · rw [answerBotCheck]
    cases g.request? .post "/" [] "" with
    | none => apply keeping_throw
    | some denial =>
        apply keeping_bind (keeping_follow _ denial)
        intro response
        apply keeping_pure
  · intro answered
    apply keeping_insist

theorem keeping_send (g : Gateway) (request : Option Request) :
  Keeping (g.send request)
  := by
  cases request with
  | none => apply keeping_throw
  | some request =>
      rw [send_some]
      apply keeping_bind (keeping_read request)
      intro body
      split
      · apply keeping_pure
      · apply keeping_resend

theorem keeping_perform (g : Gateway) (call : Call) :
  Keeping (g.perform call)
  := by
  rw [perform_eq]
  apply keeping_bind (keeping_send g _)
  intro body
  cases interpret call body with
  | error e => exact keeping_throw e
  | ok yield => exact keeping_pure yield

end

/-! ### What calls come to -/

/-- What a call brings when it ends with a body or an error. -/
inductive Results (call : Call) : Except Error String → Except Error Yield → Prop
  | failed (e : Error) : Results call (.error e) (.error e)
  | read {body : String} {result : Except Error Yield} (h : Brings call body result) :
    Results call (.ok body) result

theorem results_bind_interpret (call : Call) (ended : Except Error String) :
  Results call ended (ended.bind (interpret call))
  := by
  cases ended with
  | error e => apply Results.failed
  | ok body => exact .read (brings_interpret call body)

/-- What a call sends, with what comes back, and what the controller is told about it. Without an
address nothing is sent, and the call fails; otherwise the responses decide. -/
inductive Conducted (g : Gateway) (call : Call) : Log → Reply → Prop
  | unsent (h : g.ofCall call = none) : Conducted g call [] .failed
  | sent {request : Request} (h : g.ofCall call = some request) (cookie : Option String)
      {log trips : Log} (hsplits : Splits log trips) {ended : Except Error String}
      (htranscript : Transcript g.denial? { request with cookie } trips ended)
      {result : Except Error Yield} (hresult : Results call ended result) {reply : Reply}
      (hreply : Tells result reply) :
    Conducted g call log reply

/-- The result of a call is what its transcript brings, and the controller is told so. -/
theorem conducted_of_runs {g : Gateway} {call : Call} {jar jar' : Jar} {sent : List Http.Sent}
    {reply : Reply} (h : ((g.answer call).run jar).Runs sent (reply, jar')) :
  Conducted g call (Log.ofSent sent) reply ∧ Log.Keeps jar (Log.ofSent sent) jar'
  := by
  rw [answer_eq, StateT.run_map, map_eq_pure_bind, Dialogue.runs_bind] at h
  obtain ⟨first, ⟨result, jar₁⟩, none, hfirst, hnone, rfl⟩ := h
  obtain ⟨rfl, heq⟩ := Dialogue.runs_pure.mp hnone
  obtain ⟨rfl, rfl⟩ := Prod.mk.inj heq
  rw [List.append_nil]
  have hserve := serve_replay hfirst
  constructor
  · cases hrequest : g.ofCall call with
    | none =>
        rw [serve_perform, hrequest, serve_send_none] at hserve
        obtain ⟨rfl, -, hstate⟩ := Served.mk.inj hserve
        obtain ⟨-, hlog⟩ := Prod.mk.inj hstate
        rw [← hlog]
        exact .unsent hrequest
    | some request =>
        obtain ⟨hsplits, ended, htranscript, hresult⟩ :=
          transcript_perform Server.replay jar (first.map Sigma.snd) hrequest
        rw [hserve] at hsplits htranscript hresult
        simp only at hresult
        subst hresult
        exact .sent hrequest _ hsplits htranscript (results_bind_interpret call ended)
          (tells_replyOf _)
  · obtain ⟨entries, hlog, hkeeps⟩ :=
      keeping_perform g call Server.replay jar (first.map Sigma.snd) []
    rw [hserve] at hlog hkeeps
    obtain rfl : Log.ofSent first = entries := hlog
    apply hkeeps

/-- A gateway that keeps some cookies makes these calls one after another and gets these replies; it
sends this, gets back what stands with it, and keeps other cookies in the end. -/
inductive Conducts (g : Gateway) : Jar → List Called → List Http.Sent → Jar → Prop
  | nil (jar : Jar) : Conducts g jar [] [] jar
  | cons {jar jar' jar'' : Jar} {call : Call} {reply : Reply} {later : List Called}
      {sent sent' : List Http.Sent} (h : Conducted g call (Log.ofSent sent) reply)
      (hkeeps : Log.Keeps jar (Log.ofSent sent) jar') (hlater : Conducts g jar' later sent' jar'') :
    Conducts g jar (⟨call, reply⟩ :: later) (sent ++ sent') jar''

/-- A dialogue whose calls a gateway answers makes the gateway conduct the calls of one of its
runs. -/
theorem conducts_of_runs {α : Type} {g : Gateway} {d : Calls α} {jar jar' : Jar}
    {sent : List Http.Sent} {a : α} (h : ((d.run g.answer).run jar).Runs sent (a, jar')) :
  ∃ calls, d.Runs calls a ∧ g.Conducts jar calls sent jar'
  := by
  induction d generalizing jar sent with
  | done b =>
      obtain ⟨rfl, heq⟩ := Dialogue.runs_pure.mp h
      obtain ⟨rfl, rfl⟩ := Prod.mk.inj heq
      exact ⟨[], Dialogue.Runs.done _, Conducts.nil _⟩
  | ask call next ih =>
      rw [Dialogue.run_ask, StateT.run_bind, Dialogue.runs_bind] at h
      obtain ⟨first, ⟨reply, jar₁⟩, later, hfirst, hlater, rfl⟩ := h
      obtain ⟨hconducted, hkeeps⟩ := conducted_of_runs hfirst
      obtain ⟨calls, hruns, hconducts⟩ := ih reply hlater
      have hcalls : (Dialogue.ask call next).Runs (⟨call, reply⟩ :: calls) a :=
        Dialogue.runs_ask.mpr ⟨reply, calls, hruns, rfl⟩
      exact ⟨⟨call, reply⟩ :: calls, hcalls, Conducts.cons hconducted hkeeps hconducts⟩

end Gateway

end FeedClient
