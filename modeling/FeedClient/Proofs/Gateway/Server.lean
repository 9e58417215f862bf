import FeedClient.Proofs.Gateway.Request
import FeedClient.Proofs.Http.Cookie
import FeedClient.Proofs.Http.Message
import FeedClient.Proofs.Text

/-!
# Calls to a server

A server is a function here: it answers a request, or lets the connection end, and goes on to
another state. Carrying out a call against a server gives the result of the call, the cookies that
are kept after it and the state that the server is left in. There is one equation for each way in
which calls are put together, and one for each way in which the server can answer the first request;
nothing else has to be known about how calls run.
-/

namespace FeedClient

open Http (Request Response Route Jar Exchange)

/-- A server that keeps a state: it answers a request, or lets the connection end. -/
abbrev Server (σ : Type) : Type :=
  Request → StateM σ (Option Response)

namespace Server

/-- Requests with what came back, in the order in which they were sent. -/
abbrev Log : Type :=
  List (Request × Option Response)

/-- The server, with a log of all that is sent to it. -/
def logged {σ : Type} (server : Server σ) : Server (σ × Log) := fun request (s, log) =>
  let (response, s) := server request s
  (response, s, log ++ [(request, response)])

end Server

namespace Gateway

/-- What comes of a call to a server. -/
structure Served (σ α : Type) where
  result : Except Error α
  /-- The cookies that are kept after the call. -/
  jar : Jar
  /-- The state of the server after the call. -/
  state : σ

variable {σ α β : Type}

/-- Carries out a call against a server. -/
def serve (server : Server σ) (call : Calling α) (jar : Jar) (s : σ) : Served σ α :=
  let ((result, jar), s) := ((call.run.run jar).run server).run s
  ⟨result, jar, s⟩

section

variable (server : Server σ) (jar : Jar) (s : σ)

@[simp]
theorem serve_pure (a : α) :
  serve server (pure a) jar s = ⟨.ok a, jar, s⟩
  := rfl

@[simp]
theorem serve_throw (e : Error) :
  serve server (throw e : Calling α) jar s = ⟨.error e, jar, s⟩
  := rfl

/-- A call goes on with a result, and stops at an error. -/
theorem serve_bind (call : Calling α) (next : α → Calling β) :
  serve server (call >>= next) jar s
    = match serve server call jar s with
      | ⟨.ok a, jar, s⟩ => serve server (next a) jar s
      | ⟨.error e, jar, s⟩ => ⟨.error e, jar, s⟩
  := by
  have hrun : ((call >>= next).run.run jar).run server
      = (call.run.run jar).run server >>= fun r =>
          ((ExceptT.bindCont next r.1).run r.2).run server := by
    apply Dialogue.run_bind
  simp only [serve]
  rw [hrun]
  generalize (call.run.run jar).run server = first
  rw [StateT.run_bind]
  obtain ⟨⟨result, jar'⟩, s'⟩ := first.run s
  cases result <;> rfl

/-- A request is sent with the cookies that are kept, and those that the response asks for are kept
after it. -/
theorem serve_transmit (request : Request) :
  serve server (transmit request) jar s
    = match server (request.carrying jar) s with
      | (none, s) => ⟨.error .transport, jar, s⟩
      | (some response, s) => ⟨.ok response, jar.keep request.url response.cookies, s⟩
  := by
  have hrun : (transmit request).run.run jar
      = .ask (request.carrying jar) fun response => response.elim
          (.done (.error .transport, jar))
          (fun response => .done (.ok response, jar.keep request.url response.cookies)) := by
    apply congrArg (Dialogue.ask _)
    funext response
    cases response <;> rfl
  simp only [serve]
  rw [hrun, Dialogue.run_ask, StateT.run_bind, StateT.run]
  obtain ⟨response, s'⟩ := server (request.carrying jar) s
  cases response <;> rfl

end

section

variable {server : Server σ} {jar jar' : Jar} {s s' : σ} {request : Request}

theorem serve_bind_of_ok {call : Calling α} {a : α}
    (h : serve server call jar s = ⟨.ok a, jar', s'⟩) (next : α → Calling β) :
  serve server (call >>= next) jar s = serve server (next a) jar' s'
  := by
  rw [serve_bind, h]

theorem serve_bind_of_error {call : Calling α} {e : Error}
    (h : serve server call jar s = ⟨.error e, jar', s'⟩) (next : α → Calling β) :
  serve server (call >>= next) jar s = ⟨.error e, jar', s'⟩
  := by
  rw [serve_bind, h]

theorem serve_transmit_of_none (h : server (request.carrying jar) s = (none, s')) :
  serve server (transmit request) jar s = ⟨.error .transport, jar, s'⟩
  := by
  rw [serve_transmit, h]

theorem serve_transmit_of_some {response : Response}
    (h : server (request.carrying jar) s = (some response, s')) :
  serve server (transmit request) jar s
    = ⟨.ok response, jar.keep request.url response.cookies, s'⟩
  := by
  rw [serve_transmit, h]

/-! ### How a request is followed -/

/-- What comes after a response is done with some more steps left, or with none. -/
def proceed (limit : Nat) (response : Response) : Route → Calling Response
  | .arrived => return response
  | .astray => throw .transport
  | .onward next => match limit with
    | 0 => throw .transport
    | limit + 1 => follow limit next

theorem follow_eq (limit : Nat) (request : Request) :
  follow limit request
    = transmit request >>= fun response => proceed limit response (response.route request)
  := by
  cases limit with
  | zero =>
      apply bind_congr
      intro response
      cases response.route request <;> rfl
  | succ limit =>
      apply bind_congr
      intro response
      cases response.route request <;> rfl

theorem serve_follow_of_none (h : server (request.carrying jar) s = (none, s')) (limit : Nat) :
  serve server (follow limit request) jar s = ⟨.error .transport, jar, s'⟩
  := by
  rw [follow_eq, serve_bind_of_error (serve_transmit_of_none h)]

theorem serve_follow_of_some {response : Response}
    (h : server (request.carrying jar) s = (some response, s')) (limit : Nat) :
  serve server (follow limit request) jar s
    = serve server (proceed limit response (response.route request))
        (jar.keep request.url response.cookies) s'
  := by
  rw [follow_eq, serve_bind_of_ok (serve_transmit_of_some h)]

/-- A response that sends the client nowhere is the last one. -/
theorem serve_exchange_of_arrived {response : Response}
    (h : server (request.carrying jar) s = (some response, s'))
    (hroute : response.route request = .arrived) :
  serve server (exchange request) jar s
    = ⟨.ok response, jar.keep request.url response.cookies, s'⟩
  := by
  rw [exchange, serve_follow_of_some h, hroute]
  rfl

end

/-! ### The page that asks whether a robot is calling -/

/-- The response is the page that asks whether a robot is calling. -/
structure BotCheck (response : Response) : Prop where
  status : response.status = 200
  page : "<html".toList <+: Text.trimLeft response.text.toList
  button : "ImNotBot".toList <:+: response.text.toList

theorem isBotCheck_iff {response : Response} (h : response.status = 200) :
  isBotCheck response.text = true ↔ BotCheck response
  := by
  rw [isBotCheck, Bool.and_eq_true, List.isPrefixOf_iff_prefix, Text.occurs_iff_infix]
  constructor
  · rintro ⟨hpage, hbutton⟩
    exact ⟨h, hpage, hbutton⟩
  · intro hcheck
    exact ⟨hcheck.page, hcheck.button⟩

/-- A short page that asks whether a robot is calling. -/
def plainPage : Response :=
  { status := 200, body := Charset.encode "<html>ImNotBot".toList }

theorem botCheck_plainPage :
  BotCheck plainPage
  := by
  have htext : plainPage.text.toList = "<html>".toList ++ "ImNotBot".toList := by
    rw [Response.text, String.toList_ofList]
    decide +kernel
  constructor
  · rfl
  · rw [htext]
    use ">ImNotBot".toList
    decide +kernel
  · rw [htext]
    use "<html>".toList, []
    rw [List.append_nil]

/-- What a call brings by the response that decides it: the body, if the status is 200 and the body
does not ask whether a robot is calling. -/
def conclude (response : Response) : Except Error String :=
  if response.status = 200 then
    if isBotCheck response.text then .error .botCheck else .ok response.text
  else .error (.status response.status response.text)

theorem conclude_of_status_ne {response : Response} (h : response.status ≠ 200) :
  conclude response = .error (.status response.status response.text)
  := if_neg h

theorem conclude_of_botCheck {response : Response} (h : BotCheck response) :
  conclude response = .error .botCheck
  := by
  rw [conclude, if_pos h.status, if_pos ((isBotCheck_iff h.status).mpr h)]

theorem conclude_of_status {response : Response} (h : response.status = 200)
    (hcheck : ¬ BotCheck response) :
  conclude response = .ok response.text
  := by
  rw [conclude, if_pos h, if_neg (by rwa [isBotCheck_iff h])]

/-! ### How a request is sent -/

/-- Sends a request, and gives up when the response asks whether a robot is calling. -/
def insist (request : Request) : Calling String := do
  let body ← read request
  if isBotCheck body then throw .botCheck
  return body

/-- Denies that a robot is calling, and sends a request again. -/
def resend (g : Gateway) (request : Request) : Calling String := do
  g.answerBotCheck
  insist request

theorem send_some (g : Gateway) (request : Request) :
  g.send (some request)
    = read request >>= fun body => if !isBotCheck body then pure body else g.resend request
  := rfl

section

variable {server : Server σ} {jar jar' : Jar} {s s' : σ} {g : Gateway} {request denial : Request}

theorem serve_read_of_error {e : Error}
    (h : serve server (exchange request) jar s = ⟨.error e, jar', s'⟩) :
  serve server (read request) jar s = ⟨.error e, jar', s'⟩
  := by
  rw [read, serve_bind_of_error h]

theorem serve_read_of_status {response : Response}
    (h : serve server (exchange request) jar s = ⟨.ok response, jar', s'⟩)
    (hstatus : response.status = 200) :
  serve server (read request) jar s = ⟨.ok response.text, jar', s'⟩
  := by
  rw [read, serve_bind_of_ok h, if_pos hstatus, serve_pure]

theorem serve_read_of_status_ne {response : Response}
    (h : serve server (exchange request) jar s = ⟨.ok response, jar', s'⟩)
    (hstatus : response.status ≠ 200) :
  serve server (read request) jar s
    = ⟨.error (.status response.status response.text), jar', s'⟩
  := by
  rw [read, serve_bind_of_ok h, if_neg hstatus, serve_throw]

theorem serve_insist_of_error {e : Error}
    (h : serve server (exchange request) jar s = ⟨.error e, jar', s'⟩) :
  serve server (insist request) jar s = ⟨.error e, jar', s'⟩
  := by
  rw [insist, serve_bind_of_error (serve_read_of_error h)]

theorem serve_insist_of_ok {response : Response}
    (h : serve server (exchange request) jar s = ⟨.ok response, jar', s'⟩) :
  serve server (insist request) jar s = ⟨conclude response, jar', s'⟩
  := by
  rw [insist, conclude]
  by_cases hstatus : response.status = 200
  · rw [serve_bind_of_ok (serve_read_of_status h hstatus), if_pos hstatus]
    split <;> rfl
  · rw [serve_bind_of_error (serve_read_of_status_ne h hstatus), if_neg hstatus]

/-- Without an address nothing is sent. -/
theorem serve_send_none :
  serve server (g.send none) jar s = ⟨.error .transport, jar, s⟩
  := rfl

theorem serve_send_of_error {e : Error}
    (h : serve server (exchange request) jar s = ⟨.error e, jar', s'⟩) :
  serve server (g.send (some request)) jar s = ⟨.error e, jar', s'⟩
  := by
  rw [send_some, serve_bind_of_error (serve_read_of_error h)]

/-- A response that does not ask whether a robot is calling decides the call. -/
theorem serve_send_of_decided {response : Response}
    (h : serve server (exchange request) jar s = ⟨.ok response, jar', s'⟩)
    (hcheck : ¬ BotCheck response) :
  serve server (g.send (some request)) jar s = ⟨conclude response, jar', s'⟩
  := by
  rw [send_some]
  by_cases hstatus : response.status = 200
  · have hbody : isBotCheck response.text = false := by
      rw [← Bool.not_eq_true, isBotCheck_iff hstatus]
      apply hcheck
    rw [serve_bind_of_ok (serve_read_of_status h hstatus), hbody]
    rw [conclude_of_status hstatus hcheck]
    rfl
  · rw [serve_bind_of_error (serve_read_of_status_ne h hstatus), conclude_of_status_ne hstatus]

/-- A response that asks whether a robot is calling is answered, and the request is sent again. -/
theorem serve_send_of_botCheck {page : Response}
    (h : serve server (exchange request) jar s = ⟨.ok page, jar', s'⟩) (hcheck : BotCheck page) :
  serve server (g.send (some request)) jar s = serve server (g.resend request) jar' s'
  := by
  have hbody : isBotCheck page.text = true := (isBotCheck_iff hcheck.status).mpr hcheck
  rw [send_some, serve_bind_of_ok (serve_read_of_status h hcheck.status), hbody]
  rfl

/-- When the denial cannot be made, the request is not sent again. -/
theorem serve_resend_of_stuck (hdenial : g.denial? = none) :
  serve server (g.resend request) jar s = ⟨.error .transport, jar, s⟩
  := by
  have hanswer : g.answerBotCheck = throw .transport := by
    rw [answerBotCheck, ← denial?, hdenial]
  rw [resend, hanswer]
  rfl

theorem resend_eq (hdenial : g.denial? = some denial) :
  g.resend request = exchange denial >>= fun _ => insist request
  := by
  have hanswer : g.answerBotCheck = exchange denial >>= fun _ => pure () := by
    rw [answerBotCheck, ← denial?, hdenial]
    rfl
  rw [resend, hanswer, bind_assoc]
  rfl

theorem serve_resend_of_error (hdenial : g.denial? = some denial) {e : Error}
    (h : serve server (exchange denial) jar s = ⟨.error e, jar', s'⟩) :
  serve server (g.resend request) jar s = ⟨.error e, jar', s'⟩
  := by
  rw [resend_eq hdenial, serve_bind_of_error h]

/-- Whatever is said to the denial, the request is sent again. -/
theorem serve_resend_of_answered (hdenial : g.denial? = some denial) {answer : Response}
    (h : serve server (exchange denial) jar s = ⟨.ok answer, jar', s'⟩) :
  serve server (g.resend request) jar s = serve server (insist request) jar' s'
  := by
  rw [resend_eq hdenial, serve_bind_of_ok h]

end

/-! ### Calls -/

/-- What a call brings. -/
inductive Yield
  | acknowledged (ack : Ack)
  | fetched (posts : List Post)
deriving DecidableEq, Repr

/-- Carries out a call. -/
def perform (g : Gateway) : Call → Calling Yield
  | .mutate mutation => Yield.acknowledged <$> g.mutate mutation
  | .fetch endpoint => Yield.fetched <$> g.fetch endpoint

/-- What a call brings by the body that the server has sent for it. -/
def interpret : Call → String → Except Error Yield
  | .mutate _, body => .ok (.acknowledged (Ack.ofBody body))
  | .fetch _, body =>
    match Wire.decode Wire.FeedReply body with
    | .ok reply => .ok (.fetched reply.toPosts)
    | .error fault => .error (.malformed fault)

theorem perform_eq (g : Gateway) (call : Call) :
  g.perform call
    = g.send (g.ofCall call) >>= fun body => ExceptT.mk (pure (interpret call body))
  := by
  cases call with
  | mutate mutation =>
      rw [perform, mutate, map_bind]
      apply bind_congr
      intro body
      rfl
  | fetch endpoint =>
      rw [perform, fetch, map_bind]
      apply bind_congr
      intro body
      simp only [interpret]
      cases Wire.decode Wire.FeedReply body <;> rfl

/-- A call sends its request, and reads what it brings from the body. -/
theorem serve_perform (server : Server σ) (g : Gateway) (call : Call) (jar : Jar) (s : σ) :
  serve server (g.perform call) jar s
    = { serve server (g.send (g.ofCall call)) jar s with
        result := (serve server (g.send (g.ofCall call)) jar s).result.bind (interpret call) }
  := by
  rw [perform_eq, serve_bind]
  obtain ⟨_ | body, jar', s'⟩ := serve server (g.send (g.ofCall call)) jar s <;> rfl

/-- What the calls of one client bring, and the state that the server is left in. The client keeps
its cookies from one call to the next. -/
def serveAll (server : Server σ) (g : Gateway) : List Call → Jar → σ → List (Except Error Yield) × σ
  | [], _, s => ([], s)
  | call :: calls, jar, s =>
    let served := serve server (g.perform call) jar s
    let rest := serveAll server g calls served.jar served.state
    (served.result :: rest.1, rest.2)

end Gateway

end FeedClient
