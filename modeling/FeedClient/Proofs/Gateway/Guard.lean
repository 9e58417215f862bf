import FeedClient.Proofs.Gateway.Transcript

/-!
# A server behind the check

A server under load asks whoever sends no passcode whether a robot is calling, and gives the
passcode to whoever posts something. A client does not notice: its calls bring what they bring
without the check, the server comes to the same state, and the client denies at most once that a
robot is calling.

The two servers are compared call by call. What relates them is that their states are equal and that
the client has the passcode unless it has not denied anything yet.
-/

namespace FeedClient

open Http (Request Response Jar Cookie)

/-- What spares a client the question whether a robot is calling. -/
def passcode : String :=
  "passcode=passcode"

/-- The passcode as it is kept when an address asks for it. -/
abbrev passcodeFor (url : Url) : Cookie :=
  Cookie.usual url "passcode" "passcode"

theorem parse?_passcode (url : Url) :
  Cookie.parse? url passcode = some (passcodeFor url, false)
  := by
  have htext : passcode = "passcode" ++ "=" ++ "passcode" := rfl
  rw [htext]
  apply Cookie.parse?_usual url
  · decide
  · decide
  · decide
  · decide
  · decide

/-- A request is sent with the passcode that is kept for an address beside its own. -/
theorem carries_passcode {request : Request} {url : Url} (hbeside : request.url.Beside url)
    {jar : Jar} (h : passcodeFor url ∈ jar) :
  (request.carrying jar).carries passcode
  := by
  have htext : (passcodeFor url).text = passcode := rfl
  rw [← htext]
  apply Request.carries_carrying request _ _ h (Cookie.isFor_usual hbeside _ _)
  · rw [htext]
    decide
  · rw [htext]
    decide

/-- A server that answers every request, without regard to cookies. It never asks whether a robot is
calling, and a denial leaves it as it is. -/
structure Origin (g : Gateway) (σ : Type) where
  handle : Request → StateM σ Response
  handle_cookie : ∀ request cookie, handle { request with cookie } = handle request
  cookies_handle : ∀ request s, (handle request s).1.cookies = []
  not_botCheck_handle : ∀ request s, ¬ Gateway.BotCheck (handle request s).1
  handle_denial : ∀ request s, g.isDenial request → (handle request s).2 = s

namespace Origin

open Server (Log)
open Gateway

/-- No response of the server sends the client elsewhere. -/
def Direct {g : Gateway} {σ : Type} (H : Origin g σ) : Prop :=
  ∀ request s, (H.handle request s).1.Leads request .arrived

variable {g : Gateway} {σ σ' : Type} (H : Origin g σ)

/-- The server by itself. -/
def server : Server σ := fun request s =>
  let (response, s) := H.handle request s
  (some response, s)

/-- The response to a post asks the client to keep the passcode. -/
def grant (request : Request) (response : Response) : Response :=
  let granted := if request.method = .post then [passcode] else []
  { response with cookies := response.cookies ++ granted }

/-- Passes a request on. -/
def pass : Server (σ × Nat) := fun request (s, n) =>
  let (response, s) := H.handle request s
  (some (grant request response), s, n + 1)

/-- A page that asks whether a robot is calling. -/
abbrev Page : Type :=
  { response : Response // BotCheck response }

/-- The server behind the check. The load gives the page, if any, that awaits the request of a
number; a request that neither posts something nor carries the passcode gets it. -/
def guard (load : Nat → Option Page) : Server (σ × Nat) := fun request (s, n) =>
  match load n with
  | none => H.pass request (s, n)
  | some page =>
    if request.method = .post ∨ request.carries passcode then H.pass request (s, n)
    else (some page.val, s, n + 1)

/-! ### One request -/

section

variable (load : Nat → Option Page) (request : Request) (jar : Jar) (s : σ) (n : Nat)

/-- What is passed on reaches the server as if it came without cookies. -/
theorem pass_carrying :
  H.pass (request.carrying jar) (s, n)
    = (some (grant request (H.handle request s).1), (H.handle request s).2, n + 1)
  := by
  simp only [pass, H.handle_cookie]
  rfl

section

variable {request n}

theorem guard_of_pass (hpass : request.method = .post ∨ request.carries passcode) :
  H.guard load request (s, n) = H.pass request (s, n)
  := by
  simp only [guard]
  cases load n with
  | none => rfl
  | some page => exact if_pos hpass

/-- A request that posts something, or comes with the passcode, is passed on. -/
theorem guard_carrying {jar : Jar} {url : Url} (hbeside : request.url.Beside url)
    (hpass : request.method = .post ∨ passcodeFor url ∈ jar) :
  H.guard load (request.carrying jar) (s, n)
    = (some (grant request (H.handle request s).1), (H.handle request s).2, n + 1)
  := by
  have hpass' : request.method = .post ∨ (request.carrying jar).carries passcode :=
    hpass.imp_right (carries_passcode hbeside)
  rw [H.guard_of_pass load s hpass', pass_carrying]

end

/-- A request is passed on, or gets a page. -/
theorem guard_cases :
  H.guard load request (s, n) = H.pass request (s, n)
    ∨ ∃ page : Page, H.guard load request (s, n) = (some page.val, s, n + 1)
      ∧ request.carries passcode = false
  := by
  by_cases hpass : request.method = .post ∨ request.carries passcode
  · left
    apply H.guard_of_pass load s hpass
  · simp only [guard]
    cases load n with
    | none =>
        left
        rfl
    | some page =>
        right
        use page, if_neg hpass
        rw [not_or, Bool.not_eq_true] at hpass
        apply hpass.2

end

theorem not_botCheck_grant (request : Request) (s : σ) :
  ¬ BotCheck (grant request (H.handle request s).1)
  := by
  intro hcheck
  apply H.not_botCheck_handle request s
  exact ⟨hcheck.status, hcheck.page, hcheck.button⟩

/-- After a response the client has the passcode if it had it before, or posted something. -/
theorem mem_keep_grant {request : Request} {url : Url} (hbeside : request.url.Beside url)
    {jar : Jar} (s : σ) (h : request.method = .post ∨ passcodeFor url ∈ jar) :
  passcodeFor url ∈ jar.keep request.url (grant request (H.handle request s).1).cookies
  := by
  simp only [grant, H.cookies_handle, List.nil_append]
  split
  · rw [passcodeFor, ← Cookie.usual_eq hbeside]
    apply Jar.mem_keep
    apply parse?_passcode
  · rw [Jar.keep_nil]
    apply h.resolve_left
    assumption

section

variable {H}

/-- What is passed on brings the response of the server. -/
theorem Direct.serve_pass (hdirect : H.Direct) {server : Server σ'} {request : Request}
    {jar : Jar} {t t' : σ'} {s : σ}
    (h : server (request.carrying jar) t = (some (grant request (H.handle request s).1), t')) :
  serve server (exchange request) jar t
    = ⟨.ok (grant request (H.handle request s).1),
        jar.keep request.url (grant request (H.handle request s).1).cookies, t'⟩
  := serve_exchange_of_arrived h (hdirect request s).route_eq

/-- Responses of the server by itself leave the cookies as they are. -/
theorem Direct.serve_server (hdirect : H.Direct) {request : Request} (jar : Jar) (s : σ) :
  serve H.server (g.send (some request)) jar s
    = ⟨conclude (H.handle request s).1, jar, (H.handle request s).2⟩
  := by
  have hanswer : H.server (request.carrying jar) s
      = (some (H.handle request s).1, (H.handle request s).2) := by
    simp only [server, H.handle_cookie]
    rfl
  rw [serve_send_of_decided (serve_exchange_of_arrived hanswer (hdirect request s).route_eq)
    (H.not_botCheck_handle request s), H.cookies_handle, Jar.keep_nil]

end

/-! ### One call -/

/-- How often the client has denied that a robot is calling. -/
def denials (g : Gateway) (log : Log) : Nat :=
  (log.map Prod.fst).countP g.isDenial

theorem denials_concat (g : Gateway) (log : Log) (request : Request) (jar : Jar)
    (response : Option Response) :
  denials g (log ++ [(request.carrying jar, response)])
    = denials g log + if g.isDenial request then 1 else 0
  := by
  rw [denials, List.map_append, List.countP_append, List.map_singleton, List.countP_singleton]
  rfl

/-- The state of a server behind the check, and the cookies of its client, when the server by itself
is in a given state. The passcode is kept for what lies beside an address. -/
structure Behind (g : Gateway) (url : Url) (s : σ) (jar : Jar) (state : (σ × Nat) × Log) :
    Prop where
  same : state.1.1 = s
  granted : passcodeFor url ∈ jar ∨ denials g state.2 = 0
  once : denials g state.2 ≤ 1

section

variable {H : Origin g σ} {url : Url} {request denial : Request} {jar : Jar} {s : σ} {n : Nat}
    {log : Log}

/-- A request of a call that is passed on. -/
theorem Behind.pass (hbehind : Behind g url s jar ((s, n), log))
    (hrequest : g.isDenial request = false) (hbeside : request.url.Beside url)
    (response : Option Response) :
  Behind g url (H.handle request s).2
    (jar.keep request.url (grant request (H.handle request s).1).cookies)
    (((H.handle request s).2, n + 1), log ++ [(request.carrying jar, response)])
  := by
  have hdenials : denials g (log ++ [(request.carrying jar, response)]) = denials g log := by
    rw [denials_concat, hrequest]
    rfl
  constructor
  · rfl
  · rw [hdenials]
    apply hbehind.granted.imp_left
    intro hmem
    apply H.mem_keep_grant hbeside s (.inr hmem)
  · rw [hdenials]
    apply hbehind.once

/-- A request that gets the page, and the denial that comes after it. -/
theorem Behind.deny (hbehind : Behind g url s jar ((s, n), log)) (hjar : passcodeFor url ∉ jar)
    (hrequest : g.isDenial request = false) (hdenial : g.isDenial denial = true)
    (hpost : denial.method = .post) (hbeside : denial.url.Beside url) (jar' : Jar)
    (page response : Option Response) :
  Behind g url s (jar'.keep denial.url (grant denial (H.handle denial s).1).cookies)
    ((s, n + 2), log ++ [(request.carrying jar, page)] ++ [(denial.carrying jar', response)])
  := by
  constructor
  · rfl
  · left
    apply H.mem_keep_grant hbeside s (.inl hpost)
  · rw [denials_concat, denials_concat, hrequest, hdenial, hbehind.granted.resolve_left hjar]
    rfl

end

section

variable {H : Origin g σ} (hdirect : H.Direct) (load : Nat → Option Page) {url : Url}
    {request denial : Request} {jar : Jar} {s : σ} {n : Nat} {log : Log}

include hdirect

/-- After the page the client is given the passcode for its denial, and its request is passed on. -/
theorem Direct.serve_resend_guard (hdenial : g.denial? = some denial) (hpost : denial.method = .post)
    (hbeside : denial.url.Beside url) (hbeside' : request.url.Beside url) :
  let jar' := jar.keep denial.url (grant denial (H.handle denial s).1).cookies
  serve (H.guard load).logged (g.resend request) jar ((s, n), log)
    = ⟨conclude (H.handle request s).1,
        jar'.keep request.url (grant request (H.handle request s).1).cookies,
        ((H.handle request s).2, n + 2),
        log ++ [(denial.carrying jar, some (grant denial (H.handle denial s).1))]
          ++ [(request.carrying jar', some (grant request (H.handle request s).1))]⟩
  := by
  intro jar'
  have hjar' : passcodeFor url ∈ jar' := H.mem_keep_grant hbeside s (.inl hpost)
  have hdeny : H.guard load (denial.carrying jar) (s, n)
      = (some (grant denial (H.handle denial s).1), s, n + 1) := by
    rw [H.guard_carrying load s hbeside (.inl hpost),
      H.handle_denial denial s (isDenial_of_denial? hdenial)]
  have hagain : H.guard load (request.carrying jar') (s, n + 1)
      = (some (grant request (H.handle request s).1), (H.handle request s).2, n + 2) :=
    H.guard_carrying load s hbeside' (.inr hjar')
  rw [serve_resend_of_answered hdenial (hdirect.serve_pass (logged_eq hdeny _)),
    serve_insist_of_ok (hdirect.serve_pass (logged_eq hagain _))]
  rfl

/-- Behind the check a call ends as without it. -/
theorem Behind.serve_guard (hbehind : Behind g denial.url s jar ((s, n), log))
    (hdenial : g.denial? = some denial) (hrequest : g.isDenial request = false)
    (hbeside : request.url.Beside denial.url) (hself : denial.url.Beside denial.url) :
  let served := serve (H.guard load).logged (g.send (some request)) jar ((s, n), log)
  served.result = conclude (H.handle request s).1
    ∧ Behind g denial.url (H.handle request s).2 served.jar served.state
  := by
  obtain hpassed | ⟨page, hpage, hcarries⟩ := H.guard_cases load (request.carrying jar) s n
  · rw [pass_carrying] at hpassed
    rw [serve_send_of_decided (hdirect.serve_pass (logged_eq hpassed log))
      (H.not_botCheck_grant request s)]
    use rfl
    apply hbehind.pass hrequest hbeside
  · have hjar : passcodeFor denial.url ∉ jar := by
      intro hmem
      rw [carries_passcode hbeside hmem] at hcarries
      contradiction
    have hdenied : g.isDenial denial = true := isDenial_of_denial? hdenial
    obtain ⟨root, -, hpost, -, -⟩ := exists_of_isDenial hdenied
    have hpage' := serve_exchange_of_arrived (logged_eq hpage log)
      (Response.route_of_status page.property.status)
    rw [serve_send_of_botCheck hpage' page.property,
      hdirect.serve_resend_guard load hdenial hpost hself hbeside]
    use rfl
    apply (hbehind.deny hjar hrequest hdenied hpost hself _ _ _).pass hrequest hbeside

end

/-- A body that does not ask whether a robot is calling is never taken for one that does. -/
theorem conclude_bind_ne_botCheck {response : Response} (h : ¬ BotCheck response) (call : Call) :
  (conclude response).bind (interpret call) ≠ .error .botCheck
  := by
  by_cases hstatus : response.status = 200
  · rw [conclude_of_status hstatus h]
    apply (brings_interpret call response.text).ne_error
    intro fault heq
    cases heq
  · rw [conclude_of_status_ne hstatus]
    intro heq
    cases heq

section

variable {address : String} (haddress : (Url.parse? address).isSome)
    {H : Origin (ofAddress address) σ} (hdirect : H.Direct) (load : Nat → Option Page)
    {denial : Request} (hdenial : (ofAddress address).denial? = some denial)

include haddress hdirect hdenial

/-- A call of the client brings the same from both servers, and leaves them in the same state. -/
theorem Behind.perform {call : Call} (hcall : call.Resolved) {s : σ} {jar : Jar}
    {state : (σ × Nat) × Log} (hbehind : Behind (ofAddress address) denial.url s jar state)
    (jar' : Jar) :
  let alone := serve H.server ((ofAddress address).perform call) jar' s
  let served := serve (H.guard load).logged ((ofAddress address).perform call) jar state
  served.result = alone.result ∧ served.result ≠ .error .botCheck
    ∧ Behind (ofAddress address) denial.url alone.state served.jar served.state
  := by
  obtain ⟨⟨s', n⟩, log⟩ := state
  obtain rfl : s' = s := hbehind.same
  obtain ⟨request, -, hrequest, -⟩ := exists_requests_of_address haddress call
  have hbeside := beside_denial haddress hcall hrequest hdenial
  have hself : denial.url.Beside denial.url := by
    obtain ⟨root, hroot, rfl⟩ := exists_of_request? hdenial
    apply Url.beside_self hroot
  obtain ⟨hresult, hbehind'⟩ := hbehind.serve_guard hdirect load hdenial
    (isDenial_ofCall haddress hcall hrequest) hbeside hself
  simp only [serve_perform, hrequest, hdirect.serve_server]
  rw [hresult]
  exact ⟨rfl, conclude_bind_ne_botCheck (H.not_botCheck_handle request s') call, hbehind'⟩

/-! ### All calls of a client -/

theorem Behind.serveAll {calls : List Call} (hcalls : ∀ call ∈ calls, call.Resolved) {s : σ}
    {jar : Jar} {state : (σ × Nat) × Log}
    (hbehind : Behind (ofAddress address) denial.url s jar state) (jar' : Jar) :
  let alone := serveAll H.server (ofAddress address) calls jar' s
  let served := serveAll (H.guard load).logged (ofAddress address) calls jar state
  served.1 = alone.1 ∧ (∀ result ∈ served.1, result ≠ .error .botCheck)
    ∧ ∃ jar, Behind (ofAddress address) denial.url alone.2 jar served.2
  := by
  induction calls generalizing s jar state jar' with
  | nil => exact ⟨rfl, by simp [Gateway.serveAll], jar, hbehind⟩
  | cons call calls ih =>
      obtain ⟨hcall, hcalls⟩ := List.forall_mem_cons.mp hcalls
      obtain ⟨hresult, hcheck, hbehind'⟩ := hbehind.perform haddress hdirect load hdenial hcall jar'
      obtain ⟨hresults, hchecks, hbehinds⟩ := ih hcalls hbehind'
        (serve H.server ((ofAddress address).perform call) jar' s).jar
      refine ⟨congrArg₂ List.cons hresult hresults, ?_, hbehinds⟩
      intro result hmem
      obtain rfl | hmem := List.mem_cons.mp hmem
      · apply hcheck
      · apply hchecks _ hmem

end

/-- A client does not notice the check of a server that sends it nowhere: whatever the load, its
calls bring what they bring from the server by itself, and the server comes to the same state. No
call ends because a robot is taken to be calling, and the client denies that at most once. -/
theorem serveAll_guard (address : String) (haddress : (Url.parse? address).isSome)
    (H : Origin (ofAddress address) σ) (hdirect : H.Direct) (load : Nat → Option Page)
    (calls : List Call) (hcalls : ∀ call ∈ calls, call.Resolved) (s : σ) :
  let g := ofAddress address
  let alone := serveAll H.server g calls [] s
  let guarded := serveAll (H.guard load).logged g calls [] ((s, 0), [])
  guarded.1 = alone.1 ∧ guarded.2.1.1 = alone.2
    ∧ (∀ result ∈ guarded.1, result ≠ .error .botCheck)
    ∧ (guarded.2.2.map Prod.fst).countP g.isDenial ≤ 1
  := by
  obtain ⟨denial, hdenial⟩ := Option.isSome_iff_exists.mp
    (request?_isSome_of_address haddress .post "/" [] "")
  have hbehind : Behind (ofAddress address) denial.url s [] ((s, 0), []) :=
    ⟨rfl, .inr rfl, Nat.zero_le _⟩
  obtain ⟨hresults, hchecks, jar, hbehind'⟩ :=
    hbehind.serveAll haddress hdirect load hdenial hcalls []
  exact ⟨hresults, hbehind'.same, hchecks, hbehind'.once⟩

/-- A response that says nothing. -/
def silence : Response :=
  { status := 200, body := Charset.encode ['\x7b', '\x7d'] }

theorem not_botCheck_silence :
  ¬ BotCheck silence
  := by
  rintro ⟨-, hpage, -⟩
  rw [Response.text, String.toList_ofList] at hpage
  revert hpage
  decide +kernel

/-- A server that counts the requests with parameters. -/
def counter : Origin (ofAddress "http://localhost") Nat where
  handle request count :=
    (silence, if request.url.query.isSome then count + 1 else count)
  handle_cookie _ _ := rfl
  cookies_handle _ _ := rfl
  not_botCheck_handle _ _ := not_botCheck_silence
  handle_denial request count hdenial := by
    obtain ⟨root, hroot, -, rfl, -⟩ := exists_of_isDenial hdenial
    have hquery : (Url.parse? ((ofAddress "http://localhost").base ++ "/")).all
        (·.query = none) := by
      decide +kernel
    rw [hroot, Option.all_some, decide_eq_true_iff] at hquery
    simp [hquery]

theorem direct_counter :
  counter.Direct
  := by
  intro request count
  apply Response.leads_iff.mpr rfl

/-- A user looks at the home view, subscribes to somebody and looks again. -/
def visit : List Call :=
  [.fetch (.ofView .home "ann"), .mutate (.subscribe "ann" "bob"), .fetch (.ofView .home "ann")]

theorem resolved_visit :
  ∀ call ∈ visit, call.Resolved
  := by
  simp only [visit, List.forall_mem_cons]
  refine ⟨⟨.home, "ann", rfl⟩, trivial, ⟨.home, "ann", rfl⟩, ?_⟩
  intro call hmem
  cases hmem

/-- The visit to a server that is under load all the time. -/
def guardedVisit : List (Except Error Yield) × (Nat × Nat) × Log :=
  serveAll (counter.guard fun _ => some ⟨plainPage, botCheck_plainPage⟩).logged
    (ofAddress "http://localhost") visit [] ((0, 0), [])

/-- The page comes once, and the server counts the three calls. -/
theorem serveAll_guard_counter :
  guardedVisit.1 = (serveAll counter.server (ofAddress "http://localhost") visit [] 0).1
    ∧ guardedVisit.2.1.1 = 3 ∧ guardedVisit.2.2.length = 5
    ∧ (guardedVisit.2.2.map Prod.fst).countP (ofAddress "http://localhost").isDenial ≤ 1
  := by
  have haddress : (Url.parse? "http://localhost").isSome := by
    decide +kernel
  obtain ⟨hresults, hstate, -, honce⟩ := serveAll_guard "http://localhost" haddress counter
    direct_counter (fun _ => some ⟨plainPage, botCheck_plainPage⟩) visit resolved_visit 0
  have hcount : (serveAll counter.server (ofAddress "http://localhost") visit [] 0).2 = 3 := by
    decide +kernel
  have hlength : guardedVisit.2.2.length = 5 := by
    decide +kernel
  rw [guardedVisit] at hlength ⊢
  exact ⟨hresults, hstate.trans hcount, hlength, honce⟩

/-! ### What cannot be left out -/

/-- A server that counts deletions, and sends the client elsewhere after each of them. -/
def forwarder : Origin (ofAddress "http://localhost") Nat where
  handle request count :=
    if request.method = .delete then ({ status := 303, location := some "/done" }, count + 1)
    else (silence, count)
  handle_cookie _ _ := rfl
  cookies_handle request count := by
    split <;> rfl
  not_botCheck_handle request count := by
    split
    · intro hpage
      cases hpage.status
    · apply not_botCheck_silence
  handle_denial request count hdenial := by
    obtain ⟨root, -, hpost, -, -⟩ := exists_of_isDenial hdenial
    rw [hpost]
    rfl

/-- A server that says nothing, at an address that only the paths of calls make one. -/
def nameless : Origin (ofAddress "http:") Unit where
  handle _ s := (silence, s)
  handle_cookie _ _ := rfl
  cookies_handle _ _ := rfl
  not_botCheck_handle _ _ := not_botCheck_silence
  handle_denial _ _ _ := rfl

/-- The load of a server that is under load at one request only. -/
def loadAt (n : Nat) (m : Nat) : Option Page :=
  if m = n then some ⟨plainPage, botCheck_plainPage⟩ else none

/-- When the server sends the client elsewhere after a deletion, and is under load only then, the
client takes the page for the answer to its deletion and sends that again. And when the address is
none without the path of a call, the client cannot deny that a robot is calling. -/
theorem not_serveAll_guard_always :
  (¬ ∀ (address : String) (H : Origin (ofAddress address) Nat) (load : Nat → Option Page)
      (calls : List Call) (s : Nat), (Url.parse? address).isSome →
    (∀ call ∈ calls, call.Resolved) →
    (serveAll (H.guard load).logged (ofAddress address) calls [] ((s, 0), [])).2.1.1
      = (serveAll H.server (ofAddress address) calls [] s).2)
    ∧ ¬ ∀ (address : String) (H : Origin (ofAddress address) Unit) (load : Nat → Option Page)
      (calls : List Call) (s : Unit), H.Direct → (∀ call ∈ calls, call.Resolved) →
    (serveAll (H.guard load).logged (ofAddress address) calls [] ((s, 0), [])).1
      = (serveAll H.server (ofAddress address) calls [] s).1
  := by
  constructor
  · intro h
    have hsame := h "http://localhost" forwarder (loadAt 1) [.mutate (.unsubscribe "ann" "bob")] 0
      (by decide +kernel) (by simp [Call.Resolved])
    revert hsame
    decide +kernel
  · intro h
    have hsame := h "http:" nameless (loadAt 0) [.fetch (.ofView .home "ann")] ()
      (fun _ _ => Response.leads_iff.mpr rfl) (by simp [Call.Resolved])
    revert hsame
    decide +kernel

end Origin

end FeedClient
