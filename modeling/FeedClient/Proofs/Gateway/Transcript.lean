import FeedClient.Proofs.Gateway.Trips

/-!
# What a call sends, and how it ends

Whatever a server does, a call goes in one of six ways: its request gets no response; the response
decides; the response asks whether a robot is calling, and the denial cannot be made, or gets no
response; or the request is sent again after the denial, and gets no response, or one that decides.
`Transcript` says so, and the requests of a call and its result are read off it. Each of the requests
makes a trip, so it is the trips of a call that go this way.
-/

namespace FeedClient

open Http (Request Response Jar redirectLimit)

namespace Gateway

open Server (Log Trip)
open Server.Log (Splits Direct)

variable {σ : Type}

/-- What the response that decides a call comes to: the body, if the status is 200 and the body does
not ask whether a robot is calling. -/
inductive Concludes (response : Response) : Except Error String → Prop
  | refused (h : response.status ≠ 200) :
    Concludes response (.error (.status response.status response.text))
  | challenged (h : BotCheck response) : Concludes response (.error .botCheck)
  | accepted (h : response.status = 200) (hcheck : ¬ BotCheck response) :
    Concludes response (.ok response.text)

theorem concludes_conclude (response : Response) :
  Concludes response (conclude response)
  := by
  by_cases hstatus : response.status = 200
  · by_cases hcheck : BotCheck response
    · rw [conclude_of_botCheck hcheck]
      apply Concludes.challenged hcheck
    · rw [conclude_of_status hstatus hcheck]
      apply Concludes.accepted hstatus hcheck
  · rw [conclude_of_status_ne hstatus]
    apply Concludes.refused hstatus

/-- How a call with the given request goes: the trips that it makes, and what it ends with. -/
inductive Transcript (denial? : Option Request) (request : Request) :
    Log → Except Error String → Prop
  | lost : Transcript denial? request [(request, none)] (.error .transport)
  | decided {response : Response} {result : Except Error String} (hcheck : ¬ BotCheck response)
      (hresult : Concludes response result) :
    Transcript denial? request [(request, some response)] result
  | stuck {page : Response} (hcheck : BotCheck page) (hdenial : denial? = none) :
    Transcript denial? request [(request, some page)] (.error .transport)
  | unanswered {page : Response} {denial : Request} (hcheck : BotCheck page)
      (hdenial : denial? = some denial) (cookie : Option String) :
    Transcript denial? request [(request, some page), ({ denial with cookie }, none)]
      (.error .transport)
  | lostAgain {page : Response} {denial : Request} (hcheck : BotCheck page)
      (hdenial : denial? = some denial) (answer : Response) (cookie cookie' : Option String) :
    Transcript denial? request
      [(request, some page), ({ denial with cookie }, some answer),
        ({ request with cookie := cookie' }, none)]
      (.error .transport)
  | decidedAgain {page response : Response} {denial : Request} {result : Except Error String}
      (hcheck : BotCheck page) (hdenial : denial? = some denial) (answer : Response)
      (cookie cookie' : Option String) (hresult : Concludes response result) :
    Transcript denial? request
      [(request, some page), ({ denial with cookie }, some answer),
        ({ request with cookie := cookie' }, some response)]
      result

section

variable (server : Server σ) (jar : Jar) (s : σ) (log : Log) {g : Gateway} {request : Request}

/-- After the page, the denial is sent, and the request again if there is a response. -/
theorem transcript_resend {page : Response} (hcheck : BotCheck page) (cookie : Option String) :
  ∃ entries trips,
    (serve server.logged (g.resend request) jar (s, log)).state.2 = log ++ entries
      ∧ Splits entries trips
      ∧ Transcript g.denial? { request with cookie } (({ request with cookie }, some page) :: trips)
          (serve server.logged (g.resend request) jar (s, log)).result
  := by
  cases hdenial : g.denial? with
  | none =>
      rw [serve_resend_of_stuck hdenial]
      refine ⟨[], [], (List.append_nil log).symm, Splits.nil, ?_⟩
      apply Transcript.stuck hcheck rfl
  | some denial =>
      obtain ⟨_ | answer, jar₁, s₁, denied, hanswer, hdenied⟩ :=
        trip_exchange server denial jar s log
      · rw [serve_resend_of_error hdenial hanswer]
        refine ⟨denied, _, rfl, Splits.single hdenied, ?_⟩
        apply Transcript.unanswered hcheck rfl
      · rw [serve_resend_of_answered hdenial hanswer]
        obtain ⟨_ | response, jar₂, s₂, sent, hlast, hsent⟩ :=
          trip_exchange server request jar₁ s₁ (log ++ denied)
        · rw [serve_insist_of_error hlast]
          refine ⟨denied ++ sent, _, List.append_assoc _ _ _,
            Splits.cons hdenied (Splits.single hsent), ?_⟩
          apply Transcript.lostAgain hcheck rfl
        · rw [serve_insist_of_ok hlast]
          refine ⟨denied ++ sent, _, List.append_assoc _ _ _,
            Splits.cons hdenied (Splits.single hsent), ?_⟩
          apply Transcript.decidedAgain hcheck rfl
          apply concludes_conclude

/-- Every server makes a call go in one of these ways. -/
theorem transcript_send :
  ∃ entries trips,
    (serve server.logged (g.send (some request)) jar (s, log)).state.2 = log ++ entries
      ∧ Splits entries trips
      ∧ Transcript g.denial? (request.carrying jar) trips
          (serve server.logged (g.send (some request)) jar (s, log)).result
  := by
  obtain ⟨_ | first, jar₁, s₁, sent, hfirst, hsent⟩ := trip_exchange server request jar s log
  · rw [serve_send_of_error hfirst]
    refine ⟨sent, _, rfl, Splits.single hsent, ?_⟩
    apply Transcript.lost
  · by_cases hcheck : BotCheck first
    · rw [serve_send_of_botCheck hfirst hcheck]
      obtain ⟨entries, trips, hlog, hsplits, htranscript⟩ :=
        transcript_resend server jar₁ s₁ (log ++ sent) hcheck (jar.header? request.url)
      refine ⟨sent ++ entries, _, ?_, Splits.cons hsent hsplits, htranscript⟩
      rw [hlog, List.append_assoc]
    · rw [serve_send_of_decided hfirst hcheck]
      refine ⟨sent, _, rfl, Splits.single hsent, ?_⟩
      apply Transcript.decided hcheck (concludes_conclude first)

/-- The trips of a call go in one of these ways, and its result is what the text at the end brings. -/
theorem transcript_perform {call : Call} (hrequest : g.ofCall call = some request) :
  let served := serve server.logged (g.perform call) jar (s, [])
  Splits served.state.2 served.state.2.trips
    ∧ ∃ result, Transcript g.denial? (request.carrying jar) served.state.2.trips result
      ∧ served.result = result.bind (interpret call)
  := by
  obtain ⟨entries, trips, hlog, hsplits, htranscript⟩ := transcript_send server jar s []
  simp only [serve_perform, hrequest]
  rw [hlog, List.nil_append, hsplits.trips_eq]
  exact ⟨hsplits, _, htranscript, rfl⟩

end

/-- The first request was answered by the page that asks whether a robot is calling. -/
def Challenged (log : Log) : Prop :=
  ∃ request page rest, log = (request, some page) :: rest ∧ BotCheck page

theorem challenged_cons {request : Request} {page : Response} {rest : Log} :
  Challenged ((request, some page) :: rest) ↔ BotCheck page
  := by
  constructor
  · rintro ⟨request', page', rest', heq, hcheck⟩
    cases heq
    apply hcheck
  · intro hcheck
    use request, page, rest

/-! ### What a call sends -/

/-- A request is sent alone, unless it is challenged; then the denial is sent, and the request again
if the denial gets a response, whatever that is. -/
structure Traced (request denial : Request) (log : Log) : Prop where
  alone : ¬ Challenged log → log.map Prod.fst = [request]
  challenged : Challenged log → ∃ cookie answer, log[1]? = some ({ denial with cookie }, answer)
    ∧ (answer = none → log.map Prod.fst = [request, { denial with cookie }])
    ∧ (answer ≠ none → ∃ cookie', log.map Prod.fst
        = [request, { denial with cookie }, { request with cookie := cookie' }])
  length_le : log.length ≤ 3
  twice : 2 ≤ (log.map Prod.fst).countP
      (fun r => { r with cookie := none } = { request with cookie := none }) →
    Challenged log

theorem traced_of_not_challenged {request denial : Request} {response : Option Response}
    (h : ¬ Challenged [(request, response)]) :
  Traced request denial [(request, response)]
  where
  alone _ := rfl
  challenged hcheck := absurd hcheck h
  length_le := by simp
  twice hcount := by
    have hle := le_trans hcount List.countP_le_length
    simp at hle

theorem traced_of_unanswered {request denial : Request} {page : Response} (h : BotCheck page)
    (cookie : Option String) :
  Traced request denial [(request, some page), ({ denial with cookie }, none)]
  where
  alone hcheck := absurd (challenged_cons.mpr h) hcheck
  challenged _ := ⟨cookie, none, rfl, fun _ => rfl, fun hanswer => absurd rfl hanswer⟩
  length_le := by simp
  twice _ := challenged_cons.mpr h

theorem traced_of_answered {request denial : Request} {page : Response} (h : BotCheck page)
    (answer : Response) (response : Option Response) (cookie cookie' : Option String) :
  Traced request denial
    [(request, some page), ({ denial with cookie }, some answer),
      ({ request with cookie := cookie' }, response)]
  where
  alone hcheck := absurd (challenged_cons.mpr h) hcheck
  challenged _ := by
    refine ⟨cookie, some answer, rfl, ?_, fun _ => ⟨cookie', rfl⟩⟩
    intro hanswer
    cases hanswer
  length_le := by simp
  twice _ := challenged_cons.mpr h

/-- However a call goes, its trips begin as they have to. -/
theorem Transcript.traced {request denial : Request} {trips : Log} {result : Except Error String}
    (h : Transcript (some denial) request trips result) :
  Traced request denial trips
  := by
  cases h with
  | lost =>
      apply traced_of_not_challenged
      rintro ⟨request', page, rest, heq, -⟩
      cases heq
  | decided hcheck hresult =>
      apply traced_of_not_challenged
      rwa [challenged_cons]
  | stuck hcheck hdenial => cases hdenial
  | unanswered hcheck hdenial cookie =>
      obtain rfl := Option.some.inj hdenial
      apply traced_of_unanswered hcheck
  | lostAgain hcheck hdenial answer cookie cookie' =>
      obtain rfl := Option.some.inj hdenial
      apply traced_of_answered hcheck
  | decidedAgain hcheck hdenial answer cookie cookie' hresult =>
      obtain rfl := Option.some.inj hdenial
      apply traced_of_answered hcheck

/-- A call sets out with its request alone, unless it is challenged; then it sets out with the
denial, and with its request again if the denial gets a response, whatever that is. So a request does
not set out again unless it was challenged, and no call sets out more than three times. What is sent
are the trips of these requests, which go where the server sends them. When it sends them nowhere,
nothing else is sent. -/
theorem requests_perform {address : String} (haddress : (Url.parse? address).isSome)
    (call : Call) (server : Server σ) (jar : Jar) (s : σ) :
  let g := ofAddress address
  let log := (serve server.logged (g.perform call) jar (s, [])).state.2
  ∃ request root, g.ofCall call = some request ∧ Url.parse? (g.base ++ "/") = some root
    ∧ Traced (request.carrying jar) { method := .post, url := root } log.trips
    ∧ log.Splits log.trips
    ∧ log.length ≤ 33
    ∧ (log.Direct → Traced (request.carrying jar) { method := .post, url := root } log)
  := by
  intro g log
  obtain ⟨request, denial, hrequest, hdenial⟩ := exists_requests_of_address haddress call
  obtain ⟨root, hroot, rfl⟩ := exists_of_request? hdenial
  obtain ⟨hsplits, result, htranscript, -⟩ := transcript_perform server jar s hrequest
  rw [hdenial] at htranscript
  have htraced : Traced (request.carrying jar) { method := .post, url := root } log.trips :=
    htranscript.traced
  refine ⟨request, root, hrequest, hroot, htraced, hsplits, ?_, ?_⟩
  · calc log.length ≤ (redirectLimit + 1) * log.trips.length := hsplits.length_le
      _ ≤ (redirectLimit + 1) * 3 := Nat.mul_le_mul_left _ htraced.length_le
      _ = 33 := rfl
  · intro hdirect
    rw [← hdirect.trips_eq]
    apply htraced

/-- A server that has nothing but the page. -/
def stubborn : Server Unit := fun _ s =>
  (some plainPage, s)

/-- What such a server gets when one user subscribes to another. -/
def stubbornLog : Log :=
  (serve stubborn.logged
    ((ofAddress "http://localhost").perform (.mutate (.subscribe "ann" "bob"))) [] ((), [])).state.2

theorem stubbornLog_eq :
  let request : Request :=
    { method := .post
      url := ⟨false, "localhost", "/subscriptions".toList,
        some "UserID=ann&TargetUserID=bob".toList⟩ }
  let denial : Request := { method := .post, url := ⟨false, "localhost", ['/'], none⟩ }
  stubbornLog = [(request, some plainPage), (denial, some plainPage), (request, some plainPage)]
  := by
  decide +kernel

theorem challenged_stubbornLog :
  Challenged stubbornLog
  := by
  rw [stubbornLog_eq, challenged_cons]
  apply botCheck_plainPage

theorem direct_stubbornLog :
  Direct stubbornLog
  := by
  rw [stubbornLog_eq]
  intro request response hmem
  simp only [List.mem_cons, Prod.mk.injEq, Option.some.injEq, List.not_mem_nil, or_false] at hmem
  obtain ⟨-, rfl⟩ | ⟨-, rfl⟩ | ⟨-, rfl⟩ := hmem <;> exact Response.leads_iff.mpr rfl

/-- That server gets the request twice, and the denial in between. -/
theorem requests_perform_stubborn :
  ∃ request root cookie cookie', stubbornLog.map Prod.fst
    = [request, { method := .post, url := root, cookie }, { request with cookie := cookie' }]
  := by
  obtain ⟨request, root, -, -, -, -, -, htraced⟩ := requests_perform
    (show (Url.parse? "http://localhost").isSome by decide +kernel)
    (.mutate (.subscribe "ann" "bob")) stubborn [] ()
  obtain ⟨cookie, answer, hanswer, -, hrequests⟩ :=
    (htraced direct_stubbornLog).challenged challenged_stubbornLog
  have hsome : answer ≠ none := by
    rintro rfl
    have hentry : stubbornLog[1]? = some ({ method := .post, url := root, cookie }, none) := hanswer
    rw [stubbornLog_eq] at hentry
    cases hentry
  obtain ⟨cookie', hrequests⟩ := hrequests hsome
  exact ⟨_, root, cookie, cookie', hrequests⟩

/-- A server that has moved its posts. -/
def moved : Server Unit := fun request s =>
  if request.url.path = "/posts".toList then
    (some { status := 307, location := some "/posts2" }, s)
  else (some { status := 200 }, s)

/-- What such a server gets when a user posts something. -/
def movedLog : Log :=
  (serve moved.logged
    ((ofAddress "http://localhost").perform (.mutate (.createPost "ann" "hi"))) [] ((), [])).state.2

theorem movedLog_eq :
  let request : Request :=
    { method := .post
      url := ⟨false, "localhost", "/posts".toList, none⟩
      body := Wire.encode (⟨"ann", "hi"⟩ : Wire.NewPost) }
  let next : Request := { request with url := ⟨false, "localhost", "/posts2".toList, none⟩ }
  movedLog = [(request, some { status := 307, location := some "/posts2" }),
    (next, some { status := 200 })]
  := by
  decide +kernel

/-- The post is sent twice, though the server has not asked whether a robot is calling. -/
theorem not_traced_always :
  ¬ ∀ (address : String) (call : Call) (server : Server Unit) (jar : Jar),
    (Url.parse? address).isSome →
    let g := ofAddress address
    let log := (serve server.logged (g.perform call) jar ((), [])).state.2
    ∃ request root, g.ofCall call = some request ∧ Url.parse? (g.base ++ "/") = some root
      ∧ Traced (request.carrying jar) { method := .post, url := root } log
  := by
  intro h
  obtain ⟨request, root, -, -, htraced⟩ := h "http://localhost" (.mutate (.createPost "ann" "hi"))
    moved [] (by decide +kernel)
  have hcheck : ¬ Challenged movedLog := by
    rw [movedLog_eq, challenged_cons]
    intro hpage
    cases hpage.status
  have halone : (movedLog.map Prod.fst).length = 1 :=
    congrArg List.length (htraced.alone hcheck)
  rw [movedLog_eq] at halone
  cases halone

/-! ### How a call ends -/

/-- The response that decides a call: the first, or the one to the request that was sent again if
the first is the page. -/
inductive Decides : Log → Response → Prop
  | first {request : Request} {response : Response} {rest : Log} (hcheck : ¬ BotCheck response) :
    Decides ((request, some response) :: rest) response
  | again {request request' : Request} {page response : Response}
      {denial : Request × Option Response} (hcheck : BotCheck page) :
    Decides [(request, some page), denial, (request', some response)] response

theorem Decides.unique {log : Log} {response response' : Response} (h : Decides log response)
    (h' : Decides log response') :
  response = response'
  := by
  cases h with
  | first hcheck =>
      cases h' with
      | first _ => rfl
      | again hpage => contradiction
  | again hpage =>
      cases h' with
      | first hcheck => contradiction
      | again _ => rfl

/-- The page came, the denial got a response, and the page came again. -/
def ChallengedAgain (log : Log) : Prop :=
  ∃ request denial request' page answer page',
    log = [(request, some page), (denial, some answer), (request', some page')]
      ∧ BotCheck page ∧ BotCheck page'

/-- All requests got responses, and the one that decides has another status than 200, and a body. -/
def Refused (log : Log) (code : Nat) (body : String) : Prop :=
  (∀ request, (request, none) ∉ log)
    ∧ ∃ response, Decides log response ∧ response.status ≠ 200
      ∧ response.status = code ∧ response.text = body

/-- What is said about a mutation is the body, and what can be read from it. -/
structure Acknowledges (body : String) (ack : Ack) : Prop where
  verbatim : ack.body = body
  read : ∀ reply, Wire.decode Wire.MutationReply body = .ok reply →
    ack.status = reply.status ∧ ack.postKey = reply.postKey
  unread : ∀ fault, Wire.decode Wire.MutationReply body = .error fault →
    ack.status = none ∧ ack.postKey = none

/-- What a call brings by the body that comes with status 200. -/
inductive Brings : Call → String → Except Error Yield → Prop
  | acknowledged {mutation : Mutation} {body : String} {ack : Ack} (hack : Acknowledges body ack) :
    Brings (.mutate mutation) body (.ok (.acknowledged ack))
  | fetched {endpoint : Endpoint} {body : String} {reply : Wire.FeedReply}
      (hreply : Wire.decode Wire.FeedReply body = .ok reply) :
    Brings (.fetch endpoint) body (.ok (.fetched (reply.posts.getD [])))
  | malformed {endpoint : Endpoint} {body : String} {fault : Json.Fault}
      (hfault : Wire.decode Wire.FeedReply body = .error fault) :
    Brings (.fetch endpoint) body (.error (.malformed fault))

theorem acknowledges_ofBody (body : String) :
  Acknowledges body (Ack.ofBody body)
  := by
  rw [Ack.ofBody]
  cases hdecode : Wire.decode Wire.MutationReply body with
  | ok reply =>
      refine ⟨rfl, ?_, by simp [hdecode]⟩
      intro reply' hreply
      obtain rfl : reply = reply' := Except.ok.inj (hdecode ▸ hreply)
      exact ⟨rfl, rfl⟩
  | error fault => exact ⟨rfl, by simp [hdecode], fun _ _ => ⟨rfl, rfl⟩⟩

theorem brings_interpret (call : Call) (body : String) :
  Brings call body (interpret call body)
  := by
  cases call with
  | mutate mutation => exact .acknowledged (acknowledges_ofBody body)
  | fetch endpoint =>
      rw [interpret]
      cases hdecode : Wire.decode Wire.FeedReply body with
      | ok reply => apply Brings.fetched hdecode
      | error fault => apply Brings.malformed hdecode

/-- By a body a call brings none of the errors that come about without one. -/
theorem Brings.ne_error {call : Call} {body : String} {result : Except Error Yield}
    (h : Brings call body result) {e : Error} (he : ∀ fault, e ≠ .malformed fault) :
  result ≠ .error e
  := by
  rintro rfl
  cases h with
  | malformed hfault => exact he _ rfl

/-- The kinds of results, and when each of them comes about. -/
structure Classified (call : Call) (log : Log) (result : Except Error Yield) : Prop where
  transport : result = .error .transport ↔ ∃ request, (request, none) ∈ log
  status : ∀ code body, result = .error (.status code body) ↔ Refused log code body
  botCheck : result = .error .botCheck ↔ ChallengedAgain log
  /-- In all other cases the body of the response that decides is what counts. -/
  otherwise : result ≠ .error .transport → (∀ code body, result ≠ .error (.status code body)) →
    result ≠ .error .botCheck →
    ∃ response, Decides log response ∧ response.status = 200 ∧ Brings call response.text result

theorem not_challengedAgain_of_none {log : Log} {request : Request} (h : (request, none) ∈ log) :
  ¬ ChallengedAgain log
  := by
  rintro ⟨_, _, _, page, answer, page', rfl, -, -⟩
  simp at h

theorem classified_of_lost (call : Call) {log : Log} (request : Request)
    (h : (request, none) ∈ log) :
  Classified call log (.error .transport)
  where
  transport := by
    simp only [true_iff]
    use request
  status := by
    intro code body
    constructor
    · intro herror
      cases herror
    · rintro ⟨hanswered, -⟩
      exact absurd h (hanswered request)
  botCheck := by
    simpa using not_challengedAgain_of_none h
  otherwise := by
    intro htransport
    contradiction

section

variable {call : Call} {log : Log} {response : Response}

theorem classified_of_status_ne (hanswered : ∀ request, (request, none) ∉ log)
    (hdecides : Decides log response) (hagain : ¬ ChallengedAgain log)
    (hstatus : response.status ≠ 200) :
  Classified call log (.error (.status response.status response.text))
  where
  transport := by
    simpa using hanswered
  status := by
    intro code body
    constructor
    · intro herror
      cases herror
      use hanswered, response
    · rintro ⟨-, response', hdecides', -, rfl, rfl⟩
      rw [hdecides.unique hdecides']
  botCheck := by
    simpa using hagain
  otherwise := by
    intro _ hne
    exact absurd rfl (hne _ _)

theorem not_refused (hdecides : Decides log response) (hstatus : response.status = 200)
    (code : Nat) (body : String) :
  ¬ Refused log code body
  := by
  rintro ⟨-, response', hdecides', hne, -, -⟩
  rw [hdecides.unique hdecides'] at hstatus
  contradiction

theorem classified_of_botCheck (hanswered : ∀ request, (request, none) ∉ log)
    (hdecides : Decides log response) (hagain : ChallengedAgain log)
    (hstatus : response.status = 200) :
  Classified call log (.error .botCheck)
  where
  transport := by
    simpa using hanswered
  status := by
    intro code body
    simpa using not_refused hdecides hstatus code body
  botCheck := by
    simpa using hagain
  otherwise := by
    intro _ _ hne
    contradiction

theorem classified_of_status (hanswered : ∀ request, (request, none) ∉ log)
    (hdecides : Decides log response) (hagain : ¬ ChallengedAgain log)
    (hstatus : response.status = 200) {result : Except Error Yield}
    (hbrings : Brings call response.text result) :
  Classified call log result
  where
  transport := by
    simpa [hbrings.ne_error] using hanswered
  status := by
    intro code body
    simpa [hbrings.ne_error] using not_refused hdecides hstatus code body
  botCheck := by
    simpa [hbrings.ne_error] using hagain
  otherwise := by
    intro _ _ _
    use response

/-- A call whose requests all got responses ends with what the deciding one comes to. -/
theorem classified_of_concludes (hanswered : ∀ request, (request, none) ∉ log)
    (hdecides : Decides log response) (hagain : ChallengedAgain log ↔ BotCheck response)
    {result : Except Error String} (hresult : Concludes response result) :
  Classified call log (result.bind (interpret call))
  := by
  cases hresult with
  | refused hstatus =>
      have hne : ¬ ChallengedAgain log := fun h => hstatus (hagain.mp h).status
      apply classified_of_status_ne hanswered hdecides hne hstatus
  | challenged hcheck =>
      apply classified_of_botCheck hanswered hdecides (hagain.mpr hcheck) hcheck.status
  | accepted hstatus hcheck =>
      apply classified_of_status hanswered hdecides (hagain.not.mpr hcheck) hstatus
      apply brings_interpret

end

/-- However a call goes, its result is of the right kind. -/
theorem Transcript.classified {denial request : Request} {trips : Log}
    {result : Except Error String} (h : Transcript (some denial) request trips result)
    (call : Call) :
  Classified call trips (result.bind (interpret call))
  := by
  cases h with
  | lost => exact classified_of_lost call request (List.mem_singleton_self _)
  | stuck hpage hdenial => cases hdenial
  | @unanswered page denial hpage hdenial cookie =>
      exact classified_of_lost call { denial with cookie } (by simp)
  | lostAgain hpage hdenial answer cookie cookie' =>
      exact classified_of_lost call { request with cookie := cookie' } (by simp)
  | decided hcheck hresult =>
      apply classified_of_concludes (by simp) (.first hcheck) _ hresult
      constructor
      · rintro ⟨_, _, _, page, answer, page', heq, -, -⟩
        cases heq
      · intro h
        contradiction
  | decidedAgain hpage hdenial answer cookie cookie' hresult =>
      apply classified_of_concludes (by simp) (.again hpage) _ hresult
      constructor
      · rintro ⟨_, _, _, page, answer, page', heq, -, hagain⟩
        cases heq
        apply hagain
      · intro hagain
        exact ⟨_, _, _, _, _, _, rfl, hpage, hagain⟩

/-- The result of a call tells how its trips have ended, and so what the server said where it sent
the client nowhere. When the request of the call cannot be made, nothing is sent. -/
theorem result_perform (address : String) (call : Call) (server : Server σ) (jar : Jar) (s : σ) :
  let g := ofAddress address
  let served := serve server.logged (g.perform call) jar (s, [])
  let log := served.state.2
  ((Url.parse? address).isSome →
    Classified call log.trips served.result
      ∧ (log.Direct → Classified call log served.result))
    ∧ (g.ofCall call = none → log = [] ∧ served.result = .error .transport)
  := by
  intro g served log
  constructor
  · intro haddress
    obtain ⟨request, denial, hrequest, hdenial⟩ := exists_requests_of_address haddress call
    obtain ⟨-, result, htranscript, hresult⟩ := transcript_perform server jar s hrequest
    rw [hdenial] at htranscript
    have hclassified : Classified call log.trips served.result := by
      rw [show served.result = result.bind (interpret call) from hresult]
      exact htranscript.classified call
    use hclassified
    intro hdirect
    rw [← hdirect.trips_eq]
    apply hclassified
  · intro hrequest
    simp only [log, served, serve_perform, hrequest, serve_send_none]
    exact ⟨trivial, rfl⟩

/-- To a server that has nothing but the page a robot is calling. -/
theorem result_perform_stubborn :
  (serve stubborn.logged
      ((ofAddress "http://localhost").perform (.mutate (.subscribe "ann" "bob"))) [] ((), [])).result
    = .error .botCheck
  := by
  have haddress : (Url.parse? "http://localhost").isSome := by
    decide +kernel
  obtain ⟨hclassified, -⟩ :=
    result_perform "http://localhost" (.mutate (.subscribe "ann" "bob")) stubborn [] ()
  obtain ⟨-, hdirect⟩ := hclassified haddress
  apply (hdirect direct_stubbornLog).botCheck.mpr
  exact ⟨_, _, _, _, _, _, stubbornLog_eq, botCheck_plainPage, botCheck_plainPage⟩

theorem refused_movedLog :
  Refused movedLog 307 ""
  := by
  rw [movedLog_eq]
  constructor
  · simp
  · refine ⟨_, Decides.first ?_, by decide, rfl, ?_⟩
    · intro hpage
      cases hpage.status
    · decide +kernel

/-- A call ends well though the first response has another status than 200, because the client is
sent to one that has it. And without an address a call ends like one that gets no response, though
nothing has been sent. -/
theorem not_classified_always :
  (¬ ∀ (address : String) (call : Call) (server : Server Unit) (jar : Jar),
    (Url.parse? address).isSome →
    let served := serve server.logged ((ofAddress address).perform call) jar ((), [])
    Classified call served.state.2 served.result)
    ∧ ¬ ∀ (address : String) (call : Call) (server : Server Unit) (jar : Jar),
      let served := serve server.logged ((ofAddress address).perform call) jar ((), [])
      Classified call served.state.2 served.result
  := by
  constructor
  · intro h
    have hclassified := h "http://localhost" (.mutate (.createPost "ann" "hi")) moved []
      (by decide +kernel)
    have hresult : (serve moved.logged
        ((ofAddress "http://localhost").perform (.mutate (.createPost "ann" "hi"))) []
        ((), [])).result = .ok (.acknowledged ⟨none, none, ""⟩) := by
      decide +kernel
    have hstatus := (hclassified.status 307 "").mpr refused_movedLog
    rw [hresult] at hstatus
    cases hstatus
  · intro h
    have hclassified := h "" (.mutate (.createPost "ann" "hi")) moved []
    have hrequest : (ofAddress "").ofCall (.mutate (.createPost "ann" "hi")) = none := by
      decide +kernel
    simp only [serve_perform, hrequest, serve_send_none] at hclassified
    obtain ⟨request, hmem⟩ := hclassified.transport.mp rfl
    cases hmem

end Gateway

end FeedClient
