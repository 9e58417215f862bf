import FeedClient.Proofs.Gateway.Transcript
import FeedClient.Proofs.Http.Form
import FeedClient.Proofs.Wire.RoundTrip

/-!
# The arguments of a call

A call is sent with its arguments: as parameters behind the question mark of the target, or as a
record in the body. Whatever text they are, the server can read them back, with nothing added to
them, dropped or changed. So different calls are never sent as the same request.
-/

namespace FeedClient

open Http (Request Response Jar)
open Server (Log)

/-! ### What calls are sent with -/

namespace Call

/-- What a server can read in the body that a call is sent with. -/
def HasBody (body : String) : Call → Prop
  | .mutate (.createUser user) => Wire.decode Wire.NewUser body = .ok ⟨user⟩
  | .mutate (.createPost author contents) => Wire.decode Wire.NewPost body = .ok ⟨author, contents⟩
  | .mutate (.deletePost _ _) => body = ""
  | .mutate (.subscribe _ _) => body = ""
  | .mutate (.unsubscribe _ _) => body = ""
  | .fetch _ => body = ""

/-- The path of the call neither has a query nor is cut short. -/
def Plain (call : Call) : Prop :=
  '?' ∉ call.path.toList ∧ '#' ∉ call.path.toList

theorem Resolved.plain {call : Call} (h : call.Resolved) :
  call.Plain
  := by
  obtain ⟨name, hpath, hname⟩ := h.exists_name
  have hmarks (c : Char) (hne : c ≠ '/') (hc : Url.endsAuthority c = true) :
      c ∉ call.path.toList := by
    rw [hpath, String.toList_append]
    intro hmem
    obtain hslash | hmem := List.mem_append.mp hmem
    · exact hne (List.mem_singleton.mp hslash)
    · exact hname.not_mem hc hmem
  exact ⟨hmarks '?' (by decide) rfl, hmarks '#' (by decide) rfl⟩

theorem hasBody_body (call : Call) :
  call.HasBody call.body
  := by
  cases call with
  | fetch endpoint => rfl
  | mutate mutation =>
      cases mutation with
      | createUser user => exact (Wire.written_newUser _).decode
      | createPost author contents => exact (Wire.written_newPost _).decode
      | deletePost user key => rfl
      | subscribe user target => rfl
      | unsubscribe user target => rfl

/-- The call that is sent with a method, a path, parameters and a body. -/
def read? (method : Http.Method) (path : String) (parameters : List (String × String))
    (body : String) : Option Call :=
  match method, parameters with
  | .get, [(_, user)] => some (.fetch ⟨path, user⟩)
  | .delete, [(_, user), (_, text)] =>
    if path = "/posts" then
      (PostKey.parse text).toOption.map fun key => .mutate (.deletePost user key)
    else some (.mutate (.unsubscribe user text))
  | .post, [(_, user), (_, target)] => some (.mutate (.subscribe user target))
  | .post, [] =>
    if path = "/users" then
      (Wire.decode Wire.NewUser body).toOption.map fun args => .mutate (.createUser args.user)
    else
      (Wire.decode Wire.NewPost body).toOption.map fun args =>
        .mutate (.createPost args.user args.contents)
  | _, _ => none

theorem HasBody.read? {call : Call} {body : String} (h : call.HasBody body) :
  Call.read? call.method call.path call.parameters body = some call
  := by
  cases call with
  | fetch endpoint => rfl
  | mutate mutation =>
      cases mutation with
      | createUser user =>
          have hdecode : Wire.decode Wire.NewUser body = .ok ⟨user⟩ := h
          simp [Call.read?, method, path, parameters, hdecode, Except.toOption]
      | createPost author contents =>
          have hdecode : Wire.decode Wire.NewPost body = .ok ⟨author, contents⟩ := h
          simp [Call.read?, method, path, parameters, hdecode, Except.toOption]
      | deletePost user key =>
          have hkey : PostKey.parse key.text = .ok key := dif_pos key.marked
          simp [Call.read?, method, path, parameters, hkey, Except.toOption]
      | subscribe user target => rfl
      | unsubscribe user target => simp [Call.read?, method, path, parameters]

end Call

/-- The server can read the arguments of a call in a request, and nothing else. -/
structure Http.Request.Carries (request : Request) (call : Call) : Prop where
  method : request.method = call.method
  parameters : Form.decode (Url.targetQuery request.url.target) = call.parameters
  body : call.HasBody request.body

/-- The arguments of a call are all there is to it, apart from its path. -/
theorem Http.Request.Carries.unique {request request' : Request} {call call' : Call}
    (h : request.Carries call) (h' : request'.Carries call')
    (hmethod : request.method = request'.method) (htarget : request.url.target = request'.url.target)
    (hbody : request.body = request'.body) (hpath : call.path = call'.path) :
  call = call'
  := by
  have hread := h.body.read?
  rw [← h.method, ← h.parameters, hmethod, htarget, hbody, hpath, h'.method, h'.parameters,
    h'.body.read?] at hread
  exact (Option.some.inj hread).symm

namespace Gateway

/-! ### The request of a call -/

section

variable {address : String} (hquery : '?' ∉ address.toList) (hfragment : '#' ∉ address.toList)

include hquery hfragment

theorem not_mem_base :
  '?' ∉ (ofAddress address).base.toList ∧ '#' ∉ (ofAddress address).base.toList
  := by
  have hsubset := base_subset address
  exact ⟨fun h => hquery (hsubset h), fun h => hfragment (hsubset h)⟩

theorem not_mem_base_append {call : Call} (hcall : call.Plain) :
  '?' ∉ ((ofAddress address).base ++ call.path).toList
    ∧ '#' ∉ ((ofAddress address).base ++ call.path).toList
  := by
  obtain ⟨hbase, hbase'⟩ := not_mem_base hquery hfragment
  rw [String.toList_append, List.mem_append, List.mem_append, not_or, not_or]
  exact ⟨⟨hbase, hcall.1⟩, hbase', hcall.2⟩

/-- The request of a call carries its arguments. -/
theorem carries_of_ofCall {call : Call} (hcall : call.Plain) {request : Request}
    (h : (ofAddress address).ofCall call = some request) :
  request.Carries call
  := by
  obtain ⟨url, hurl, rfl⟩ := exists_of_ofCall h
  obtain ⟨hquery', hfragment'⟩ := not_mem_base_append hquery hfragment hcall
  obtain ⟨hnone, hpath⟩ := Url.parse?_eq_some hquery' hfragment' hurl
  refine ⟨rfl, ?_, call.hasBody_body⟩
  have hpath' : '?' ∉ (url.addQuery call.parameters).path := by
    rwa [Url.path_addQuery]
  rw [(Url.cut_target hpath').2]
  apply Url.decode_query_addQuery hnone

/-- The targets of resolved calls tell their paths. -/
theorem exists_targetPath (haddress : (Url.parse? address).isSome) :
  ∃ place, ∀ {call : Call} {request : Request}, call.Resolved →
    (ofAddress address).ofCall call = some request →
    Url.targetPath request.url.target = place ++ call.path.toList
  := by
  obtain ⟨site, hplace, hsite, -⟩ := exists_site haddress
  have hmarks : ∀ c ∈ site.place, c ≠ '?' ∧ c ≠ '#' := by
    intro c hc
    constructor
    · rintro rfl
      exact hquery (hplace hc)
    · rintro rfl
      exact hfragment (hplace hc)
  obtain ⟨place, hpaths⟩ := site.exists_path_url hmarks
  use place
  intro call request hcall hrequest
  obtain ⟨name, hpath, hname⟩ := hcall.exists_name
  obtain ⟨url, hurl, rfl⟩ := exists_of_ofCall hrequest
  obtain ⟨hquery', hfragment'⟩ := not_mem_base_append hquery hfragment hcall.plain
  obtain ⟨-, hmark⟩ := Url.parse?_eq_some hquery' hfragment' hurl
  have hmark' : '?' ∉ (url.addQuery call.parameters).path := by
    rwa [Url.path_addQuery]
  rw [hpath, hsite name hname.solid] at hurl
  obtain rfl := Option.some.inj hurl
  rw [(Url.cut_target hmark').1, Url.path_addQuery, hpaths _ hname, hpath, String.toList_append]
  rfl

end

/-! ### The requests that are sent -/

variable {σ σ' : Type}

/-- The requests that a call sends to a server. Those that the server has sent the client on with are
not its own. -/
def sent (g : Gateway) (call : Call) (server : Server σ) (jar : Jar) (s : σ) : List Request :=
  (serve server.logged (g.perform call) jar (s, [])).state.2.trips.map Prod.fst

/-- What is sent after the request of a call is the denial or that request, with other cookies. -/
theorem Transcript.exists_rest {denial request : Request} {trips : Log}
    {result : Except Error String} (h : Transcript (some denial) request trips result) :
  ∃ rest, trips.map Prod.fst = request :: rest ∧ ∀ r ∈ rest, ∃ cookie : Option String,
    r = { denial with cookie } ∨ r = { request with cookie }
  := by
  have hagain (cookie cookie' : Option String) :
      ∀ r ∈ [{ denial with cookie }, { request with cookie := cookie' }], ∃ cookie : Option String,
        r = { denial with cookie } ∨ r = { request with cookie } := by
    rw [List.forall_mem_cons, List.forall_mem_singleton]
    exact ⟨⟨cookie, .inl rfl⟩, cookie', .inr rfl⟩
  cases h with
  | lost => exact ⟨[], rfl, by simp⟩
  | decided hcheck hresult => exact ⟨[], rfl, by simp⟩
  | stuck hcheck hdenial => cases hdenial
  | unanswered hcheck hdenial cookie =>
      obtain rfl := Option.some.inj hdenial
      exact ⟨[{ denial with cookie }], rfl, by simp⟩
  | lostAgain hcheck hdenial answer cookie cookie' =>
      obtain rfl := Option.some.inj hdenial
      exact ⟨_, rfl, hagain cookie cookie'⟩
  | decidedAgain hcheck hdenial answer cookie cookie' hresult =>
      obtain rfl := Option.some.inj hdenial
      exact ⟨_, rfl, hagain cookie cookie'⟩

/-- What a call sends is its request, at first, and denials. -/
theorem exists_sent {address : String} (haddress : (Url.parse? address).isSome) (call : Call)
    (server : Server σ) (jar : Jar) (s : σ) :
  ∃ request rest, (ofAddress address).ofCall call = some request
    ∧ (ofAddress address).sent call server jar s = request.carrying jar :: rest
    ∧ ∀ r ∈ rest,
      (ofAddress address).isDenial r ∨ ∃ cookie : Option String, r = { request with cookie }
  := by
  obtain ⟨request, denial, hrequest, hdenial⟩ := exists_requests_of_address haddress call
  obtain ⟨-, result, htranscript, -⟩ := transcript_perform server jar s hrequest
  rw [hdenial] at htranscript
  obtain ⟨rest, hsent, hrest⟩ := htranscript.exists_rest
  use request, rest, hrequest, hsent
  intro r hr
  obtain ⟨cookie, rfl | rfl⟩ := hrest r hr
  · left
    apply isDenial_of_denial? hdenial
  · right
    use cookie

/-- What a call sends, apart from denials, is its request, whatever cookies are sent with it. -/
theorem exists_cookie_of_mem_sent {address : String} (haddress : (Url.parse? address).isSome)
    {call : Call} {server : Server σ} {jar : Jar} {s : σ} {r : Request}
    (hr : r ∈ (ofAddress address).sent call server jar s)
    (hdenial : (ofAddress address).isDenial r = false) :
  ∃ request, (ofAddress address).ofCall call = some request
    ∧ ∃ cookie : Option String, r = { request with cookie }
  := by
  obtain ⟨request, rest, hrequest, hsent, hrest⟩ := exists_sent haddress call server jar s
  use request, hrequest
  rw [hsent] at hr
  obtain rfl | hr := List.mem_cons.mp hr
  · use jar.header? request.url
  · apply (hrest r hr).resolve_left
    rw [hdenial]
    decide

/-- Every call is sent with its arguments, and they can be read back. So calls that are sent as the
same request are the same, provided that they have one path or are those of the client. -/
theorem arguments_sent {address : String} (haddress : (Url.parse? address).isSome)
    (hquery : '?' ∉ address.toList) (hfragment : '#' ∉ address.toList) :
  let g := ofAddress address
  (∀ (call : Call) (server : Server σ) (jar : Jar) (s : σ), call.Plain →
    ∃ first rest, g.sent call server jar s = first :: rest ∧ first.Carries call
      ∧ ∀ r ∈ rest, g.isDenial r ∨ r.Carries call)
  ∧ ∀ (call call' : Call) (server : Server σ) (server' : Server σ') (jar jar' : Jar) (s : σ)
      (s' : σ'), call.Plain → call'.Plain →
    call.path = call'.path ∨ call.Resolved ∧ call'.Resolved →
    ∀ r ∈ g.sent call server jar s, ∀ r' ∈ g.sent call' server' jar' s',
      g.isDenial r = false → g.isDenial r' = false →
      r.method = r'.method → r.url.target = r'.url.target → r.body = r'.body → call = call'
  := by
  intro g
  constructor
  · intro call server jar s hcall
    obtain ⟨request, rest, hrequest, hsent, hrest⟩ := exists_sent haddress call server jar s
    have hcarries := carries_of_ofCall hquery hfragment hcall hrequest
    refine ⟨request.carrying jar, rest, hsent, ⟨hcarries.1, hcarries.2, hcarries.3⟩, ?_⟩
    intro r hr
    obtain hdenial | ⟨cookie, rfl⟩ := hrest r hr
    · exact .inl hdenial
    · exact .inr ⟨hcarries.1, hcarries.2, hcarries.3⟩
  · intro call call' server server' jar jar' s s' hcall hcall' hpath r hr r' hr' hdenial hdenial'
      hmethod htarget hbody
    obtain ⟨request, hrequest, cookie, rfl⟩ := exists_cookie_of_mem_sent haddress hr hdenial
    obtain ⟨request', hrequest', cookie', rfl⟩ := exists_cookie_of_mem_sent haddress hr' hdenial'
    have hcarries := carries_of_ofCall hquery hfragment hcall hrequest
    have hcarries' := carries_of_ofCall hquery hfragment hcall' hrequest'
    apply hcarries.unique hcarries' hmethod htarget hbody
    obtain hpath | ⟨hresolved, hresolved'⟩ := hpath
    · apply hpath
    · obtain ⟨place, hplace⟩ := exists_targetPath hquery hfragment haddress
      have htargetPath := hplace hresolved hrequest
      rw [htarget, hplace hresolved' hrequest'] at htargetPath
      apply String.toList_injective
      exact (List.append_cancel_left htargetPath).symm

/-- Marks of an address in names stay in the names. -/
theorem arguments_sent_subscribe :
  let g := ofAddress "http://localhost:8080/stw/"
  let call := Call.mutate (.subscribe "a&UserID=b c" "é?#%2B+")
  ∃ first rest, g.sent call stubborn [] () = first :: rest
    ∧ Form.decode (Url.targetQuery first.url.target)
      = [("UserID", "a&UserID=b c"), ("TargetUserID", "é?#%2B+")]
  := by
  intro g call
  have haddress : (Url.parse? "http://localhost:8080/stw/").isSome := by decide +kernel
  obtain ⟨hsent, -⟩ := @arguments_sent Unit Unit _ haddress (by decide) (by decide)
  obtain ⟨first, rest, hfirst, hcarries, -⟩ := hsent call stubborn [] () ⟨by decide, by decide⟩
  exact ⟨first, rest, hfirst, hcarries.parameters⟩

end Gateway

end FeedClient
