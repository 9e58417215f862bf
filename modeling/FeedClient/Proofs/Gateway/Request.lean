import FeedClient.Gateway
import FeedClient.Proofs.Http.Site

/-!
# The requests of a gateway

Every call has one request. To the question whether a robot is calling the gateway denies it, with a
request of its own. When the address of the gateway is one, all these requests can be made, and those
of the client, whose paths are fixed, are sent to one place. The denial is none of the requests of
calls.
-/

namespace FeedClient

open Http (Request Response Jar)

/-- The path that a call is sent to. -/
def Call.path : Call → String
  | .mutate (.createUser _) => "/users"
  | .mutate (.createPost _ _) => "/posts"
  | .mutate (.deletePost _ _) => "/posts"
  | .mutate (.subscribe _ _) => "/subscriptions"
  | .mutate (.unsubscribe _ _) => "/subscriptions"
  | .fetch endpoint => endpoint.path

/-- The call is a mutation, or it fetches the feed that some view shows to some user. -/
def Call.Resolved : Call → Prop
  | .mutate _ => True
  | .fetch endpoint => ∃ view user, endpoint = Endpoint.ofView view user

/-- The names that the client asks for. -/
def Call.names : List String :=
  ["users", "posts", "subscriptions", "home", "timeline"]

theorem Call.plain_of_mem_names :
  ∀ name ∈ names, Url.Plain name.toList
  := by
  decide

/-- The path of a resolved call is a slash and a name. -/
theorem Call.Resolved.exists_name {call : Call} (h : call.Resolved) :
  ∃ name : String, call.path = "/" ++ name ∧ Url.Plain name.toList
  := by
  have hname : ∃ name ∈ names, call.path = "/" ++ name := by
    cases call with
    | mutate mutation =>
        cases mutation with
        | createUser user => exact ⟨"users", by decide, rfl⟩
        | createPost author contents => exact ⟨"posts", by decide, rfl⟩
        | deletePost user key => exact ⟨"posts", by decide, rfl⟩
        | subscribe user target => exact ⟨"subscriptions", by decide, rfl⟩
        | unsubscribe user target => exact ⟨"subscriptions", by decide, rfl⟩
    | fetch endpoint =>
        obtain ⟨view, user, rfl⟩ := h
        cases view with
        | home => exact ⟨"home", by decide, rfl⟩
        | myTimeline => exact ⟨"timeline", by decide, rfl⟩
        | discover => exact ⟨"home", by decide, rfl⟩
  obtain ⟨name, hmem, hpath⟩ := hname
  use name, hpath
  apply plain_of_mem_names name hmem

/-- The method that a call is sent with. -/
def Call.method : Call → Http.Method
  | .mutate (.createUser _) => .post
  | .mutate (.createPost _ _) => .post
  | .mutate (.deletePost _ _) => .delete
  | .mutate (.subscribe _ _) => .post
  | .mutate (.unsubscribe _ _) => .delete
  | .fetch _ => .get

/-- The parameters that a call is sent with, in their order. -/
def Call.parameters : Call → List (String × String)
  | .mutate (.createUser _) => []
  | .mutate (.createPost _ _) => []
  | .mutate (.deletePost user key) => [("UserID", user), ("PostKey", key.text)]
  | .mutate (.subscribe user target) => [("UserID", user), ("TargetUserID", target)]
  | .mutate (.unsubscribe user target) => [("UserID", user), ("TargetUserID", target)]
  | .fetch endpoint => [("UserID", endpoint.user)]

/-- The body that a call is sent with. -/
def Call.body : Call → String
  | .mutate (.createUser user) => Wire.encode (⟨user⟩ : Wire.NewUser)
  | .mutate (.createPost author contents) => Wire.encode (⟨author, contents⟩ : Wire.NewPost)
  | .mutate (.deletePost _ _) => ""
  | .mutate (.subscribe _ _) => ""
  | .mutate (.unsubscribe _ _) => ""
  | .fetch _ => ""

/-- A call that posts something without a body has parameters. -/
theorem Call.parameters_ne_nil {call : Call} (hmethod : call.method = .post)
    (hbody : call.body = "") :
  call.parameters ≠ []
  := by
  cases call with
  | fetch endpoint => cases hmethod
  | mutate mutation =>
      cases mutation with
      | createUser user => simp [body, Wire.encode, Wire.Record.write, Json.writeObject] at hbody
      | createPost author contents =>
          simp [body, Wire.encode, Wire.Record.write, Json.writeObject] at hbody
      | deletePost user key => cases hmethod
      | subscribe user target => apply List.cons_ne_nil
      | unsubscribe user target => cases hmethod

namespace Gateway

/-- The request of a call; none when the address is none. -/
def ofCall (g : Gateway) : Call → Option Request
  | .mutate mutation => g.ofMutation mutation
  | .fetch endpoint => g.ofEndpoint endpoint

/-- The request that denies that a robot is calling. -/
def denial? (g : Gateway) : Option Request :=
  g.request? .post "/" [] ""

/-- Whether a request denies that a robot is calling, whatever cookies are sent with it. -/
def isDenial (g : Gateway) (request : Request) : Bool :=
  g.denial? = some { request with cookie := none }

theorem ofCall_eq (g : Gateway) (call : Call) :
  g.ofCall call = g.request? call.method call.path call.parameters call.body
  := by
  cases call with
  | mutate mutation => cases mutation <;> rfl
  | fetch endpoint => rfl

theorem request?_isSome (g : Gateway) (method : Http.Method) (path : String)
    (parameters : List (String × String)) (body : String) :
  (g.request? method path parameters body).isSome ↔ (Url.parse? (g.base ++ path)).isSome
  := by
  rw [request?, Option.isSome_map]

theorem exists_of_request? {g : Gateway} {method : Http.Method} {path : String}
    {parameters : List (String × String)} {body : String} {request : Request}
    (h : g.request? method path parameters body = some request) :
  ∃ url, Url.parse? (g.base ++ path) = some url
    ∧ request = { method, url := url.addQuery parameters, body }
  := by
  obtain ⟨url, hurl, rfl⟩ := Option.map_eq_some_iff.mp h
  use url

/-- A call is sent with its method, its parameters and its body to its path. -/
theorem exists_of_ofCall {g : Gateway} {call : Call} {request : Request}
    (h : g.ofCall call = some request) :
  ∃ url, Url.parse? (g.base ++ call.path) = some url
    ∧ request = { method := call.method, url := url.addQuery call.parameters, body := call.body }
  := by
  rw [ofCall_eq] at h
  apply exists_of_request? h

/-! ### The address of a gateway -/

theorem toList_base (address : String) :
  (ofAddress address).base.toList = address.toList.rdropWhile (· = '/')
  := by
  rw [ofAddress, String.toList_ofList]
  rfl

theorem base_subset (address : String) :
  (ofAddress address).base.toList ⊆ address.toList
  := by
  rw [toList_base]
  apply (List.rdropWhile_prefix (· = '/') (l := address.toList)).subset

/-- The gateway to an address has one. -/
theorem parse?_base_isSome {address : String} (h : (Url.parse? address).isSome) :
  (Url.parse? (ofAddress address).base).isSome
  := by
  obtain ⟨slashes, hslashes, haddress⟩ : ∃ slashes : String,
      (∀ c ∈ slashes.toList, c = '/') ∧ address = (ofAddress address).base ++ slashes := by
    use String.ofList (address.toList.rtakeWhile (· = '/'))
    constructor
    · intro c hc
      rw [String.toList_ofList] at hc
      simpa using List.mem_rtakeWhile_imp hc
    · rw [← String.toList_inj, String.toList_append, toList_base, String.toList_ofList,
        List.rdropWhile, List.rtakeWhile, ← List.reverse_append,
        List.takeWhile_append_dropWhile, List.reverse_reverse]
  rw [haddress] at h
  apply Url.parse?_isSome_of_append hslashes h

/-- The addresses of a gateway make a site. -/
theorem exists_site {address : String} (h : (Url.parse? address).isSome) :
  ∃ site : Url.Site, site.place ⊆ address.toList
    ∧ (∀ name : String, Url.Solid name.toList →
      Url.parse? ((ofAddress address).base ++ ("/" ++ name)) = some (site.url name.toList))
    ∧ Url.parse? ((ofAddress address).base ++ "/") = some (site.url [])
  := by
  obtain ⟨site, hplace, hsite⟩ := Url.Site.exists_of_address (parse?_base_isSome h)
  use site, fun _ hc => base_subset address (hplace hc)
  constructor
  · intro name hname
    rw [← String.append_assoc]
    apply hsite name hname
  · have hroot := hsite "" Url.plain_nil.solid
    rwa [String.append_empty] at hroot

/-- A gateway that has an address can make every request. -/
theorem request?_isSome_of_address {address : String} (h : (Url.parse? address).isSome)
    (method : Http.Method) (path : String) (parameters : List (String × String)) (body : String) :
  ((ofAddress address).request? method path parameters body).isSome
  := by
  rw [request?_isSome]
  apply Url.parse?_isSome_append (parse?_base_isSome h)

theorem ofCall_isSome_of_address {address : String} (h : (Url.parse? address).isSome)
    (call : Call) :
  ((ofAddress address).ofCall call).isSome
  := by
  rw [ofCall_eq]
  apply request?_isSome_of_address h

/-- A gateway that has an address can make the request of every call, and deny that a robot is
calling. -/
theorem exists_requests_of_address {address : String} (h : (Url.parse? address).isSome)
    (call : Call) :
  ∃ request denial, (ofAddress address).ofCall call = some request
    ∧ (ofAddress address).denial? = some denial
  := by
  obtain ⟨request, hrequest⟩ := Option.isSome_iff_exists.mp (ofCall_isSome_of_address h call)
  obtain ⟨denial, hdenial⟩ : ∃ denial, (ofAddress address).denial? = some denial :=
    Option.isSome_iff_exists.mp (request?_isSome_of_address h .post "/" [] "")
  exact ⟨request, denial, hrequest, hdenial⟩

/-- The request of a resolved call and the denial are sent to one place. -/
theorem beside_denial {address : String} (haddress : (Url.parse? address).isSome) {call : Call}
    (hcall : call.Resolved) {request denial : Request}
    (hrequest : (ofAddress address).ofCall call = some request)
    (hdenial : (ofAddress address).denial? = some denial) :
  request.url.Beside denial.url
  := by
  obtain ⟨site, -, hsite, hroot⟩ := exists_site haddress
  obtain ⟨name, hpath, hname⟩ := hcall.exists_name
  obtain ⟨url, hurl, rfl⟩ := exists_of_ofCall hrequest
  obtain ⟨root, hroot', rfl⟩ := exists_of_request? hdenial
  rw [hpath, hsite name hname.solid] at hurl
  obtain rfl := Option.some.inj hurl
  obtain rfl := Option.some.inj (hroot.symm.trans hroot')
  have hbeside : (site.url name.toList).Beside (site.url []) :=
    site.beside_url hname Url.plain_nil
  exact hbeside.addQuery call.parameters []

/-! ### The denial is no request of a call -/

theorem isDenial_of_denial? {g : Gateway} {request : Request} (h : g.denial? = some request) :
  g.isDenial request = true
  := by
  rw [isDenial, h]
  obtain ⟨url, -, rfl⟩ := exists_of_request? h
  apply decide_eq_true rfl

/-- A denial is sent to the root, with neither parameters nor a body. -/
theorem exists_of_isDenial {g : Gateway} {request : Request} (h : g.isDenial request) :
  ∃ url, Url.parse? (g.base ++ "/") = some url
    ∧ request.method = .post ∧ request.url = url ∧ request.body = ""
  := by
  obtain ⟨url, hurl, heq⟩ := exists_of_request? (of_decide_eq_true h)
  use url, hurl
  obtain ⟨method, url', cookie, contentType, body⟩ := request
  obtain ⟨rfl, rfl, -, -, rfl⟩ := Request.mk.inj heq
  exact ⟨rfl, rfl, rfl⟩

/-- No call of the gateway sends a denial as its request. -/
theorem isDenial_ofCall {address : String} (haddress : (Url.parse? address).isSome) {call : Call}
    (hcall : call.Resolved) {request : Request}
    (h : (ofAddress address).ofCall call = some request) :
  (ofAddress address).isDenial request = false
  := by
  rw [← Bool.not_eq_true]
  intro hdenial
  obtain ⟨root, hroot, hpost, heq, hbody⟩ := exists_of_isDenial hdenial
  obtain ⟨url, hurl, rfl⟩ := exists_of_ofCall h
  obtain ⟨site, -, hsite, hroot'⟩ := exists_site haddress
  obtain ⟨name, hpath, hname⟩ := hcall.exists_name
  rw [hpath, hsite name hname.solid] at hurl
  obtain rfl := Option.some.inj hurl
  obtain rfl := Option.some.inj (hroot'.symm.trans hroot)
  -- the query of the root is no longer than that of the name, and the parameters are added to it
  have hle := site.queryLength_url_le (List.nil_prefix (l := name.toList))
  have hlt := Url.queryLength_lt_addQuery (site.url name.toList)
    (Call.parameters_ne_nil hpost hbody)
  rw [← heq] at hle
  exact absurd hle (Nat.not_le.mpr hlt)

end Gateway

end FeedClient
