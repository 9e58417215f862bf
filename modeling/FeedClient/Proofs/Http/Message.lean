import FeedClient.Http.Message

/-!
# Where responses lead

A response with one of five statuses sends the client elsewhere if it says where. Then the same is
asked for there, with the same method and the same body; but after some of these statuses it is only
looked at what is there. `Leads` says so case by case, and the route after a response is what it
says.
-/

namespace FeedClient.Http

/-- The statuses that send the client elsewhere. -/
abbrev redirects : List Nat :=
  [301, 302, 303, 307, 308]

/-- What has been asked for is not asked for again where a status sends the client. -/
abbrev Request.Dropped (request : Request) (status : Nat) : Prop :=
  status = 303 ∨ request.method = .post ∧ (status = 301 ∨ status = 302)

/-- Where a response leads the client that has sent a request. -/
inductive Response.Leads (response : Response) (request : Request) : Route → Prop
  | final (hstatus : response.status ∉ redirects) : Leads response request .arrived
  /-- The response does not say where, or nothing that can be understood. -/
  | nowhere (hlocation : ∀ text, response.location = some text →
      request.url.heading text = .nowhere) :
    Leads response request .arrived
  | abroad {text : String} (hstatus : response.status ∈ redirects)
      (hlocation : response.location = some text) (hheading : request.url.heading text = .abroad) :
    Leads response request .astray
  | dropped {text : String} {url : Url} (hdropped : request.Dropped response.status)
      (hlocation : response.location = some text)
      (hheading : request.url.heading text = .toward url) :
    Leads response request
      (.onward { request with method := .get, url, contentType := none, body := "" })
  | again {text : String} {url : Url} (hstatus : response.status ∈ redirects)
      (hdropped : ¬ request.Dropped response.status) (hlocation : response.location = some text)
      (hheading : request.url.heading text = .toward url) :
    Leads response request (.onward { request with url })

theorem Request.Dropped.mem {request : Request} {status : Nat} (h : request.Dropped status) :
  status ∈ redirects
  := by
  obtain rfl | ⟨-, rfl | rfl⟩ := h <;> decide

theorem Request.redirected_eq (request : Request) (status : Nat) (url : Url) :
  request.redirected status url
    = if request.Dropped status then
        { request with method := .get, url, contentType := none, body := "" }
      else { request with url }
  := by
  simp only [redirected, Bool.or_eq_true, Bool.and_eq_true, decide_eq_true_eq]

namespace Response

variable {response : Response} {request : Request}

theorem route_of_not_mem (h : response.status ∉ redirects) :
  response.route request = .arrived
  := by
  rw [route, if_neg]
  rwa [List.contains_iff_mem]

theorem route_of_location {text : String} (h : response.status ∈ redirects)
    (hlocation : response.location = some text) :
  response.route request = match request.url.heading text with
    | .nowhere => .arrived
    | .abroad => .astray
    | .toward url => .onward (request.redirected response.status url)
  := by
  rw [route, if_pos (List.contains_iff_mem.mpr h), hlocation, Option.map_some]
  cases request.url.heading text <;> rfl

/-- A response without a place sends the client nowhere. -/
theorem route_of_none (hlocation : response.location = none) :
  response.route request = .arrived
  := by
  rw [route, hlocation]
  split <;> rfl

/-- The route after a response is where it leads. -/
theorem leads_route (response : Response) (request : Request) :
  response.Leads request (response.route request)
  := by
  by_cases hstatus : response.status ∈ redirects
  · cases hlocation : response.location with
    | none =>
        rw [route_of_none hlocation]
        apply Leads.nowhere
        intro text htext
        rw [hlocation] at htext
        cases htext
    | some text =>
        rw [route_of_location hstatus hlocation]
        cases hheading : request.url.heading text with
        | nowhere =>
            apply Leads.nowhere
            intro other hother
            obtain rfl := Option.some.inj (hlocation.symm.trans hother)
            apply hheading
        | abroad => apply Leads.abroad hstatus hlocation hheading
        | toward url =>
            simp only [Request.redirected_eq]
            split
            · next hdropped => apply Leads.dropped hdropped hlocation hheading
            · next hdropped => apply Leads.again hstatus hdropped hlocation hheading
  · rw [route_of_not_mem hstatus]
    apply Leads.final hstatus

/-- A response leads nowhere else. -/
theorem Leads.route_eq {route : Route} (h : response.Leads request route) :
  response.route request = route
  := by
  cases h with
  | final hstatus => apply route_of_not_mem hstatus
  | nowhere hlocation =>
      by_cases hstatus : response.status ∈ redirects
      · cases htext : response.location with
        | none => apply route_of_none htext
        | some text => rw [route_of_location hstatus htext, hlocation text htext]
      · apply route_of_not_mem hstatus
  | abroad hstatus hlocation hheading =>
      rw [route_of_location hstatus hlocation, hheading]
  | dropped hdropped hlocation hheading =>
      rw [route_of_location hdropped.mem hlocation, hheading]
      exact congrArg Route.onward ((Request.redirected_eq _ _ _).trans (if_pos hdropped))
  | again hstatus hdropped hlocation hheading =>
      rw [route_of_location hstatus hlocation, hheading]
      exact congrArg Route.onward ((Request.redirected_eq _ _ _).trans (if_neg hdropped))

theorem leads_iff {route : Route} :
  response.Leads request route ↔ response.route request = route
  := by
  constructor
  · apply Leads.route_eq
  · rintro rfl
    apply leads_route

/-- A response with status 200 sends the client nowhere. -/
theorem route_of_status (h : response.status = 200) :
  response.route request = .arrived
  := by
  apply route_of_not_mem
  rw [h]
  decide

/-- Where a response leads does not depend on the cookies of the request. -/
theorem route_cookie (response : Response) (request : Request) (cookie : Option String) :
  response.route { request with cookie }
    = match response.route request with
      | .arrived => .arrived
      | .astray => .astray
      | .onward next => .onward { next with cookie }
  := by
  have hredirected (url : Url) : Request.redirected { request with cookie } response.status url
      = { request.redirected response.status url with cookie } := by
    simp only [Request.redirected]
    split <;> rfl
  simp only [Response.route, hredirected]
  split
  · cases response.location.map request.url.heading with
    | none => rfl
    | some heading => cases heading <;> rfl
  · rfl

end Response

end FeedClient.Http
