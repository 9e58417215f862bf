import FeedClient.Dialogue
import FeedClient.Http.Charset
import FeedClient.Http.Url

/-!
# Requests and responses

Requests go to the server, and a response comes back or the connection ends without one. A response
may send the client elsewhere: then what it has asked for is asked for again there. Some of these
responses have it looked at there and not asked for, so that the request is one without a body.
-/

namespace FeedClient.Http

/-- What a request does. -/
inductive Method
  | get
  | post
  | delete
deriving DecidableEq, Repr

def Method.name : Method → String
  | get => "GET"
  | post => "POST"
  | delete => "DELETE"

/-- What kind of body a request says it has; those that never had a body say so too. -/
def contentType : String :=
  "application/json"

/-- A message to the server. -/
structure Request where
  method : Method
  url : Url
  cookie : Option String := none
  contentType : Option String := some contentType
  body : String := ""
deriving DecidableEq, Repr

/-- A message from the server. -/
structure Response where
  status : Nat
  /-- The cookies that the server asks the client to keep. -/
  cookies : List String := []
  /-- Where the server sends the client. -/
  location : Option String := none
  body : List UInt8 := []
  /-- The body as a text, in the encoding that the response tells; that is UTF-8 as a rule. -/
  text : String := String.ofList (Charset.decode body)
deriving DecidableEq, Repr

/-! ### Redirects -/

/-- What comes after the response to a request. -/
inductive Route
  /-- Nothing: this is the response. -/
  | arrived
  /-- The client is sent where it cannot go. -/
  | astray
  /-- The client is sent elsewhere with this request. -/
  | onward (request : Request)
deriving DecidableEq, Repr

/-- The request, when its response with a status has sent the client to an address. -/
def Request.redirected (request : Request) (status : Nat) (url : Url) : Request :=
  if status = 303 || request.method = .post && (status = 301 || status = 302) then
    { request with method := .get, url, contentType := none, body := "" }
  else { request with url }

/-- What comes after a request and its response. -/
def Response.route (response : Response) (request : Request) : Route :=
  if [301, 302, 303, 307, 308].contains response.status then
    match response.location.map request.url.heading with
    | none | some .nowhere => .arrived
    | some .abroad => .astray
    | some (.toward url) => .onward (request.redirected response.status url)
  else .arrived

/-- How often a request may be sent elsewhere. -/
def redirectLimit : Nat :=
  10

/-- A computation that sends requests; without a response, the answer is none. -/
abbrev Exchange : Type → Type :=
  Dialogue fun (_ : Request) => Option Response

end FeedClient.Http
