import FeedClient.Controller.Action
import FeedClient.Http.Cookie
import FeedClient.Http.Message
import FeedClient.Http.Reason
import FeedClient.Wire.Record

/-!
# The gateway

The gateway turns calls into requests to the server. A call succeeds when the response has status
200. A response may send the client elsewhere; it is followed, up to ten times, and the last response
is the one that counts. A server under load may answer with a page that asks whether a robot is
calling; the gateway answers that page once, and sends the request again. The server takes the answer
as an occasion to set a cookie, which spares later requests the question.
-/

namespace FeedClient

open Http (Request Response Jar Exchange)

/-- The server that is called. -/
structure Gateway where
  /-- The address that all paths are appended to. -/
  base : String
deriving DecidableEq, Repr

namespace Gateway

/-- The gateway to an address; slashes at its end are left out. -/
def ofAddress (address : String) : Gateway :=
  ⟨String.ofList (address.toList.reverse.dropWhile (· = '/')).reverse⟩

/-- Why a call failed. -/
inductive Error
  /-- There was no response, or the address is none. -/
  | transport
  /-- The response has another status than 200. -/
  | status (code : Nat) (body : String)
  /-- The server asked again whether a robot is calling. -/
  | botCheck
  /-- The body of the response is no feed. -/
  | malformed (fault : Json.Fault)
deriving DecidableEq, Repr

/-- What is said about a response with another status than 200. -/
def statusMessage (code : Nat) (body : String) : String :=
  "unexpected status " ++ Http.statusText code ++ ": " ++ body

/-- What is said about a server that asks again whether a robot is calling. -/
def botCheckMessage : String :=
  "server kept answering with its bot check page"

/-- What the server said about a mutation that it carried out. -/
structure Ack where
  status : Option Wire.Status
  postKey : Option String
  body : String
deriving DecidableEq, Repr

/-- A call under way: it keeps cookies, and it may fail. -/
abbrev Calling : Type → Type :=
  ExceptT Error (StateT Jar Exchange)

/-- What the button of the page says that asks whether a robot is calling. -/
def botCheckMark : String :=
  "ImNotBot"

/-- Whether a body is the page that asks whether a robot is calling. -/
def isBotCheck (body : String) : Bool :=
  "<html".toList.isPrefixOf (Text.trimLeft body.toList)
    && Text.occurs botCheckMark.toList body.toList

/-- Sends a request with the cookies that are kept for its address. -/
def transmit (request : Request) : Calling Response := do
  let jar ← getThe Jar
  let response : Option Response ← ExceptT.lift (StateT.lift
    (Dialogue.question { request with cookie := jar.header? request.url }))
  match response with
  | none => throw .transport
  | some response =>
    set (jar.keep request.url response.cookies)
    return response

/-- Sends a request, and follows the responses that send the client elsewhere, up to so many of
them. -/
def follow : Nat → Request → Calling Response
  | 0, request => do
    let response ← transmit request
    match response.route request with
    | .arrived => return response
    | .astray | .onward _ => throw .transport
  | limit + 1, request => do
    let response ← transmit request
    match response.route request with
    | .arrived => return response
    | .astray => throw .transport
    | .onward next => follow limit next

/-- Sends a request, wherever that leads. -/
def exchange (request : Request) : Calling Response :=
  follow Http.redirectLimit request

/-- Sends a request that has to be answered with status 200, and gives the body. -/
def read (request : Request) : Calling String := do
  let response ← exchange request
  if response.status = 200 then return response.text
  else throw (.status response.status response.text)

/-- A request to a path of the server; none when the address is none. -/
def request? (g : Gateway) (method : Http.Method) (path : String)
    (parameters : List (String × String)) (body : String) : Option Request :=
  (Url.parse? (g.base ++ path)).map fun url =>
    { method, url := url.addQuery parameters, body }

/-- Answers the question whether a robot is calling. Whatever is said to the answer does not
matter. -/
def answerBotCheck (g : Gateway) : Calling Unit := do
  match g.request? .post "/" [] "" with
  | none => throw .transport
  | some request => discard (exchange request)

/-- Sends a request; if the server asks whether a robot is calling, answers that and sends it
again. -/
def send (g : Gateway) (request : Option Request) : Calling String := do
  match request with
  | none => throw .transport
  | some request =>
    let body ← read request
    if !isBotCheck body then return body
    g.answerBotCheck
    let body ← read request
    if isBotCheck body then throw .botCheck
    return body

/-- The request for a mutation. -/
def ofMutation (g : Gateway) : Mutation → Option Request
  | .createUser user => g.request? .post "/users" [] (Wire.encode (⟨user⟩ : Wire.NewUser))
  | .createPost author contents =>
    g.request? .post "/posts" [] (Wire.encode (⟨author, contents⟩ : Wire.NewPost))
  | .deletePost user key =>
    g.request? .delete "/posts" [("UserID", user), ("PostKey", key.text)] ""
  | .subscribe user target =>
    g.request? .post "/subscriptions" [("UserID", user), ("TargetUserID", target)] ""
  | .unsubscribe user target =>
    g.request? .delete "/subscriptions" [("UserID", user), ("TargetUserID", target)] ""

/-- The request for a feed. -/
def ofEndpoint (g : Gateway) (endpoint : Endpoint) : Option Request :=
  g.request? .get endpoint.path [("UserID", endpoint.user)] ""

/-- What a body says about a mutation. One that cannot be read says nothing. -/
def Ack.ofBody (body : String) : Ack :=
  match Wire.decode Wire.MutationReply body with
  | .ok reply => ⟨reply.status, reply.postKey, body⟩
  | .error _ => ⟨none, none, body⟩

/-- Has the server carry out a mutation. -/
def mutate (g : Gateway) (mutation : Mutation) : Calling Ack := do
  return Ack.ofBody (← g.send (g.ofMutation mutation))

/-- Fetches a feed. -/
def fetch (g : Gateway) (endpoint : Endpoint) : Calling (List Post) := do
  let body ← g.send (g.ofEndpoint endpoint)
  match Wire.decode Wire.FeedReply body with
  | .ok reply => return reply.toPosts
  | .error fault => throw (.malformed fault)

/-- Carries out a call of the controller, which is told only whether it succeeded. -/
def answer (g : Gateway) : Call → StateT Jar Exchange Reply
  | .mutate mutation => do
    match ← (g.mutate mutation).run with
    | .ok _ => return .succeeded []
    | .error _ => return .failed
  | .fetch endpoint => do
    match ← (g.fetch endpoint).run with
    | .ok posts => return .succeeded posts
    | .error _ => return .failed

end Gateway

end FeedClient
