import FeedClient.Http.Message
import FeedClient.Number.Digit
import FeedClient.Text.Blank
import FeedClient.Text.Cut

/-!
# Messages on the connection

How requests and responses are written down on a connection that carries one of each. The head of a
message is a first line and fields, one on a line, and an empty line ends it. The body of a response
ends where its fields say, or else with the connection.
-/

namespace FeedClient.Http

/-- The end of a line. -/
def newline : String :=
  "\r\n"

/-- A field of the head. -/
def field (name value : String) : String :=
  name ++ ": " ++ value ++ newline

/-- A request as it is sent. -/
def Request.bytes (r : Request) : List UInt8 :=
  let body := Charset.encode r.body.toList
  let head := r.method.name ++ " " ++ r.url.target ++ " HTTP/1.1" ++ newline
    ++ field "Host" r.url.authority
    ++ field "Accept" "*/*"
    ++ (r.contentType.map (field "Content-Type")).getD ""
    ++ (r.cookie.map (field "Cookie")).getD ""
    ++ field "Content-Length" (toString body.length)
    ++ field "Connection" "close"
    ++ newline
  Charset.encode head.toList ++ body

namespace Response

/-- The lines of the head, and the body as it was sent. The first line that is read is `line`, its
last byte first. -/
def cutHead (line : List UInt8) : List UInt8 → Option (List (List UInt8) × List UInt8)
  | [] => none
  | 0x0D :: 0x0A :: rest =>
    if line.isEmpty then some ([], rest)
    else (cutHead [] rest).map fun (lines, body) => (line.reverse :: lines, body)
  | b :: rest => cutHead (b :: line) rest

/-- A field: its name in lower case, and its value. -/
def field? (line : List UInt8) : Option (String × String) :=
  (Text.cutFirst? [':'] (Charset.utf8 line)).map fun (name, value) =>
    ((String.ofList (Text.trim name)).toLower, String.ofList (Text.trim value))

/-- The status in the first line. -/
def statusOf? (line : List UInt8) : Option Nat := do
  let (_, rest) ← Text.cutFirst? [' '] (Charset.utf8 line)
  let digits := rest.take 3
  if digits.length = 3 && digits.all isDigit then some (natOfDigits digits) else none

/-- The number that hexadecimal digits make up, up to the first other byte. -/
def hexNumber (n : Nat) : List UInt8 → Nat
  | [] => n
  | b :: rest =>
    match Json.hexValue? (Char.ofNat b.toNat) with
    | some d => hexNumber (n * 16 + d) rest
    | none => n

/-- Puts the chunks of a body together. Every chunk has its length before it, and an empty one is
the last. -/
def joinChunks : Nat → List UInt8 → Option (List UInt8)
  | 0, _ => none
  | steps + 1, s =>
    let line := s.takeWhile (· != 0x0A)
    let rest := s.drop (line.length + 1)
    let size := hexNumber 0 line
    if line.length = s.length then none
    else if size = 0 then some []
    else if rest.length < size then none
    else (joinChunks steps (rest.drop (size + 2))).map (rest.take size ++ ·)

/-- The body that the fields of the head tell. -/
def bodyOf? (fields : List (String × String)) (sent : List UInt8) : Option (List UInt8) :=
  match fields.lookup "transfer-encoding", fields.lookup "content-length" with
  | some coding, _ =>
    if coding.toLower == "chunked" then joinChunks (sent.length + 1) sent else some sent
  | none, some length =>
    match unsigned? length.toList with
    | some n => if n.toNat ≤ sent.length then some (sent.take n.toNat) else none
    | none => none
  | none, none => some sent

/-- The name of the encoding that the kind of a body tells, in lower case. -/
def encodingOf? (kind : String) : Option String :=
  (Form.cutAll ';' kind.toList).tail.findSome? fun part => do
    let (name, value) ← Text.cutFirst? ['='] part
    if (String.ofList (Text.trim name)).toLower = "charset" then
      some (String.ofList ((Text.trim value).filter (· ≠ '"'))).toLower
    else none

/-- Reads all that was sent as a response; none when it is cut off. -/
def read? (bytes : List UInt8) : Option Response := do
  let (lines, sent) ← cutHead [] bytes
  let status ← statusOf? (← lines.head?)
  let fields := lines.tail.filterMap field?
  let body ← if status = 204 || status = 304 then some [] else bodyOf? fields sent
  let cookies := (fields.filter fun (name, _) => name == "set-cookie").map Prod.snd
  let encoding := (fields.lookup "content-type").bind encodingOf?
  some {
    status, cookies, body
    location := fields.lookup "location"
    text := String.ofList (Charset.decodeAs (encoding.getD "utf-8") body) }

end Response

/-- The host of an address and the number of the service on it. -/
def service (url : Url) : String × Nat :=
  (url.service.1, url.service.2.getD (if url.secure then 443 else 80))

end FeedClient.Http
