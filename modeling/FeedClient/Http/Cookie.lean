import FeedClient.Http.Url
import FeedClient.Text.Blank

/-!
# Cookies

The server asks the client to keep a value under a name, and the client sends what it keeps with
later requests to the same host and to paths beside or below the one of the request. The server may
ask for other hosts and paths than these, or to have a value back on encrypted connections only, or
to have it forgotten. A new value takes the place of the old one of its name, host and path.

Time does not pass here. So the time for which a value is to be kept counts only if there is none
left, and a date on which it is to be forgotten does not count.
-/

namespace FeedClient.Http

/-- A value that the server wants to get back. -/
structure Cookie where
  name : String
  value : String
  host : String
  /-- Whether it is for the hosts below that one, too. -/
  spread : Bool
  /-- The path that it is for, with all that lies below it. -/
  path : List Char
  /-- Whether it is for encrypted connections only. -/
  secure : Bool
deriving DecidableEq, Repr

namespace Cookie

/-- Reads an attribute: its name in lower case, and its value. -/
def readAttribute (s : List Char) : String × List Char :=
  let (name, value) := (Text.cutFirst? ['='] s).getD (s, [])
  (String.ofList ((Text.trim name).map Char.toLower), Text.trim value)

/-- The path of a cookie that asks for none: the one that the path of the request lies in. -/
def usualPath (path : List Char) : List Char :=
  match Text.cutLast? '/' path with
  | some (c :: rest, _) => c :: rest
  | _ => ['/']

/-- Whether a path is another one or lies below it. -/
def liesIn (path : List Char) (other : List Char) : Bool :=
  path = other || other.isPrefixOf path
    && (other.getLast? = some '/' || (path.drop other.length).head? = some '/')

/-- Whether a host is another one or lies below it. -/
def isBelow (host other : String) : Bool :=
  host = other || ('.' :: other.toList).isSuffixOf host.toList

/-- Whether a time in seconds is up. -/
def isUp (seconds : List Char) : Bool :=
  match seconds with
  | '-' :: digits => !digits.isEmpty && digits.all isDigit
  | digits => !digits.isEmpty && digits.all (· = '0')

/-- Reads what the server asks for in the response from an address: a cookie, and whether it is to
be forgotten. It is a name, an equals sign and a value, and then attributes between semicolons. -/
def parse? (url : Url) (s : String) : Option (Cookie × Bool) := do
  let parts := Form.cutAll ';' s.toList
  let (name, value) ← Text.cutFirst? ['='] (← parts.head?)
  let attributes := (parts.tail.map readAttribute).reverse
  let host := url.service.1
  let domain := ((attributes.lookup "domain").map fun s =>
    String.ofList ((if s.head? = some '.' then s.tail else s).map Char.toLower)).filter (· ≠ "")
  let path := (attributes.lookup "path").filter (·.head? = some '/')
  let cookie : Cookie :=
    { name := String.ofList (Text.trim name)
      value := String.ofList (Text.trim value)
      host := domain.getD host
      spread := domain.isSome
      path := path.getD (usualPath url.path)
      secure := (attributes.lookup "secure").isSome }
  if cookie.name = "" || !isBelow host cookie.host then none
  else some (cookie, (attributes.lookup "max-age").any isUp)

def text (c : Cookie) : String :=
  c.name ++ "=" ++ c.value

/-- Whether one cookie takes the place of another. -/
def replaces (c d : Cookie) : Bool :=
  c.name = d.name && c.host = d.host && c.path = d.path

/-- Whether a cookie is sent to an address. -/
def isFor (c : Cookie) (url : Url) : Bool :=
  (if c.spread then isBelow url.service.1 c.host else url.service.1 = c.host)
    && liesIn url.path c.path && (!c.secure || url.secure)

end Cookie

/-- The cookies that the client keeps. -/
abbrev Jar : Type :=
  List Cookie

namespace Jar

/-- Keeps a cookie. -/
def put (cookie : Cookie) : Jar → Jar
  | [] => [cookie]
  | c :: rest => if cookie.replaces c then cookie :: rest else c :: put cookie rest

/-- Does what the server asks for with a cookie. -/
def keepOne (jar : Jar) : Cookie × Bool → Jar
  | (cookie, false) => jar.put cookie
  | (cookie, true) => jar.filter fun c => !cookie.replaces c

/-- Keeps what a response from an address asks for. What is no cookie is left alone. -/
def keep (jar : Jar) (url : Url) (cookies : List String) : Jar :=
  (cookies.filterMap (Cookie.parse? url)).foldl keepOne jar

/-- What is sent with a request to an address; nothing when nothing is kept for it. -/
def header? (jar : Jar) (url : Url) : Option String :=
  match jar.filter (·.isFor url) with
  | [] => none
  | cookies => some ("; ".intercalate (cookies.map Cookie.text))

end Jar

end FeedClient.Http
