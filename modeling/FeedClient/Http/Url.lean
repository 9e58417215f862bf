import FeedClient.Http.Form
import FeedClient.Number.Digit
import FeedClient.Text.Cut

/-!
# Addresses

An address names a server, a path on it and maybe a query. What comes after a number sign is not
part of what is asked for. A server is asked for the target: the path, and the query behind a
question mark.

Addresses are read as browsers read them. The scheme may be in upper case; any number of slashes
may follow it, and backslashes are slashes, too; blanks around the address and line breaks and tabs
in it do not count; and the dots in a path that lead up or nowhere are followed when it is read.
What names the server is taken as it is written. Whether it names a host and the number of a
service on it, is left to the connection: nothing answers at a name that is none.
-/

namespace FeedClient

/-- The address of something on a server. -/
structure Url where
  /-- Whether the connection is encrypted. -/
  secure : Bool
  /-- The host, with the number of a service on it if that is not the usual one. -/
  authority : String
  path : List Char
  query : Option (List Char)
deriving DecidableEq, Repr

namespace Url

/-! ### Characters -/

/-- Whether a character may stand around an address without being part of it. -/
def isPadding (c : Char) : Bool :=
  c ≤ ' '

/-- Whether a character may stand in an address without being part of it. -/
def isBreak (c : Char) : Bool :=
  c = '\t' || c = '\n' || c = '\r'

/-- A text without what is not part of an address. -/
def tidy (s : List Char) : List Char :=
  (((s.filter fun c => !isBreak c).dropWhile isPadding).reverse.dropWhile isPadding).reverse

def isSlash (c : Char) : Bool :=
  c = '/' || c = '\\'

/-- Whether a character ends the name of the server. -/
def endsAuthority (c : Char) : Bool :=
  isSlash c || c = '?' || c = '#'

/-- Whether a byte may stand in a path or a query as it is. -/
def isAllowed (inQuery : Bool) (b : UInt8) : Bool :=
  0x21 ≤ b && b ≤ 0x7E && b != 0x22 && b != 0x3C && b != 0x3E
    && (inQuery && b != 0x27 || !inQuery && b != 0x5E && b != 0x60 && b != 0x7B && b != 0x7D)

/-- A text with what may not stand in an address written in percent signs and digits. -/
def escape (inQuery : Bool) (s : List Char) : List Char :=
  (Charset.encode s).flatMap fun b =>
    if isAllowed inQuery b then [Char.ofNat b.toNat] else Form.percent b

/-! ### Paths -/

/-- Whether a segment of a path leads nowhere. -/
def isHere (segment : List Char) : Bool :=
  [".", "%2e"].any fun dot => segment.map Char.toLower = dot.toList

/-- Whether a segment of a path leads up. -/
def isUp (segment : List Char) : Bool :=
  ["..", ".%2e", "%2e.", "%2e%2e"].any fun dots => segment.map Char.toLower = dots.toList

/-- Goes on by a segment; the segments that have led here stand with the last one first. -/
def climb (behind : List (List Char)) (segment : List Char) : List (List Char) :=
  if isUp segment then behind.tail else if isHere segment then behind else segment :: behind

/-- Segments with an empty one at their end if the last of them leads up or nowhere. -/
def opened (segments : List (List Char)) : List (List Char) :=
  if segments.getLast?.any fun segment => isUp segment || isHere segment then segments ++ [[]]
  else segments

/-- The segments of a path as it is written. -/
def segments (s : List Char) : List (List Char) :=
  (Form.cutAll '/' (s.map fun c => if c = '\\' then '/' else c)).drop 1

/-- The path along segments. -/
def pathOf (segments : List (List Char)) : List Char :=
  segments.flatMap fun segment => '/' :: escape false segment

/-- The path that is written as a text, which is empty or begins with a slash. -/
def walk (s : List Char) : List Char :=
  if s.isEmpty then ['/'] else pathOf ((opened (segments s)).foldl climb []).reverse

/-! ### Reading -/

/-- What stands before the question mark of a text, if there is one, and the query behind it. -/
def cutQuery (s : List Char) : List Char × Option (List Char) :=
  (s.takeWhile (· ≠ '?'), match s.dropWhile (· ≠ '?') with
    | [] => none
    | _ :: query => some (escape true query))

/-- Reads what begins with the name of the server. -/
def ofAuthority (secure : Bool) (s : List Char) : Url :=
  let (path, query) := cutQuery ((s.dropWhile fun c => !endsAuthority c).takeWhile (· ≠ '#'))
  { secure
    authority := String.ofList (s.takeWhile fun c => !endsAuthority c)
    path := walk path
    query }

/-- Reads what comes after the scheme. -/
def ofRest? (secure : Bool) (s : List Char) : Option Url :=
  match s.dropWhile isSlash with
  | [] => none
  | c :: rest =>
    if endsAuthority c || isPadding c then none else some (ofAuthority secure (c :: rest))

/-- The schemes of addresses, and whether the connection is encrypted. -/
def schemes : List (List Char × Bool) :=
  [("http:".toList, false), ("https:".toList, true)]

/-- Cuts the scheme off a text that begins with one. -/
def cutScheme? (s : List Char) : Option (Bool × List Char) :=
  schemes.findSome? fun (scheme, secure) =>
    if (s.take scheme.length).map Char.toLower = scheme then some (secure, s.drop scheme.length)
    else none

/-- Reads a text as an address. -/
def parse? (text : String) : Option Url :=
  (cutScheme? (tidy text.toList)).bind fun (secure, rest) => ofRest? secure rest

/-! ### References -/

/-- What a text says about where to go from an address. -/
inductive Heading
  /-- It says nothing that can be understood. -/
  | nowhere
  /-- It leads to something that is not asked for in this way. -/
  | abroad
  | toward (url : Url)
deriving DecidableEq, Repr

def Heading.ofUrl? : Option Url → Heading
  | none => nowhere
  | some url => toward url

/-- Whether the name of another scheme stands at the start of a text. -/
def hasScheme (s : List Char) : Bool :=
  let name := s.takeWhile (· ≠ ':')
  name.length < s.length && name.head?.any Char.isAlpha
    && name.all fun c => c.isAlphanum || c = '+' || c = '-' || c = '.'

/-- Whether a text begins with the name of a server, after slashes. -/
def startsServer (s : List Char) : Bool :=
  match s with
  | c :: d :: _ => isSlash c && isSlash d
  | _ => false

/-- What stands in a path up to its last slash. -/
def upToSlash (path : List Char) : List Char :=
  (path.reverse.dropWhile (· ≠ '/')).reverse

/-- Reads what is relative to an address. -/
def relative? (url : Url) (s : List Char) : Option Url :=
  if startsServer s then ofRest? url.secure s
  else
    let (path, query) := cutQuery (s.takeWhile (· ≠ '#'))
    match path with
    | [] => some { url with query := query.or url.query }
    | c :: _ =>
      let path := walk (if isSlash c then path else upToSlash url.path ++ path)
      some { url with path, query }

/-- Where a text leads from an address. -/
def heading (url : Url) (text : String) : Heading :=
  let s := tidy text.toList
  match cutScheme? s with
  | some (secure, rest) =>
    .ofUrl? (if secure = url.secure && !startsServer rest then url.relative? rest
      else ofRest? secure rest)
  | none => if hasScheme s then .abroad else .ofUrl? (url.relative? s)

/-! ### What is asked for -/

/-- The address with more parameters. -/
def addQuery (url : Url) (parameters : List (String × String)) : Url :=
  match parameters, url.query with
  | [], _ => url
  | _, none | _, some [] => { url with query := some (Form.encode parameters) }
  | _, some query => { url with query := some (query ++ '&' :: Form.encode parameters) }

/-- What the server is asked for. -/
def target (url : Url) : String :=
  String.ofList (url.path ++ (url.query.map ('?' :: ·)).getD [])

/-- The host in lower case, and the number of the service on it if there is one. -/
def service (url : Url) : String × Option Nat :=
  let authority := url.authority.toList
  let name := ((Text.cutLast? '@' authority).map Prod.snd).getD authority
  let (host, number) := match Text.cutLast? ':' name with
    | some (host, digits) =>
      if !digits.isEmpty && digits.all isDigit then (host, some (natOfDigits digits))
      else (name, none)
    | none => (name, none)
  (String.ofList (host.map Char.toLower), number)

end Url

end FeedClient
