import FeedClient.Json.Reader
import FeedClient.Json.Writer
import FeedClient.Post
import FeedClient.Wire.Status

/-!
# Records on the wire

The bodies of requests and replies are JSON records. A record type says how its values are written,
which shape a text has to have, and which value a text of that shape stands for.
-/

namespace FeedClient.Wire

open Json (Shape Value)

/-- A type of records that are written and read as JSON. -/
class Record (α : Type) where
  shape : Shape
  ofValue? : Value → Option α
  write : α → List Char

/-- Reads a text as a record. -/
def decode (α : Type) [Record α] (body : String) : Except Json.Fault α := do
  let v ← Json.read (Record.shape α) body.toList
  match Record.ofValue? v with
  | some a => .ok a
  | none => .error .mismatched

/-- Writes a record. -/
def encode {α : Type} [Record α] (a : α) : String :=
  String.ofList (Record.write a)

/-- A member with a text. -/
def textMember (name s : String) : String × List Char :=
  (name, Json.quote s.toList)

/-- A status that may be absent; an absent one is not written. -/
def statusMember : Option Status → List (String × List Char)
  | some status => [("Status", Json.writeInt status.code.toInt)]
  | none => []

/-- The status that an optional integer stands for. -/
def status? : Value → Option (Option Status)
  | .nothing => some none
  | .integer code => some (some (Status.ofCode code))
  | _ => none

/-- The text that an optional text stands for. -/
def text? : Value → Option (Option String)
  | .nothing => some none
  | .text s => some (some s)
  | _ => none

instance : Record Post where
  shape := .record [("UserID", .text), ("Contents", .text), ("Posted", .text)]
  ofValue?
    | .record [(_, .text author), (_, .text contents), (_, .text posted)] =>
      some ⟨author, contents, posted⟩
    | _ => none
  write post :=
    Json.writeObject [textMember "UserID" post.author, textMember "Contents" post.contents,
      textMember "Posted" post.posted]

/-- A feed as the server sends it. The server may write an empty feed as null. -/
structure FeedReply where
  posts : Option (List Post)
  status : Option Status
deriving DecidableEq, Repr

/-- The posts of a feed, in the order of the server. -/
def FeedReply.toPosts (reply : FeedReply) : List Post :=
  reply.posts.getD []

/-- The posts that an optional list stands for. -/
def posts? : Value → Option (Option (List Post))
  | .nothing => some none
  | .list items => (items.mapM Record.ofValue?).map some
  | _ => none

instance : Record FeedReply where
  shape :=
    .record [("Posts", .optional (.list (Record.shape Post))), ("Status", .optional .integer)]
  ofValue?
    | .record [(_, posts), (_, status)] => do
      return ⟨← posts? posts, ← status? status⟩
    | _ => none
  write reply :=
    let posts := match reply.posts with
      | some posts => Json.writeArray (posts.map Record.write)
      | none => Json.writeNull
    Json.writeObject (("Posts", posts) :: statusMember reply.status)

/-- The reply to a mutation. Only a new post has a key. -/
structure MutationReply where
  postKey : Option String
  status : Option Status
deriving DecidableEq, Repr

instance : Record MutationReply where
  shape := .record [("PostKey", .optional .text), ("Status", .optional .integer)]
  ofValue?
    | .record [(_, postKey), (_, status)] => do
      return ⟨← text? postKey, ← status? status⟩
    | _ => none
  write reply :=
    Json.writeObject
      (reply.postKey.toList.map (textMember "PostKey") ++ statusMember reply.status)

/-- The body of a request for a new post. -/
structure NewPost where
  user : String
  contents : String
deriving DecidableEq, Repr

instance : Record NewPost where
  shape := .record [("UserID", .text), ("Contents", .text)]
  ofValue?
    | .record [(_, .text user), (_, .text contents)] => some ⟨user, contents⟩
    | _ => none
  write args :=
    Json.writeObject [textMember "UserID" args.user, textMember "Contents" args.contents]

/-- The body of a request for a new user. -/
structure NewUser where
  user : String
deriving DecidableEq, Repr

instance : Record NewUser where
  shape := .record [("UserID", .text)]
  ofValue?
    | .record [(_, .text user)] => some ⟨user⟩
    | _ => none
  write args := Json.writeObject [textMember "UserID" args.user]

end FeedClient.Wire
