import FeedClient.Post.Key

/-!
# Controls of a post

Every post on display carries three controls: subscribe to its author, unsubscribe from its author,
and delete it. The id of a control is the key of the post, a point and one letter for the kind. An
id leads back to the post it belongs to: taking the letter off leaves the key.
-/

namespace FeedClient

/-- What a control of a post does. -/
inductive ControlKind
  | subscribe
  | unsubscribe
  | delete
deriving DecidableEq, Repr

namespace ControlKind

/-- The kinds in the order in which a post shows them. -/
def all : List ControlKind :=
  [subscribe, unsubscribe, delete]

/-- The letter that ends the ids of this kind. -/
def letter : ControlKind → Char
  | subscribe => 'a'
  | unsubscribe => 'b'
  | delete => 'c'

/-- What the kind is called on the terminal. -/
def label : ControlKind → String
  | subscribe => "subscribe"
  | unsubscribe => "unsubscribe"
  | delete => "delete"

end ControlKind

/-- A control of a post. -/
structure Control where
  kind : ControlKind
  id : String
deriving DecidableEq, Repr

namespace Control

/-- The control of the given kind on the post with the given key. -/
def of (key : PostKey) (kind : ControlKind) : Control :=
  ⟨kind, key.text ++ "." ++ String.ofList [kind.letter]⟩

end Control

namespace Tag

/-- Whether a text is the letter of some kind of control. -/
def isLetter (s : List Char) : Bool :=
  ControlKind.all.any fun kind => [kind.letter] == s

/-- Takes the end of a control id off a tag. A tag that is no key followed by a point and a letter
of a control is left as it is. -/
def stem (tag : String) : String :=
  match Text.cutLast? '.' tag.toList with
  | some (key, letter) =>
    if Text.occurs PostKey.mark.toList key && isLetter letter then String.ofList key else tag
  | none => tag

/-- The author that a tag points at. A tag without a post key is a user's name already. -/
def author (tag : String) : String :=
  match Text.cutFirst? PostKey.mark.toList (stem tag).toList with
  | some (author, _) => String.ofList author
  | none => stem tag

end Tag

end FeedClient
