import FeedClient.Post
import FeedClient.Text.Cut

/-!
# Post keys

A post is addressed by the text `<author>:post_<posted>`. Every key holds the mark `:post_`, and its
first occurrence separates the author from the time. So a key gives its author and time back
exactly when the author does not hold the mark.
-/

namespace FeedClient

/-- Separates the author from the time in a post key. -/
def PostKey.mark : String :=
  ":post_"

/-- The address of a post: a text that holds the mark. -/
structure PostKey where
  text : String
  marked : Text.occurs PostKey.mark.toList text.toList = true
deriving DecidableEq, Repr

namespace PostKey

/-- The text that is no post key. -/
structure Invalid where
  raw : String
deriving DecidableEq, Repr

def Invalid.message (e : Invalid) : String :=
  "invalid post key '" ++ e.raw ++ "'"

/-- The key of the post that `author` published at the time `posted`. -/
def of (author posted : String) : PostKey where
  text := author ++ mark ++ posted
  marked := by
    rw [String.toList_append, String.toList_append]
    exact Text.occurs_append _ _ _

/-- Reads a text as a post key; it has to hold the mark. -/
def parse (raw : String) : Except Invalid PostKey :=
  if h : Text.occurs mark.toList raw.toList = true then .ok ⟨raw, h⟩ else .error ⟨raw⟩

/-- The parts of a key before and after the first mark. -/
def cut (key : PostKey) : List Char × List Char :=
  (Text.cutFirst? mark.toList key.text.toList).get key.marked

/-- The author that a key names. -/
def author (key : PostKey) : String :=
  String.ofList key.cut.1

/-- The time that a key names. -/
def posted (key : PostKey) : String :=
  String.ofList key.cut.2

@[ext] theorem ext {key key' : PostKey} (h : key.text = key'.text) : key = key' := by
  cases key
  cases key'
  congr

end PostKey

/-- The key of a post. -/
def Post.key (post : Post) : PostKey :=
  PostKey.of post.author post.posted

end FeedClient
