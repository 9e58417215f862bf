import FeedClient.Post.Control

/-!
# The feed on display

A feed shows posts in order, each under a render id of its own. Render ids count up over the life
of the feed and are never given twice, so a post that is shown again is a new view.
-/

namespace FeedClient

/-- A post on display. -/
structure PostView where
  renderId : Nat
  post : Post
  key : PostKey
  controls : List Control
deriving DecidableEq, Repr

namespace PostView

/-- The view of a post under a render id. -/
def of (renderId : Nat) (post : Post) : PostView :=
  ⟨renderId, post, post.key, ControlKind.all.map (Control.of post.key)⟩

/-- The control of the given kind. -/
def control? (view : PostView) (kind : ControlKind) : Option Control :=
  view.controls.find? fun control => control.kind == kind

end PostView

/-- The posts on display, and how many views have been rendered so far. The count does not overflow:
it is taken for granted that fewer than 2 ^ 64 views are rendered. -/
structure Feed where
  views : List PostView
  rendered : Nat
deriving DecidableEq, Repr

namespace Feed

/-- A feed that has never shown anything. -/
def empty : Feed :=
  ⟨[], 0⟩

/-- The posts on display, in order. -/
def posts (feed : Feed) : List Post :=
  feed.views.map PostView.post

/-- Takes every post off display. -/
def clear (feed : Feed) : Feed :=
  { feed with views := [] }

/-- Shows a post after all others. -/
def append (feed : Feed) (post : Post) : Feed :=
  ⟨feed.views ++ [PostView.of (feed.rendered + 1) post], feed.rendered + 1⟩

/-- Shows a post before all others. -/
def prepend (feed : Feed) (post : Post) : Feed :=
  ⟨PostView.of (feed.rendered + 1) post :: feed.views, feed.rendered + 1⟩

/-- Shows the given posts, in their order, in place of those on display. -/
def replaceAll (feed : Feed) (posts : List Post) : Feed :=
  posts.foldl append feed.clear

/-- The first view with a control of the given id, and the first such control of it. -/
def findControl? (feed : Feed) (id : String) : Option (PostView × Control) :=
  feed.views.findSome? fun view =>
    (view.controls.find? fun control => control.id == id).map fun control => (view, control)

@[simp] theorem posts_empty : empty.posts = [] := rfl

@[simp] theorem posts_clear (feed : Feed) : feed.clear.posts = [] := rfl

@[simp] theorem posts_append (feed : Feed) (post : Post) :
    (feed.append post).posts = feed.posts ++ [post]
  := by
  simp [append, posts, PostView.of]

@[simp] theorem posts_prepend (feed : Feed) (post : Post) :
    (feed.prepend post).posts = post :: feed.posts
  := rfl

theorem posts_foldl_append (feed : Feed) (posts : List Post) :
    (posts.foldl append feed).posts = feed.posts ++ posts
  := by
  induction posts generalizing feed with
  | nil => simp
  | cons post rest ih => rw [List.foldl_cons, ih, posts_append, List.append_assoc]; rfl

/-- What replaces a feed is all it shows. -/
@[simp] theorem posts_replaceAll (feed : Feed) (posts : List Post) :
    (feed.replaceAll posts).posts = posts
  := by
  rw [replaceAll, posts_foldl_append, posts_clear, List.nil_append]

end Feed

end FeedClient
