import FeedClient.Feed

/-!
# The views of a feed

Whatever is done to a feed, every view on display is the view of its post: it carries the key of the
post and the three controls of this key.
-/

namespace FeedClient

/-- A view with the key and the controls of its post. -/
def PostView.Genuine (view : PostView) : Prop :=
  view = of view.renderId view.post

theorem PostView.genuine_of (renderId : Nat) (post : Post) :
  (of renderId post).Genuine
  := rfl

theorem PostView.Genuine.key {view : PostView} (h : view.Genuine) :
  view.key = view.post.key
  := by
  rw [h]
  rfl

/-- The controls of a view are those of its key, one for each kind. -/
theorem PostView.Genuine.controls_eq {view : PostView} (h : view.Genuine) :
  view.controls = ControlKind.all.map (Control.of view.key)
  := by
  rw [h]
  rfl

/-- A view of a post has one control of each kind. -/
theorem PostView.Genuine.control? {view : PostView} (h : view.Genuine) (kind : ControlKind) :
  view.control? kind = some (Control.of view.key kind)
  := by
  rw [h]
  cases kind <;> rfl

namespace Feed

/-- Every view on display is the view of its post. -/
def Genuine (feed : Feed) : Prop :=
  ∀ view ∈ feed.views, view.Genuine

theorem genuine_empty :
  empty.Genuine
  := by
  intro view hmem
  cases hmem

theorem Genuine.append {feed : Feed} (h : feed.Genuine) (post : Post) :
  (feed.append post).Genuine
  := by
  intro view hmem
  obtain hmem | hmem := List.mem_append.mp hmem
  · apply h view hmem
  · obtain rfl := List.mem_singleton.mp hmem
    apply PostView.genuine_of

theorem Genuine.prepend {feed : Feed} (h : feed.Genuine) (post : Post) :
  (feed.prepend post).Genuine
  := by
  intro view hmem
  obtain rfl | hmem := List.mem_cons.mp hmem
  · apply PostView.genuine_of
  · apply h view hmem

/-- What replaces a feed is genuine, whatever it replaces. -/
theorem genuine_replaceAll (feed : Feed) (posts : List Post) :
  (feed.replaceAll posts).Genuine
  := by
  have hclear : feed.clear.Genuine := by
    intro view hmem
    cases hmem
  rw [replaceAll]
  generalize feed.clear = shown at hclear
  induction posts generalizing shown with
  | nil => apply hclear
  | cons post rest ih => apply ih _ (hclear.append post)

end Feed

end FeedClient
