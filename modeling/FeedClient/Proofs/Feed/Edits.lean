import FeedClient.Proofs.Feed
import Mathlib.Data.List.Range

/-!
# Edits of a feed

An edit takes the posts of a feed off display, shows a post behind or in front of them, or replaces
them. The views that an edit renders are told here by their place on display alone, without the
counter of the feed: `Feed.rendering` are those of one edit, and `Feed.renderings` those of a whole
sequence of edits, whether or not they are still on display.

`Feed.renderings_eq` says that the renders of a sequence are numbered in one row, whatever is cleared
or replaced in between. So no render id is ever given twice.
-/

namespace FeedClient

/-- Something that is done to a feed. -/
inductive Edit
  | clear
  | append (post : Post)
  | prepend (post : Post)
  | replaceAll (posts : List Post)
deriving DecidableEq, Repr

/-- The posts that an edit renders, in their order. -/
def Edit.posts : Edit → List Post
  | clear => []
  | append post => [post]
  | prepend post => [post]
  | replaceAll posts => posts

namespace Feed

/-- Carries out an edit. -/
def edit (feed : Feed) : Edit → Feed
  | .clear => feed.clear
  | .append post => feed.append post
  | .prepend post => feed.prepend post
  | .replaceAll posts => feed.replaceAll posts

/-- Carries out edits one after the other. -/
def editAll (feed : Feed) (edits : List Edit) : Feed :=
  edits.foldl edit feed

/-- The views that an edit renders: those behind or in front of the views that were on display, or
all that are on display after it. -/
def rendering (feed : Feed) (e : Edit) : List PostView :=
  let shown := (feed.edit e).views
  match e with
  | .clear => []
  | .append _ => shown.drop feed.views.length
  | .prepend _ => shown.take 1
  | .replaceAll _ => shown

/-- The views that a sequence of edits renders, in the order in which they are rendered. -/
def renderings (feed : Feed) : List Edit → List PostView
  | [] => []
  | e :: edits => feed.rendering e ++ (feed.edit e).renderings edits

theorem editAll_append (feed : Feed) (edits more : List Edit) :
  feed.editAll (edits ++ more) = (feed.editAll edits).editAll more
  := List.foldl_append

end Feed

/-! ### Views in a row -/

/-- The views of posts whose render ids follow each other, behind those that were given by then. -/
def PostView.numbered (given : Nat) : List Post → List PostView
  | [] => []
  | post :: posts => of (given + 1) post :: numbered (given + 1) posts

namespace PostView

theorem numbered_append (given : Nat) (posts more : List Post) :
  numbered given (posts ++ more)
    = numbered given posts ++ numbered (given + posts.length) more
  := by
  induction posts generalizing given with
  | nil => rfl
  | cons post posts ih =>
      rw [List.cons_append, numbered, ih, numbered, List.length_cons, Nat.add_right_comm]
      rfl

theorem map_renderId_numbered (given : Nat) (posts : List Post) :
  (numbered given posts).map renderId = List.range' (given + 1) posts.length
  := by
  induction posts generalizing given with
  | nil => rfl
  | cons post posts ih =>
      rw [numbered, List.map_cons, ih, List.length_cons, List.range'_succ]
      rfl

theorem map_post_numbered (given : Nat) (posts : List Post) :
  (numbered given posts).map post = posts
  := by
  induction posts generalizing given with
  | nil => rfl
  | cons first posts ih =>
      rw [numbered, List.map_cons, ih]
      rfl

theorem lt_renderId_of_mem_numbered {given : Nat} {posts : List Post} {view : PostView}
    (h : view ∈ numbered given posts) :
  given < view.renderId ∧ view.renderId ≤ given + posts.length
  := by
  have hmem : view.renderId ∈ List.range' (given + 1) posts.length := by
    rw [← map_renderId_numbered]
    apply List.mem_map_of_mem h
  rw [List.mem_range'_1] at hmem
  omega

theorem nodup_renderId_numbered (given : Nat) (posts : List Post) :
  ((numbered given posts).map renderId).Nodup
  := by
  rw [map_renderId_numbered]
  exact List.nodup_range'

end PostView

/-- The controls of a view, with their ids. -/
theorem PostView.Genuine.controls {view : PostView} (h : view.Genuine) :
  view.controls = [⟨.subscribe, view.key.text ++ ".a"⟩, ⟨.unsubscribe, view.key.text ++ ".b"⟩,
    ⟨.delete, view.key.text ++ ".c"⟩]
  := by
  simp only [h.controls_eq, ControlKind.all, List.map_cons, List.map_nil, Control.of, ControlKind.letter,
    String.append_assoc]
  rfl

namespace Feed

/-! ### What an edit does -/

theorem views_foldl_append (feed : Feed) (posts : List Post) :
  (posts.foldl append feed).views = feed.views ++ PostView.numbered feed.rendered posts
    ∧ (posts.foldl append feed).rendered = feed.rendered + posts.length
  := by
  induction posts generalizing feed with
  | nil => simp [PostView.numbered]
  | cons post posts ih =>
      obtain ⟨hviews, hrendered⟩ := ih (feed.append post)
      rw [List.foldl_cons, hviews, hrendered]
      constructor
      · rw [append, List.append_assoc]
        rfl
      · rw [append, List.length_cons, Nat.add_right_comm]
        rfl

/-- An edit numbers what it renders on from the ids that were given before. -/
theorem rendering_eq (feed : Feed) (e : Edit) :
  feed.rendering e = PostView.numbered feed.rendered e.posts
  := by
  cases e with
  | clear => rfl
  | append post =>
      rw [rendering]
      apply List.drop_left
  | prepend post => rfl
  | replaceAll posts => apply (feed.clear.views_foldl_append posts).1

theorem rendered_edit (feed : Feed) (e : Edit) :
  (feed.edit e).rendered = feed.rendered + e.posts.length
  := by
  cases e with
  | clear => rfl
  | append post => rfl
  | prepend post => rfl
  | replaceAll posts => apply (feed.clear.views_foldl_append posts).2

/-- What is on display after an edit has been on display before it, or is rendered by it; and it
stands in one of these orders. -/
theorem views_edit (feed : Feed) (e : Edit) :
  (feed.edit e).views = []
    ∨ (feed.edit e).views = feed.views ++ feed.rendering e
    ∨ (feed.edit e).views = feed.rendering e ++ feed.views
    ∨ (feed.edit e).views = feed.rendering e
  := by
  rw [rendering_eq]
  cases e with
  | clear => exact .inl rfl
  | append post => exact .inr (.inl rfl)
  | prepend post => exact .inr (.inr (.inl rfl))
  | replaceAll posts =>
      exact .inr (.inr (.inr (feed.clear.views_foldl_append posts).1))

theorem mem_views_edit {feed : Feed} {e : Edit} {view : PostView}
    (h : view ∈ (feed.edit e).views) :
  view ∈ feed.views ∨ view ∈ feed.rendering e
  := by
  obtain hviews | hviews | hviews | hviews := feed.views_edit e
  all_goals
    rw [hviews] at h
    grind

theorem Genuine.edit {feed : Feed} (h : feed.Genuine) (e : Edit) :
  (feed.edit e).Genuine
  := by
  cases e with
  | clear =>
      intro view hmem
      cases hmem
  | append post => apply h.append
  | prepend post => apply h.prepend
  | replaceAll posts => apply genuine_replaceAll

/-! ### Sequences of edits -/

/-- The renders of a sequence are numbered in one row. -/
theorem renderings_eq (feed : Feed) (edits : List Edit) :
  feed.renderings edits = PostView.numbered feed.rendered (edits.flatMap Edit.posts)
  := by
  induction edits generalizing feed with
  | nil => rfl
  | cons e edits ih =>
      rw [renderings, ih, rendering_eq, rendered_edit, List.flatMap_cons, PostView.numbered_append]

theorem rendered_editAll (feed : Feed) (edits : List Edit) :
  (feed.editAll edits).rendered = feed.rendered + (edits.flatMap Edit.posts).length
  := by
  induction edits generalizing feed with
  | nil => rfl
  | cons e edits ih =>
      rw [editAll, List.foldl_cons, ← editAll, ih, rendered_edit, List.flatMap_cons,
        List.length_append, Nat.add_assoc]

/-- The render ids on display are different, and have been given by now. -/
structure Distinct (feed : Feed) : Prop where
  nodup : (feed.views.map PostView.renderId).Nodup
  bounds : ∀ view ∈ feed.views, 0 < view.renderId ∧ view.renderId ≤ feed.rendered

theorem distinct_empty :
  empty.Distinct
  where
  nodup := List.nodup_nil
  bounds := by
    intro view hmem
    cases hmem

/-- No id that an edit gives is on display before. -/
theorem Distinct.lt_renderId {feed : Feed} (h : feed.Distinct) {e : Edit} {old new : PostView}
    (hold : old ∈ feed.views) (hnew : new ∈ feed.rendering e) :
  old.renderId < new.renderId
  := by
  rw [rendering_eq] at hnew
  apply Nat.lt_of_le_of_lt (h.bounds old hold).2
  apply (PostView.lt_renderId_of_mem_numbered hnew).1

theorem Distinct.edit {feed : Feed} (h : feed.Distinct) (e : Edit) :
  (feed.edit e).Distinct
  where
  nodup := by
    have hnew : ((feed.rendering e).map PostView.renderId).Nodup := by
      rw [rendering_eq]
      apply PostView.nodup_renderId_numbered
    have hdisjoint : ∀ id ∈ feed.views.map PostView.renderId,
        ∀ id' ∈ (feed.rendering e).map PostView.renderId, id ≠ id' := by
      simp only [List.forall_mem_map]
      intro old hold new hnew
      apply Nat.ne_of_lt (h.lt_renderId hold hnew)
    obtain hviews | hviews | hviews | hviews := feed.views_edit e
    · rw [hviews]
      apply List.nodup_nil
    · rw [hviews, List.map_append]
      apply List.nodup_append.mpr
      use h.nodup, hnew
    · rw [hviews, List.map_append]
      apply List.nodup_append.mpr
      use hnew, h.nodup
      intro id hid id' hid'
      apply (hdisjoint id' hid' id hid).symm
    · rw [hviews]
      apply hnew
  bounds := by
    intro view hmem
    rw [rendered_edit]
    obtain hold | hnew := mem_views_edit hmem
    · have hbounds := h.bounds view hold
      omega
    · rw [rendering_eq] at hnew
      have hbounds := PostView.lt_renderId_of_mem_numbered hnew
      omega

/-- What an edit keeps, a sequence of edits keeps. -/
theorem editAll_of_edit {P : Feed → Prop} (hedit : ∀ feed e, P feed → P (feed.edit e))
    {feed : Feed} (h : P feed) (edits : List Edit) :
  P (feed.editAll edits)
  := by
  induction edits generalizing feed with
  | nil => apply h
  | cons e edits ih => apply ih (hedit feed e h)

theorem Distinct.editAll {feed : Feed} (h : feed.Distinct) (edits : List Edit) :
  (feed.editAll edits).Distinct
  := editAll_of_edit (P := Distinct) (fun _ e h => h.edit e) h edits

theorem Genuine.editAll {feed : Feed} (h : feed.Genuine) (edits : List Edit) :
  (feed.editAll edits).Genuine
  := editAll_of_edit (P := Genuine) (fun _ e h => h.edit e) h edits

/-- What is on display was there before, or was rendered since. -/
theorem mem_views_editAll {feed : Feed} {edits : List Edit} {view : PostView}
    (h : view ∈ (feed.editAll edits).views) :
  view ∈ feed.views ∨ view ∈ feed.renderings edits
  := by
  induction edits generalizing feed with
  | nil =>
      left
      apply h
  | cons e edits ih =>
      rw [renderings, List.mem_append]
      obtain hshown | hlater := ih h
      · obtain hold | hnew := mem_views_edit hshown
        · left
          apply hold
        · right
          left
          apply hnew
      · right
        right
        apply hlater

/-- Whatever was rendered before has lesser render ids than what is rendered later. -/
theorem lt_renderId_of_mem_renderings {feed : Feed} {edits more : List Edit} {old new : PostView}
    (hold : old ∈ feed.renderings edits) (hnew : new ∈ (feed.editAll edits).renderings more) :
  old.renderId < new.renderId
  := by
  rw [renderings_eq] at hold hnew
  rw [rendered_editAll] at hnew
  have hle := (PostView.lt_renderId_of_mem_numbered hold).2
  have hlt := (PostView.lt_renderId_of_mem_numbered hnew).1
  omega

end Feed

end FeedClient
