import FeedClient.Proofs.Controller.History
import FeedClient.Proofs.Feed.Edits

/-!
# Render ids over a run

To the feed a run of the controller is a sequence of edits: every refresh that starts shows the
placeholder in front, and every fetched feed that is put on display replaces what there was. So what
holds of the render ids after any edits of a feed holds after every run, however the refreshes of
concurrent tasks mix. `Feed.Identified` says what that is.
-/

namespace FeedClient

namespace Feed

/-- What the render ids of a feed tell after edits of the empty feed. -/
structure Identified (edits : List Edit) : Prop where
  /-- Every post that was rendered has its view. -/
  posts : (empty.renderings edits).map PostView.post = edits.flatMap Edit.posts
  /-- No two renders have the same id: they are counted up from one. -/
  ids : (empty.renderings edits).map PostView.renderId
    = List.range' 1 (edits.flatMap Edit.posts).length
  /-- What is rendered later has greater ids than all that was rendered before, on display or not. -/
  fresh : ∀ more, ∀ old ∈ empty.renderings edits,
    ∀ new ∈ (empty.editAll edits).renderings more, old.renderId < new.renderId
  /-- What is on display has been rendered. -/
  rendered : ∀ view ∈ (empty.editAll edits).views, view ∈ empty.renderings edits
  nodup : ((empty.editAll edits).views.map PostView.renderId).Nodup
  bounds : ∀ view ∈ (empty.editAll edits).views,
    1 ≤ view.renderId ∧ view.renderId ≤ (edits.flatMap Edit.posts).length
  key : ∀ view ∈ (empty.editAll edits).views,
    view.key.text = view.post.author ++ ":post_" ++ view.post.posted
  controls : ∀ view ∈ (empty.editAll edits).views,
    view.controls = [⟨.subscribe, view.key.text ++ ".a"⟩, ⟨.unsubscribe, view.key.text ++ ".b"⟩,
      ⟨.delete, view.key.text ++ ".c"⟩]

theorem identified (edits : List Edit) :
  Identified edits
  where
  posts := by
    rw [renderings_eq, PostView.map_post_numbered]
  ids := by
    rw [renderings_eq, PostView.map_renderId_numbered]
    rfl
  fresh := by
    intro more old hold new hnew
    apply lt_renderId_of_mem_renderings hold hnew
  rendered := by
    intro view hmem
    obtain hold | hnew := mem_views_editAll hmem
    · cases hold
    · apply hnew
  nodup := (distinct_empty.editAll edits).nodup
  bounds := by
    intro view hmem
    have hbounds := (distinct_empty.editAll edits).bounds view hmem
    rw [rendered_editAll, empty, Nat.zero_add] at hbounds
    apply hbounds
  key := by
    intro view hmem
    rw [(genuine_empty.editAll edits view hmem).key]
    rfl
  controls := by
    intro view hmem
    apply (genuine_empty.editAll edits view hmem).controls

end Feed

namespace Desk

/-- What an event does to the feed on display, if it does anything. -/
def Event.edit? (e : Event) : Option Edit :=
  match e.start?, e.shown? with
  | some _, _ => some (.prepend Post.placeholder)
  | none, some (_, posts) => some (.replaceAll posts)
  | none, none => none

/-- What was done to the feed on display, in the order in which it was done. -/
def History.edits : History → List Edit
  | [] => []
  | e :: h => edits h ++ e.edit?.toList

theorem History.edits_append (later h : History) :
  edits (later ++ h) = edits h ++ edits later
  := by
  induction later with
  | nil => rw [edits, List.nil_append, List.append_nil]
  | cons e later ih => rw [List.cons_append, edits, ih, edits, List.append_assoc]

theorem history_append (desk : Desk) (steps more : List Step) :
  desk.history (steps ++ more) = (desk.run steps).history more ++ desk.history steps
  := by
  induction steps generalizing desk with
  | nil => rw [List.nil_append, history, List.append_nil]; rfl
  | cons step steps ih =>
      rw [List.cons_append, history, ih, history, ← List.append_assoc]
      rfl

/-- What a step does to the feed on display can be told from its event. -/
theorem Effect.feed {desk : Desk} {step : Step} {c : Controller} {progress : Option Progress}
    (heffect : Effect desk step c progress) :
  c.feed = desk.controller.feed.editAll (Event.mk step progress).edit?.toList
  := by
  cases heffect <;>
    simp [Event.edit?, Event.start?, Event.shown?, Controller.loading, Feed.editAll, Feed.edit]

/-- The feed of a run is what its edits make of the empty feed. -/
theorem Reached.feed_eq {user : String} {view : View} {policy : RefreshPolicy} {desk : Desk}
    {h : History} (hreached : Reached user view policy desk h) :
  desk.controller.feed = Feed.empty.editAll h.edits
  := by
  induction hreached with
  | start => rfl
  | step hreached step ih =>
      rw [(effect_step hreached.accords.standard step).feed, ih, History.edits,
        Feed.editAll_append]

/-- After any edits of a feed, its render ids tell all that was ever rendered apart, and every view on
display has the key and the controls of its post. The feed of every run of the controller is made by
edits, and what happens later only adds to them. -/
theorem render_ids_run :
  (∀ edits, Feed.Identified edits)
    ∧ ∀ (user : String) (view : View) (policy : RefreshPolicy) (steps more : List Step),
      let desk := start user view policy
      (desk.run steps).controller.feed = Feed.empty.editAll (desk.history steps).edits
        ∧ (desk.history steps).edits <+: (desk.history (steps ++ more)).edits
  := by
  refine ⟨Feed.identified, ?_⟩
  intro user view policy steps more desk
  constructor
  · apply (reached_run user view policy steps).feed_eq
  · rw [history_append, History.edits_append]
    apply List.prefix_append

end Desk

end FeedClient
