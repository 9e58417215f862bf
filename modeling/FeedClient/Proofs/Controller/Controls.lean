import FeedClient.Proofs.Controller.History
import FeedClient.Proofs.Feed
import FeedClient.Proofs.Post.Key

/-!
# What the controls of a post do

The controls of a post on display lead back to the key of the post. So its delete control deletes
exactly this post. Its other controls call for the author that the key names, which is the author of
the post exactly when the mark of post keys does not stand in the author's name: an author whose name
holds the mark cannot be subscribed to through a control.
-/

namespace FeedClient

/-- The gateway call that an action begins with. -/
def Controller.firstCall? (c : Controller) (action : Action) : Option Call :=
  (c.begin action).2.task?.map Task.call

namespace Controller

variable (c : Controller) (key : PostKey) (kind : ControlKind)

theorem firstCall?_delete_id :
  c.firstCall? (.delete (Control.of key kind).id) = some (.mutate (.deletePost c.user key))
  := by
  simp only [firstCall?, begin, Control.parse_stem_id]
  rfl

theorem firstCall?_subscribe_id :
  c.firstCall? (.subscribe (Control.of key kind).id)
    = some (.mutate (.subscribe c.user key.author))
  := by
  rw [← Control.author_id key kind]
  rfl

theorem firstCall?_unsubscribe_id :
  c.firstCall? (.unsubscribe (Control.of key kind).id)
    = some (.mutate (.unsubscribe c.user key.author))
  := by
  rw [← Control.author_id key kind]
  rfl

end Controller

namespace Desk

/-- What holds of the empty feed, and is kept by placeholders and by feeds that replace others, holds
of every feed that a client reaches. -/
theorem Reached.feed {user : String} {view : View} {policy : RefreshPolicy} {desk : Desk}
    {h : History} (hreached : Reached user view policy desk h) {P : Feed → Prop}
    (hempty : P .empty) (hprepend : ∀ feed, P feed → P (feed.prepend Post.placeholder))
    (hreplace : ∀ feed posts, P feed → P (feed.replaceAll posts)) :
  P desk.controller.feed
  := by
  induction hreached with
  | start => apply hempty
  | step hreached step ih =>
      cases hreached.accords.advance step with
      | quiet hcontroller => rwa [hcontroller]
      | started user nav hcontroller =>
          rw [hcontroller]
          apply hprepend _ ih
      | shown name fetch posts hwait hdone hnumber hcontroller =>
          rw [hcontroller]
          apply hreplace _ posts ih

/-- Whatever a client has done, the delete control of a post on display deletes this post, and the
other controls call for the author that its key names: the author of the post, unless the mark of
post keys stands in the author's name. -/
theorem controls_run (user : String) (view : View) (policy : RefreshPolicy) (steps : List Step)
    (shown : PostView) :
  let c := ((start user view policy).run steps).controller
  shown ∈ c.feed.views →
    shown.key = shown.post.key
      ∧ (∃ control, shown.control? .delete = some control
        ∧ c.firstCall? (.delete control.id) = some (.mutate (.deletePost c.user shown.key)))
      ∧ (∃ control, shown.control? .subscribe = some control
        ∧ c.firstCall? (.subscribe control.id)
          = some (.mutate (.subscribe c.user shown.key.author)))
      ∧ (∃ control, shown.control? .unsubscribe = some control
        ∧ c.firstCall? (.unsubscribe control.id)
          = some (.mutate (.unsubscribe c.user shown.key.author)))
      ∧ (shown.key.author = shown.post.author
        ↔ ¬ PostKey.mark.toList <:+: shown.post.author.toList)
  := by
  intro c hmem
  have hfeed : c.feed.Genuine :=
    (reached_run user view policy steps).feed Feed.genuine_empty
      (fun _ h => h.prepend _) (fun feed posts _ => feed.genuine_replaceAll posts)
  have hgenuine := hfeed shown hmem
  have hcontrol := hgenuine.control?
  refine ⟨hgenuine.key, ?_, ?_, ?_, ?_⟩
  · exact ⟨_, hcontrol .delete, c.firstCall?_delete_id shown.key .delete⟩
  · exact ⟨_, hcontrol .subscribe, c.firstCall?_subscribe_id shown.key .subscribe⟩
  · exact ⟨_, hcontrol .unsubscribe, c.firstCall?_unsubscribe_id shown.key .unsubscribe⟩
  · rw [hgenuine.key]
    apply PostKey.author_of_eq_iff

/-- The author of a post on display has a name that ends like the mark of post keys begins. -/
theorem controls_coloned :
  let post : Post := ⟨"x:post", "", "1f.a"⟩
  let c := ((start "ann" .home {}).run
    [.begin "feed" .refresh, .reply "feed" (.succeeded [post])]).controller
  let shown := PostView.of 2 post
  shown ∈ c.feed.views ∧ shown.key.author = post.author
    ∧ ∃ control, shown.control? .subscribe = some control
      ∧ c.firstCall? (.subscribe control.id) = some (.mutate (.subscribe "ann" "x:post"))
  := by
  intro post c shown
  have hmem : shown ∈ c.feed.views := by decide
  obtain ⟨-, -, ⟨control, hcontrol, hcall⟩, -, hauthor⟩ := controls_run "ann" .home {}
    [.begin "feed" .refresh, .reply "feed" (.succeeded [post])] shown hmem
  have heq : shown.key.author = post.author := by
    apply hauthor.mpr
    rw [← Text.occurs_iff_infix]
    decide
  refine ⟨hmem, heq, control, hcontrol, ?_⟩
  rw [heq] at hcall
  apply hcall

/-- It is not so that a subscribe control always calls for the author of its post: the name of this
one holds the mark of post keys. -/
theorem not_subscribe_author :
  ¬ ∀ (steps : List Step) (shown : PostView) (control : Control),
    let c := ((start "bob" .home {}).run steps).controller
    shown ∈ c.feed.views → shown.control? .subscribe = some control →
      c.firstCall? (.subscribe control.id)
        = some (.mutate (.subscribe c.user shown.post.author))
  := by
  intro h
  have hcall := h [.begin "feed" .refresh, .reply "feed" (.succeeded [⟨"a:post_b", "", "1f"⟩])]
    (PostView.of 2 ⟨"a:post_b", "", "1f"⟩) ⟨.subscribe, "a:post_b:post_1f.a"⟩ (by decide)
    (by decide)
  revert hcall
  decide

end Desk

end FeedClient
