import FeedClient.Proofs.Controller.Controls
import FeedClient.Proofs.Controller.Protocol
import FeedClient.Proofs.Post.Tag

/-!
# What actions make of tags

A subscription through a tag is the subscription to the person that the tag names, and nothing tells
the two apart. A deletion calls the gateway exactly when the mark of post keys stands in its tag, and
a post with a timestamp can be deleted by its key as well as by any of its controls.
-/

namespace FeedClient

/-- Two actions that nothing tells apart: when one is begun in place of the other, every step brings
its action as far, and the run ends with the same desk. -/
def Action.Interchangeable (action other : Action) : Prop :=
  ∀ (desk : Desk) (name : String) (rest : List Desk.Step),
    desk.run (.begin name action :: rest) = desk.run (.begin name other :: rest)
      ∧ (desk.history (.begin name action :: rest)).map Desk.Event.progress
        = (desk.history (.begin name other :: rest)).map Desk.Event.progress

/-- Actions that begin in the same way cannot be told apart. -/
theorem Action.interchangeable_of_begin {action other : Action}
    (h : ∀ c : Controller, c.begin action = c.begin other) :
  action.Interchangeable other
  := by
  intro desk name rest
  have hstep : desk.step (.begin name action) = desk.step (.begin name other) := by
    rw [Desk.step_begin, Desk.step_begin, h]
  constructor
  · rw [Desk.run, Desk.run, List.foldl_cons, List.foldl_cons, hstep]
  · rw [Desk.history, Desk.history, hstep, List.map_append, List.map_append]
    rfl

namespace Tag.Names

variable {tag name : String} (h : Tag.Names tag name)
include h

theorem subscribe :
  (Action.subscribe tag).Interchangeable (.subscribeUser name)
  := by
  rw [← Tag.author_eq_iff.mpr h]
  apply Action.interchangeable_of_begin
  intro c
  rfl

theorem unsubscribe :
  (Action.unsubscribe tag).Interchangeable (.unsubscribeUser name)
  := by
  rw [← Tag.author_eq_iff.mpr h]
  apply Action.interchangeable_of_begin
  intro c
  rfl

end Tag.Names

namespace Controller

variable (c : Controller)

/-- A deletion calls the gateway exactly when the mark of post keys stands in its tag. -/
theorem isSome_firstCall?_delete_iff (tag : String) :
  (c.firstCall? (.delete tag)).isSome ↔ PostKey.mark.toList <:+: tag.toList
  := by
  by_cases hmark : PostKey.mark.toList <:+: tag.toList
  · obtain ⟨key, hkey, -⟩ := PostKey.parse_stem_of_occurs (Text.occurs_iff_infix.mpr hmark)
    rw [iff_true_right hmark]
    simp only [firstCall?, begin, hkey]
    rfl
  · rw [iff_false_right hmark, firstCall?, begin_of_not_infix c hmark]
    apply Bool.false_ne_true

/-- A key that is its own stem is deleted by its text. -/
theorem firstCall?_delete_text {key : PostKey} (h : Tag.stem key.text = key.text) :
  c.firstCall? (.delete key.text) = some (.mutate (.deletePost c.user key))
  := by
  simp only [firstCall?, begin, h, PostKey.parse, dif_pos key.marked]
  rfl

/-- A post with a timestamp is deleted by its key and by each of its controls alike. -/
theorem firstCall?_delete_key {post : Post} {nanos : Int64}
    (h : Stamp.parse post.posted = .ok nanos) :
  c.firstCall? (.delete post.key.text) = some (.mutate (.deletePost c.user post.key))
    ∧ ∀ kind, c.firstCall? (.delete (Control.of post.key kind).id)
      = c.firstCall? (.delete post.key.text)
  := by
  have hstem : Tag.stem post.key.text = post.key.text := by
    apply (Tag.stem_text_eq_iff post.author post.posted).mpr
    apply Tag.not_suffix_of_parse h
  have hdelete := c.firstCall?_delete_text hstem
  use hdelete
  intro kind
  rw [hdelete]
  apply firstCall?_delete_id

end Controller

namespace Tag

/-- The id of a control leads back to the key of its post, and every tag leads to the person that it
names, whose name alone decides what a subscription through the tag does. A deletion calls the
gateway exactly when the mark stands in its tag. A key leads back to itself unless the time in it ends
like the id of a control; so a post with a timestamp is deleted by its key and by its controls
alike. -/
theorem tags_recovered :
  (∀ (post : Post) (kind : ControlKind), stem (Control.of post.key kind).id = post.key.text)
    ∧ (∀ tag name : String, author tag = name ↔ Names tag name)
    ∧ (∀ tag name : String, Names tag name →
      (Action.subscribe tag).Interchangeable (.subscribeUser name)
        ∧ (Action.unsubscribe tag).Interchangeable (.unsubscribeUser name))
    ∧ (∀ name : String, ¬ PostKey.mark.toList <:+: name.toList → author name = name)
    ∧ (∀ (c : Controller) (tag : String),
      (c.firstCall? (.delete tag)).isSome ↔ PostKey.mark.toList <:+: tag.toList)
    ∧ (∀ author posted : String,
      stem (PostKey.of author posted).text = (PostKey.of author posted).text
        ↔ ¬ (['.', 'a'] <:+ posted.toList ∨ ['.', 'b'] <:+ posted.toList
          ∨ ['.', 'c'] <:+ posted.toList))
    ∧ ∀ (c : Controller) (post : Post) (nanos : Int64), Stamp.parse post.posted = .ok nanos →
      c.firstCall? (.delete post.key.text) = some (.mutate (.deletePost c.user post.key))
        ∧ ∀ kind, c.firstCall? (.delete (Control.of post.key kind).id)
          = c.firstCall? (.delete post.key.text)
  := by
  refine ⟨fun post => Control.stem_id post.key, fun _ _ => author_eq_iff,
    fun _ _ h => ⟨h.subscribe, h.unsubscribe⟩, fun _ h => author_eq_iff.mpr (.whole h),
    Controller.isSome_firstCall?_delete_iff, ?_, fun c _ _ => c.firstCall?_delete_key⟩
  intro author posted
  rw [stem_text_eq_iff, exists_letter_suffix_iff]

/-- A point in the name of a person, and a letter of a control that is a digit of the time. -/
theorem tags_recovered_dotted :
  let c := Controller.start "ann" .home {}
  Names "x.a:post_1f.b" "x.a"
    ∧ (Action.subscribe "x.a:post_1f.b").Interchangeable (.subscribeUser "x.a")
    ∧ ¬ PostKey.mark.toList <:+: "x.a".toList ∧ author "x.a" = "x.a"
    ∧ Stamp.parse "0xc" = .ok 12
    ∧ c.firstCall? (.delete "x.a:post_0xc")
      = some (.mutate (.deletePost "ann" (PostKey.of "x.a" "0xc")))
  := by
  intro c
  obtain ⟨-, hauthor, hsubscribe, hplain, -, -, hdelete⟩ := tags_recovered
  have hnames : Names "x.a:post_1f.b" "x.a" := by
    rw [← hauthor]
    decide
  have hmark : ¬ PostKey.mark.toList <:+: "x.a".toList := by decide
  have hparse : Stamp.parse "0xc" = .ok 12 := by decide
  use hnames, (hsubscribe _ _ hnames).1, hmark, hplain _ hmark, hparse
  apply (hdelete c ⟨"x.a", "", "0xc"⟩ 12 hparse).1

end Tag

end FeedClient
