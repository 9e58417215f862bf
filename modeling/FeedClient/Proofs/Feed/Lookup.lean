import FeedClient.Proofs.Feed.Edits
import FeedClient.Proofs.Post.Key

/-!
# Finding a control by its id

The id of a control tells the key of its post and its kind, whatever the author and the time of the
post look like. So the controls of one view have different ids, and views share ids only if they
share their key, as views of one post do that is displayed twice. A lookup by id then finds the first
view with that key, and its control of that kind.
-/

namespace FeedClient

theorem ControlKind.letter_injective :
  Function.Injective letter
  := by
  intro kind kind' h
  cases kind <;> cases kind' <;> first | rfl | cases h

namespace Control

/-- The id of a control tells its key and its kind. -/
theorem id_of_eq_iff {key key' : PostKey} {kind kind' : ControlKind} :
  (of key kind).id = (of key' kind').id ↔ key = key' ∧ kind = kind'
  := by
  constructor
  · intro h
    have hlists := congrArg String.toList h
    rw [toList_id, toList_id] at hlists
    -- the ends have the same length, whatever the keys are
    obtain ⟨htext, hends⟩ := List.append_inj' hlists rfl
    obtain ⟨-, hletters⟩ := List.cons.inj hends
    constructor
    · apply PostKey.ext
      apply String.toList_injective htext
    · apply ControlKind.letter_injective
      apply (List.cons.inj hletters).1
  · rintro ⟨rfl, rfl⟩
    rfl

end Control

namespace PostView.Genuine

variable {view : PostView} (h : view.Genuine)
include h

theorem mem_controls_iff {control : Control} :
  control ∈ view.controls ↔ control = Control.of view.key control.kind
  := by
  rw [h.controls_eq, List.mem_map]
  constructor
  · rintro ⟨kind, -, rfl⟩
    rfl
  · intro hcontrol
    use control.kind
    constructor
    · cases control.kind <;> decide
    · apply hcontrol.symm

/-- Controls of two views have the same id exactly when the views have the same key and the controls
are of the same kind. -/
theorem id_eq_iff {view' : PostView} (h' : view'.Genuine) {control control' : Control}
    (hmem : control ∈ view.controls) (hmem' : control' ∈ view'.controls) :
  control.id = control'.id ↔ view.key = view'.key ∧ control.kind = control'.kind
  := by
  rw [h.mem_controls_iff.mp hmem, h'.mem_controls_iff.mp hmem']
  apply Control.id_of_eq_iff

/-- A view has at most one control of an id. -/
theorem find?_eq_some_iff {id : String} {control : Control} :
  (view.controls.find? fun other => other.id == id) = some control
    ↔ control ∈ view.controls ∧ control.id = id
  := by
  constructor
  · intro hfind
    have hid := List.find?_some hfind
    use List.mem_of_find?_eq_some hfind
    apply beq_iff_eq.mp hid
  · rintro ⟨hmem, rfl⟩
    cases hfind : view.controls.find? fun other => other.id == control.id with
    | none =>
        have hne := List.find?_eq_none.mp hfind control hmem
        apply absurd (beq_self_eq_true control.id) hne
    | some found =>
        have hfound := List.mem_of_find?_eq_some hfind
        have hid := List.find?_some hfind
        obtain ⟨-, hkind⟩ := (h.id_eq_iff h hfound hmem).mp (beq_iff_eq.mp hid)
        rw [h.mem_controls_iff.mp hfound, h.mem_controls_iff.mp hmem, hkind]

end PostView.Genuine

namespace Feed

/-- The view that comes first in a feed among those with a control of an id, and this control. -/
structure Finds (feed : Feed) (id : String) (view : PostView) (control : Control) : Prop where
  mem : control ∈ view.controls
  id_eq : control.id = id
  first : ∃ before after, feed.views = before ++ view :: after
    ∧ ∀ earlier ∈ before, ∀ other ∈ earlier.controls, other.id ≠ id

theorem mem_views_of_eq {feed : Feed} {before after : List PostView} {view : PostView}
    (hviews : feed.views = before ++ view :: after) :
  view ∈ feed.views
  := by
  rw [hviews]
  apply List.mem_append_right _ List.mem_cons_self

theorem Finds.mem_views {feed : Feed} {id : String} {view : PostView} {control : Control}
    (h : feed.Finds id view control) :
  view ∈ feed.views
  := by
  obtain ⟨before, after, hviews, -⟩ := h.first
  apply mem_views_of_eq hviews

/-- An id is found exactly when it is the id of a control on display. -/
theorem isSome_findControl?_iff {feed : Feed} {id : String} :
  (feed.findControl? id).isSome
    ↔ ∃ view ∈ feed.views, ∃ control ∈ view.controls, control.id = id
  := by
  simp [findControl?]

namespace Genuine

variable {feed : Feed} (h : feed.Genuine)
include h

theorem findControl?_eq_some_iff {id : String} {view : PostView} {control : Control} :
  feed.findControl? id = some (view, control) ↔ feed.Finds id view control
  := by
  rw [findControl?, List.findSome?_eq_some_iff]
  constructor
  · rintro ⟨before, found, after, hviews, hfound, hbefore⟩
    obtain ⟨control', hfind, heq⟩ := Option.map_eq_some_iff.mp hfound
    obtain ⟨rfl, rfl⟩ := Prod.mk.inj heq
    have hmem := mem_views_of_eq hviews
    obtain ⟨hcontrol, hid⟩ := (h found hmem).find?_eq_some_iff.mp hfind
    use hcontrol, hid, before, after, hviews
    intro earlier hearlier other hother
    have hnone := Option.map_eq_none_iff.mp (hbefore earlier hearlier)
    simpa using List.find?_eq_none.mp hnone other hother
  · rintro ⟨hcontrol, hid, before, after, hviews, hbefore⟩
    have hmem := mem_views_of_eq hviews
    use before, view, after, hviews
    constructor
    · rw [(h view hmem).find?_eq_some_iff.mpr ⟨hcontrol, hid⟩]
      rfl
    · intro earlier hearlier
      rw [Option.map_eq_none_iff, List.find?_eq_none]
      intro other hother
      simpa using hbefore earlier hearlier other hother

/-- A control that is displayed leads back to its key and its kind. -/
theorem exists_finds {before after : List PostView} {view : PostView}
    (hviews : feed.views = before ++ view :: after) {control : Control}
    (hmem : control ∈ view.controls) :
  ∃ found, feed.Finds control.id found control ∧ found.key = view.key
    ∧ ((∀ earlier ∈ before, earlier.key ≠ view.key) → found = view)
  := by
  have hview := mem_views_of_eq hviews
  obtain ⟨⟨found, control'⟩, hfind⟩ :=
    Option.isSome_iff_exists.mp (isSome_findControl?_iff.mpr ⟨view, hview, control, hmem, rfl⟩)
  have hfinds := h.findControl?_eq_some_iff.mp hfind
  have hfound := hfinds.mem_views
  obtain ⟨hkey, hkind⟩ := ((h found hfound).id_eq_iff (h view hview) hfinds.mem hmem).mp hfinds.id_eq
  have hcontrol : control' = control := by
    rw [(h found hfound).mem_controls_iff.mp hfinds.mem, (h view hview).mem_controls_iff.mp hmem,
      hkey, hkind]
  rw [hcontrol] at hfinds
  use found, hfinds, hkey
  intro hbefore
  have hself : feed.Finds control.id view control := by
    use hmem, rfl, before, after, hviews
    intro earlier hearlier other hother hid
    have hmem' : earlier ∈ feed.views := by
      rw [hviews]
      apply List.mem_append_left _ hearlier
    apply hbefore earlier hearlier
    apply (((h earlier hmem').id_eq_iff (h view hview) hother hmem).mp hid).1
  have hsame := h.findControl?_eq_some_iff.mpr hfinds
  rw [h.findControl?_eq_some_iff.mpr hself] at hsame
  apply (Prod.mk.inj (Option.some.inj hsame)).1.symm

end Genuine

/-- Whatever edits a feed has gone through, an id is found exactly when it is the id of a control on
display, and what is found is the first view with such a control, and this control. Controls of two
views have the same id only if the views have the same key and the controls are of the same kind. So
a control on display leads back to its kind and to a view with its key, and to its own view unless
one with the same key comes earlier. -/
theorem findControl?_editAll (edits : List Edit) :
  let feed := empty.editAll edits
  (∀ id : String, (feed.findControl? id).isSome
      ↔ ∃ view ∈ feed.views, ∃ control ∈ view.controls, control.id = id)
    ∧ (∀ (id : String) (view : PostView) (control : Control),
      feed.findControl? id = some (view, control) ↔ feed.Finds id view control)
    ∧ (∀ others : List Edit, ∀ view ∈ feed.views, ∀ view' ∈ (empty.editAll others).views,
      ∀ control ∈ view.controls, ∀ control' ∈ view'.controls,
        control.id = control'.id ↔ view.key = view'.key ∧ control.kind = control'.kind)
    ∧ ∀ (before : List PostView) (view : PostView) (after : List PostView),
      feed.views = before ++ view :: after → ∀ kind, ∃ control found,
        view.control? kind = some control ∧ control.kind = kind
          ∧ feed.findControl? control.id = some (found, control) ∧ found.key = view.key
          ∧ ((∀ earlier ∈ before, earlier.key ≠ view.key) → found = view)
  := by
  intro feed
  have hfeed : feed.Genuine := genuine_empty.editAll edits
  refine ⟨fun _ => isSome_findControl?_iff, fun _ _ _ => hfeed.findControl?_eq_some_iff, ?_, ?_⟩
  · intro others view hview view' hview' control hmem control' hmem'
    apply (hfeed view hview).id_eq_iff (genuine_empty.editAll others view' hview') hmem hmem'
  · intro before view after hviews kind
    have hview := hfeed view (mem_views_of_eq hviews)
    have hmem : Control.of view.key kind ∈ view.controls := hview.mem_controls_iff.mpr rfl
    obtain ⟨found, hfinds, hkey, hself⟩ := hfeed.exists_finds hviews hmem
    use Control.of view.key kind, found, hview.control? kind, rfl,
      hfeed.findControl?_eq_some_iff.mpr hfinds

/-- A post that is displayed twice, and one whose key is the id of a control of the other: each
control of the latter leads back to it, and no control of the former does. -/
theorem findControl?_editAll_dotted :
  let edits : List Edit :=
    [.replaceAll [⟨"x", "old", "1"⟩, ⟨"x", "", "1.a"⟩], .prepend ⟨"x", "new", "1"⟩]
  let feed := empty.editAll edits
  let newer := PostView.of 3 ⟨"x", "new", "1"⟩
  let older := PostView.of 1 ⟨"x", "old", "1"⟩
  let dotted := PostView.of 2 ⟨"x", "", "1.a"⟩
  feed.views = [newer, older] ++ dotted :: []
    ∧ (∀ earlier ∈ [newer, older], earlier.key ≠ dotted.key)
    ∧ (∀ kind, feed.findControl? (Control.of dotted.key kind).id
      = some (dotted, Control.of dotted.key kind))
    ∧ (Control.of older.key .subscribe).id = dotted.key.text
    ∧ (Control.of older.key .subscribe).id ≠ (Control.of dotted.key .subscribe).id
  := by
  intro edits feed newer older dotted
  obtain ⟨-, -, hids, hback⟩ := findControl?_editAll edits
  have hviews : feed.views = [newer, older] ++ dotted :: [] := rfl
  have hkeys : ∀ earlier ∈ [newer, older], earlier.key ≠ dotted.key := by decide
  have hshared : (Control.of older.key .subscribe).id = dotted.key.text := by decide
  use hviews, hkeys
  refine ⟨?_, hshared, ?_⟩
  · intro kind
    obtain ⟨control, found, hcontrol, -, hfind, -, hself⟩ := hback _ _ _ hviews kind
    rw [(PostView.genuine_of 2 _).control? kind] at hcontrol
    obtain rfl := Option.some.inj hcontrol
    obtain rfl := hself hkeys
    apply hfind
  · intro heq
    have holder : older ∈ feed.views := by decide
    have hdotted : dotted ∈ feed.views := by decide
    obtain ⟨hkey, -⟩ :=
      (hids edits older holder dotted hdotted _ (by decide) _ (by decide)).mp heq
    apply hkeys older (by decide) hkey

end Feed

end FeedClient
