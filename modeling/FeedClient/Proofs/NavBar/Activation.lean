import FeedClient.Proofs.NavBar
import Mathlib.Data.List.TakeWhile

/-!
# Activating a label

A label names a view when it is the view's own label with nothing but white space around it. A bar
that a label has been activated on forgets what was activated before: it has the tab of the view on
that the label names, and no tab if the label names none. Looking the label up without a bar leads to
the same feed, but for a label that names no view: there is no feed to look up for it, and the bar
shows the home view.
-/

namespace FeedClient

namespace Text

/-! ### White space -/

/-- The code points with the Unicode property White_Space. -/
def whiteSpace : List Nat :=
  [0x09, 0x0A, 0x0B, 0x0C, 0x0D, 0x20, 0x85, 0xA0, 0x1680, 0x2000, 0x2001, 0x2002, 0x2003, 0x2004,
    0x2005, 0x2006, 0x2007, 0x2008, 0x2009, 0x200A, 0x2028, 0x2029, 0x202F, 0x205F, 0x3000]

theorem isBlank_iff {c : Char} :
  isBlank c = true ↔ c.toNat ∈ whiteSpace
  := by
  simp only [isBlank, whiteSpace, Bool.or_eq_true, Bool.and_eq_true, decide_eq_true_eq, beq_iff_eq,
    List.mem_cons, List.not_mem_nil, or_false]
  omega

/-- What is taken off the start of a text is blank. -/
theorem exists_trimLeft (s : List Char) :
  ∃ left, s = left ++ trimLeft s ∧ ∀ c ∈ left, isBlank c = true
  := by
  use s.takeWhile isBlank
  constructor
  · apply List.takeWhile_append_dropWhile.symm
  · intro c hc
    apply List.mem_takeWhile_imp hc

theorem trimLeft_append {left : List Char} (hleft : ∀ c ∈ left, isBlank c = true) (s : List Char) :
  trimLeft (left ++ s) = trimLeft s
  := List.dropWhile_append_of_pos hleft

theorem trimLeft_of_not_blank {word : List Char} (hne : word ≠ [])
    (hword : ∀ c ∈ word, isBlank c = false) (s : List Char) :
  trimLeft (word ++ s) = word ++ s
  := by
  obtain ⟨c, rest, rfl⟩ := List.exists_cons_of_ne_nil hne
  apply trimLeft_cons_of_not_blank
  apply hword c List.mem_cons_self

/-- A text is trimmed to a word without blanks exactly when there are only blanks around the word. -/
theorem trim_eq_iff {s word : List Char} (hne : word ≠ [])
    (hword : ∀ c ∈ word, isBlank c = false) :
  trim s = word ↔ ∃ left right, s = left ++ word ++ right ∧ (∀ c ∈ left, isBlank c = true)
    ∧ ∀ c ∈ right, isBlank c = true
  := by
  constructor
  · rintro rfl
    obtain ⟨left, hs, hleft⟩ := exists_trimLeft s
    obtain ⟨right, ht, hright⟩ := exists_trimLeft (trimLeft s).reverse
    use left, right.reverse
    refine ⟨?_, hleft, ?_⟩
    · rw [List.append_assoc, trim, ← List.reverse_append, ← ht, List.reverse_reverse]
      apply hs
    · intro c hc
      apply hright c (List.mem_reverse.mp hc)
  · rintro ⟨left, right, rfl, hleft, hright⟩
    have hright' : ∀ c ∈ right.reverse, isBlank c = true := by
      simpa using hright
    have hword' : ∀ c ∈ word.reverse, isBlank c = false := by
      simpa using hword
    have hback := trimLeft_of_not_blank (List.reverse_ne_nil_iff.mpr hne) hword' []
    rw [List.append_nil] at hback
    rw [trim, List.append_assoc, trimLeft_append hleft, trimLeft_of_not_blank hne hword,
      List.reverse_append, trimLeft_append hright', hback, List.reverse_reverse]

end Text

namespace View

/-! ### Labels -/

/-- A label names a view when it is the view's own label with nothing but white space around it. -/
def Names (label : String) (view : View) : Prop :=
  ∃ left right : List Char, label.toList = left ++ view.label.toList ++ right
    ∧ (∀ c ∈ left, c.toNat ∈ Text.whiteSpace) ∧ ∀ c ∈ right, c.toNat ∈ Text.whiteSpace

/-- No two views are called the same. -/
theorem label_injective :
  Function.Injective label
  := by
  intro view view' h
  have hlabel := ofLabel?_label view
  rw [h, ofLabel?_label] at hlabel
  apply (Option.some.inj hlabel).symm

theorem ofLabel?_eq_some_iff_trim {text : String} {view : View} :
  ofLabel? text = some view ↔ view.label.toList = Text.trim text.toList
  := by
  constructor
  · intro h
    have hfound := List.find?_some h
    apply beq_iff_eq.mp hfound
  · intro h
    rw [← ofLabel?_label view, ofLabel?, ofLabel?, trim_label, h]

/-- The view that is looked up for a label is the one that the label names. -/
theorem ofLabel?_eq_some_iff {label : String} {view : View} :
  ofLabel? label = some view ↔ Names label view
  := by
  have hne : view.label.toList ≠ [] := by cases view <;> decide
  have hall : (view.label.toList.all fun c => !Text.isBlank c) = true := by cases view <;> rfl
  have hword : ∀ c ∈ view.label.toList, Text.isBlank c = false := by
    simpa using hall
  rw [ofLabel?_eq_some_iff_trim, eq_comm, Text.trim_eq_iff hne hword]
  simp only [Text.isBlank_iff]
  rfl

/-- No view is found for a label that names none. -/
theorem ofLabel?_eq_none_iff {label : String} :
  ofLabel? label = none ↔ ∀ view, ¬ Names label view
  := by
  rw [Option.eq_none_iff_forall_ne_some]
  simp only [ne_eq, ofLabel?_eq_some_iff]

end View

namespace Endpoint

/-- The feed of the view that a label names, or the home feed if it names none, is the one that the
label leads to, or the home feed where there is none. -/
theorem ofView_getD_home (label user : String) :
  ofView ((View.ofLabel? label).getD .home) user
    = if (ofLabel label user).isEmpty then ofView .home user else ofLabel label user
  := by
  rw [ofLabel]
  cases View.ofLabel? label with
  | none => rfl
  | some view => simp only [isEmpty_ofView, Option.getD_some, Bool.false_eq_true, if_false]

end Endpoint

namespace NavBar

/-! ### Activations -/

/-- Activates texts one after the other. -/
def activateAll (bar : NavBar) (texts : List String) : NavBar :=
  texts.foldl activate bar

/-- The bar with the tab of a view on, if there is any. -/
def showing (active : Option View) : NavBar :=
  ⟨View.all.map fun view => ⟨view.label, active == some view⟩⟩

theorem Standard.activateAll {bar : NavBar} (h : bar.Standard) (texts : List String) :
  (bar.activateAll texts).Standard
  := by
  induction texts generalizing bar with
  | nil => apply h
  | cons text texts ih => apply ih (h.activate text)

/-- An activation leaves nothing of a standard bar but the tabs. -/
theorem Standard.activate_eq {bar : NavBar} (h : bar.Standard) (text : String) :
  bar.activate text = showing (View.ofLabel? text)
  := by
  have hcontrols : (bar.activate text).controls
      = (bar.controls.map NavControl.label).map fun label =>
        ⟨label, label.toList == Text.trim text.toList⟩ := by
    rw [List.map_map]
    rfl
  rw [h, List.map_map] at hcontrols
  apply Eq.trans (congrArg mk hcontrols)
  apply congrArg mk
  apply List.map_congr_left
  intro view _
  have hon : (view.label.toList == Text.trim text.toList) = (View.ofLabel? text == some view) := by
    rw [Bool.eq_iff_iff, beq_iff_eq, beq_iff_eq, View.ofLabel?_eq_some_iff_trim]
  rw [Function.comp_apply, hon]

theorem filter_on_showing (active : Option View) :
  (showing active).controls.filter NavControl.on
    = active.toList.map fun view => ⟨view.label, true⟩
  := by
  cases active with
  | none => rfl
  | some view => cases view <;> rfl

/-- Exactly the tab of one view is on. -/
theorem filter_on_showing_eq_singleton_iff (active : Option View) (view : View) :
  (showing active).controls.filter NavControl.on = [⟨view.label, true⟩] ↔ active = some view
  := by
  rw [filter_on_showing]
  cases active with
  | none => simp
  | some other => simp [View.label_injective.eq_iff]

theorem filter_on_showing_eq_nil_iff (active : Option View) :
  (showing active).controls.filter NavControl.on = [] ↔ active = none
  := by
  rw [filter_on_showing]
  cases active <;> simp

/-- The home view is active when no tab is on. -/
theorem activeLabel_showing (active : Option View) :
  (showing active).activeLabel = (active.getD .home).label
  := by
  cases active with
  | none => rfl
  | some view => cases view <;> rfl

/-- The label that a standard bar shows is still shown when it is activated. -/
theorem Standard.activeLabel_activate_self {bar : NavBar} (h : bar.Standard) :
  (bar.activate bar.activeLabel).activeLabel = bar.activeLabel
  := by
  obtain ⟨view, hview⟩ := h.exists_activeLabel
  rw [h.activate_eq, hview, View.ofLabel?_label, activeLabel_showing, Option.getD_some]

theorem ofSession_showing (active : Option View) (user : String) :
  Endpoint.ofSession ⟨(showing active).activeLabel, user⟩
    = Endpoint.ofView (active.getD .home) user
  := by
  rw [Endpoint.ofSession, activeLabel_showing, Endpoint.ofLabel_label]

/-- Whatever has been activated before, an activated text leaves the tab of the view on that it
names, and no other; and what is shown is the feed that the text leads to by itself, or the home feed
if it leads to none. Activating the label that is shown then changes nothing about that. -/
theorem activate_agrees (active : View) (texts : List String) (text user : String) :
  let bar := ((ofView active).activateAll texts).activate text
  let endpoint := Endpoint.ofSession ⟨bar.activeLabel, user⟩
  let resolved := Endpoint.ofLabel text user
  (∀ (active' : View) (texts' : List String),
      ((ofView active').activateAll texts').activate text = bar)
    ∧ (∀ view : View,
      bar.controls.filter NavControl.on = [⟨view.label, true⟩] ↔ View.ofLabel? text = some view)
    ∧ (bar.controls.filter NavControl.on = [] ↔ View.ofLabel? text = none)
    ∧ endpoint = (if resolved.isEmpty then Endpoint.ofView .home user else resolved)
    ∧ Endpoint.ofSession ⟨(bar.activate bar.activeLabel).activeLabel, user⟩ = endpoint
    ∧ ∀ view : View, View.ofLabel? text = some view ↔ View.Names text view
  := by
  intro bar endpoint resolved
  have hactivated (active' : View) (texts' : List String) :
      ((ofView active').activateAll texts').activate text = showing (View.ofLabel? text) :=
    ((standard_ofView active').activateAll texts').activate_eq text
  have hbar : bar = showing (View.ofLabel? text) := hactivated active texts
  have hstandard : bar.Standard := ((standard_ofView active).activateAll texts).activate text
  refine ⟨?_, ?_, ?_, ?_, ?_, fun _ => View.ofLabel?_eq_some_iff⟩
  · intro active' texts'
    rw [hactivated, hbar]
  · intro view
    rw [hbar]
    apply filter_on_showing_eq_singleton_iff
  · rw [hbar]
    apply filter_on_showing_eq_nil_iff
  · rw [← Endpoint.ofView_getD_home, ← ofSession_showing, ← hbar]
  · rw [hstandard.activeLabel_activate_self]

end NavBar

end FeedClient
