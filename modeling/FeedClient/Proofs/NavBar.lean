import FeedClient.Endpoint
import Mathlib.Data.List.Nodup

/-!
# What the navigation bar shows

The bar of a client always has one tab for each view, in the order of the views; such a bar is
called standard. Whatever text is activated on a standard bar, what it shows afterwards depends on
that text alone: the view that the text names, and the home view when it names none. So a standard
bar always shows a view, and there is always a feed to fetch for it. No two tabs of a standard bar
are called the same, and so an activation turns on at most one of them.
-/

namespace FeedClient

namespace View

theorem trim_label (view : View) :
  Text.trim view.label.toList = view.label.toList
  := by
  cases view <;> decide

/-- A view is the one that its own label names. -/
theorem ofLabel?_label (view : View) :
  ofLabel? view.label = some view
  := by
  rw [ofLabel?, trim_label]
  cases view <;> decide

/-- The label that is shown once a text has been activated: the text without the blanks around it
when a view is called so, and the label of the home view otherwise. -/
def shownLabel (text : String) : String :=
  let name := String.ofList (Text.trim text.toList)
  if name ∈ all.map label then name else home.label

end View

namespace Endpoint

/-- The label of a view leads to the feed of that view. -/
theorem ofLabel_label (view : View) (user : String) :
  ofLabel view.label user = ofView view user
  := by
  rw [ofLabel, View.ofLabel?_label]

theorem isEmpty_ofView (view : View) (user : String) :
  (ofView view user).isEmpty = false
  := by
  cases view <;> rfl

theorem user_ofView (view : View) (user : String) :
  (ofView view user).user = user
  := by
  cases view <;> rfl

end Endpoint

namespace NavBar

/-- The bar has one tab for each view, in the order of the views. -/
def Standard (bar : NavBar) : Prop :=
  bar.controls.map NavControl.label = View.all.map View.label

theorem standard_ofView (active : View) :
  (ofView active).Standard
  := by
  cases active <;> rfl

theorem Standard.activate {bar : NavBar} (h : bar.Standard) (text : String) :
  (bar.activate text).Standard
  := by
  rw [Standard, NavBar.activate, List.map_map]
  apply h

/-- At most one tab of the bar is on. -/
def Exclusive (bar : NavBar) : Prop :=
  bar.controls.countP NavControl.on ≤ 1

theorem exclusive_ofView (active : View) :
  (ofView active).Exclusive
  := by
  rw [Exclusive]
  cases active <;> decide

/-- Looking for a name among labels that are all different finds it at most once. -/
private theorem countP_label_le_one {labels : List String} (h : labels.Nodup) (name : List Char) :
  (labels.countP fun label => label.toList == name) ≤ 1
  := by
  have hcount : (labels.countP fun label => label.toList == name)
      = labels.count (String.ofList name) := by
    apply List.countP_congr
    intro label hmem
    rw [beq_iff_eq, beq_iff_eq, String.ext_iff, String.toList_ofList]
  rw [hcount]
  apply List.nodup_iff_count_le_one.mp h

theorem Standard.exclusive_activate {bar : NavBar} (h : bar.Standard) (text : String) :
  (bar.activate text).Exclusive
  := by
  have hlabels : (bar.controls.map NavControl.label).Nodup := by
    rw [h]
    decide
  have hcount := countP_label_le_one hlabels (Text.trim text.toList)
  rw [List.countP_map] at hcount
  rw [Exclusive, NavBar.activate, List.countP_map]
  apply hcount

theorem activeLabel_ofView (active : View) :
  (ofView active).activeLabel = active.label
  := by
  cases active <;> rfl

/-- After an activation, the tab that is on is the first whose label is the activated text. -/
theorem activeLabel_activate_eq (bar : NavBar) (text : String) :
  (bar.activate text).activeLabel
    = ((bar.controls.map NavControl.label).find? fun label =>
        label.toList == Text.trim text.toList).getD View.home.label
  := by
  rw [activeLabel, activate, List.find?_map, List.find?_map]
  simp only [Function.comp_def]
  cases bar.controls.find? fun control => control.label.toList == Text.trim text.toList <;> rfl

/-- Looking for a name among labels finds the name itself, or nothing. -/
private theorem getD_find?_label (labels : List String) (name : List Char) (fallback : String) :
  (labels.find? fun label => label.toList == name).getD fallback
    = if String.ofList name ∈ labels then String.ofList name else fallback
  := by
  cases h : labels.find? fun label => label.toList == name with
  | none =>
      have habsent : String.ofList name ∉ labels := by
        intro hmem
        have hne := List.find?_eq_none.mp h _ hmem
        apply hne
        simp
      rw [if_neg habsent, Option.getD_none]
  | some label =>
      have hlabel : String.ofList name = label := by
        have heq := List.find?_some h
        rw [← beq_iff_eq.mp heq, String.ofList_toList]
      rw [hlabel, if_pos (List.mem_of_find?_eq_some h), Option.getD_some]

/-- What a standard bar shows after an activation depends on the activated text alone. -/
theorem Standard.activeLabel_activate {bar : NavBar} (h : bar.Standard) (text : String) :
  (bar.activate text).activeLabel = View.shownLabel text
  := by
  rw [activeLabel_activate_eq, h]
  apply getD_find?_label

/-- A standard bar always shows a view. -/
theorem Standard.exists_activeLabel {bar : NavBar} (h : bar.Standard) :
  ∃ view : View, bar.activeLabel = view.label
  := by
  rw [activeLabel]
  cases hon : bar.controls.find? NavControl.on with
  | none => use View.home
  | some control =>
      have hmem := List.mem_map_of_mem (f := NavControl.label) (List.mem_of_find?_eq_some hon)
      rw [h] at hmem
      obtain ⟨view, -, hview⟩ := List.mem_map.mp hmem
      use view
      apply hview.symm

/-- There is always a feed to fetch for what a standard bar shows. -/
theorem Standard.isEmpty_ofSession {bar : NavBar} (h : bar.Standard) (user : String) :
  (Endpoint.ofSession ⟨bar.activeLabel, user⟩).isEmpty = false
  := by
  obtain ⟨view, hview⟩ := h.exists_activeLabel
  rw [Endpoint.ofSession, hview, Endpoint.ofLabel_label]
  apply Endpoint.isEmpty_ofView

/-- The feed of a standard bar is the timeline of the user when the bar shows the tab of timelines,
and the home feed otherwise. -/
theorem Standard.ofSession_eq {bar : NavBar} (h : bar.Standard) (user : String) :
  Endpoint.ofSession ⟨bar.activeLabel, user⟩
    = ⟨if bar.activeLabel = View.myTimeline.label then "/timeline" else "/home", user⟩
  := by
  obtain ⟨view, hview⟩ := h.exists_activeLabel
  rw [Endpoint.ofSession, hview, Endpoint.ofLabel_label]
  cases view <;> rfl

theorem Standard.user_ofSession {bar : NavBar} (h : bar.Standard) (user : String) :
  (Endpoint.ofSession ⟨bar.activeLabel, user⟩).user = user
  := by
  obtain ⟨view, hview⟩ := h.exists_activeLabel
  rw [Endpoint.ofSession, hview, Endpoint.ofLabel_label]
  apply Endpoint.user_ofView

end NavBar

end FeedClient
