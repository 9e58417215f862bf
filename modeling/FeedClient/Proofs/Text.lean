import FeedClient.Post.Control
import Mathlib.Data.List.Basic

/-!
# Marks in texts

A mark occurs in a text when it stands somewhere in it. Taking the end of a control id off a tag
neither brings the mark of post keys into the tag nor takes it out, so a tag leads to a post key
exactly when the mark stands in it.
-/

namespace FeedClient

/-- A mark occurs in a text when it stands somewhere in it. -/
theorem Text.occurs_iff_infix {mark s : List Char} :
  occurs mark s = true ↔ mark <:+: s
  := by
  constructor
  · intro h
    obtain ⟨⟨before, after⟩, hcut⟩ := Option.isSome_iff_exists.mp h
    use before, after
    apply (cutFirst?_eq_append hcut).symm
  · rintro ⟨before, after, rfl⟩
    apply occurs_append

namespace Tag

/-- The mark of post keys stands in a tag exactly when it stands in its stem. -/
theorem occurs_stem (tag : String) :
  Text.occurs PostKey.mark.toList (stem tag).toList = Text.occurs PostKey.mark.toList tag.toList
  := by
  rw [stem]
  split
  · next key letter hcut =>
      split
      · next hcontrol =>
          -- the key holds the mark, and the tag begins with the key
          have hkey := (Bool.and_eq_true_iff.mp hcontrol).1
          obtain ⟨before, after, hinfix⟩ := Text.occurs_iff_infix.mp hkey
          rw [String.toList_ofList, hkey]
          symm
          apply Text.occurs_iff_infix.mpr
          use before, after ++ '.' :: letter
          rw [Text.cutLast?_eq_append hcut, ← hinfix, ← List.append_assoc]
      · rfl
  · rfl

end Tag

/-- A tag leads to a post key exactly when the mark of post keys stands in it. -/
theorem PostKey.parse_stem_of_occurs {tag : String}
    (h : Text.occurs mark.toList tag.toList = true) :
  ∃ key, parse (Tag.stem tag) = .ok key ∧ key.text = Tag.stem tag
  := by
  rw [← Tag.occurs_stem] at h
  use ⟨Tag.stem tag, h⟩
  rw [parse, dif_pos h]
  exact ⟨rfl, rfl⟩

theorem PostKey.parse_stem_of_not_occurs {tag : String}
    (h : Text.occurs mark.toList tag.toList = false) :
  parse (Tag.stem tag) = .error ⟨Tag.stem tag⟩
  := by
  rw [← Tag.occurs_stem, ← Bool.not_eq_true] at h
  rw [parse, dif_neg h]

end FeedClient
