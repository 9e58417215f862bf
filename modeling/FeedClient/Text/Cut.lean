/-!
# Cutting a text at a mark

`cutFirst?` cuts a text at the first occurrence of a mark, `cutLast?` at the last occurrence of a
character. Neither loses anything: the two parts and the mark between them are the text.
-/

namespace FeedClient.Text

/-- The parts of a text before and after the first occurrence of `mark`. -/
def cutFirst? (mark : List Char) : List Char → Option (List Char × List Char)
  | [] => if mark.isPrefixOf [] then some ([], []) else none
  | c :: rest =>
    if mark.isPrefixOf (c :: rest) then some ([], (c :: rest).drop mark.length)
    else (cutFirst? mark rest).map fun (before, after) => (c :: before, after)

/-- The parts of a text before and after the last occurrence of the character `mark`. -/
def cutLast? (mark : Char) : List Char → Option (List Char × List Char)
  | [] => none
  | c :: rest =>
    match cutLast? mark rest with
    | some (before, after) => some (c :: before, after)
    | none => if c = mark then some ([], rest) else none

/-- Whether `mark` occurs in a text. -/
def occurs (mark s : List Char) : Bool :=
  (cutFirst? mark s).isSome

theorem cutFirst?_eq_append {mark s before after : List Char}
    (h : cutFirst? mark s = some (before, after)) :
    s = before ++ mark ++ after
  := by
  induction s generalizing before after with
  | nil =>
    simp only [cutFirst?] at h
    split at h
    · next hp =>
      obtain ⟨rfl, rfl⟩ : [] = before ∧ [] = after := by simpa using h
      simpa using hp
    · simp at h
  | cons c rest ih =>
    simp only [cutFirst?] at h
    split at h
    · next hp =>
      obtain ⟨rfl, rfl⟩ : [] = before ∧ (c :: rest).drop mark.length = after := by simpa using h
      obtain ⟨tail, ht⟩ := List.isPrefixOf_iff_prefix.1 hp
      rw [← ht]
      simp
    · obtain ⟨⟨b, a⟩, hcut, heq⟩ := Option.map_eq_some_iff.1 h
      obtain ⟨rfl, rfl⟩ : c :: b = before ∧ a = after := by simpa using heq
      simp [ih hcut]

theorem cutLast?_eq_append {mark : Char} {s before after : List Char}
    (h : cutLast? mark s = some (before, after)) :
    s = before ++ mark :: after
  := by
  induction s generalizing before after with
  | nil => simp [cutLast?] at h
  | cons c rest ih =>
    simp only [cutLast?] at h
    split at h
    · next b a hcut =>
      obtain ⟨rfl, rfl⟩ : c :: b = before ∧ a = after := by simpa using h
      simp [ih hcut]
    · split at h
      · next hc =>
        obtain ⟨rfl, rfl⟩ : [] = before ∧ rest = after := by simpa using h
        simp [hc]
      · simp at h

/-- A mark occurs in every text that is built around it. -/
theorem occurs_append (mark before after : List Char) :
    occurs mark (before ++ mark ++ after) = true
  := by
  induction before with
  | nil =>
    have hp : mark.isPrefixOf (mark ++ after) = true :=
      List.isPrefixOf_iff_prefix.2 (List.prefix_append mark after)
    cases hs : mark ++ after with
    | nil => rw [hs] at hp; simp [occurs, hs, cutFirst?, hp]
    | cons c rest => rw [hs] at hp; simp [occurs, hs, cutFirst?, hp]
  | cons c rest ih =>
    simp only [occurs, List.cons_append, cutFirst?] at ih ⊢
    split
    · rfl
    · rw [Option.isSome_map]
      exact ih

end FeedClient.Text
