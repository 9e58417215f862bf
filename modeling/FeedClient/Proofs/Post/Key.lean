import FeedClient.Proofs.Text

/-!
# What a key and a control id lead back to

The mark of post keys starts with a character that does not stand in the rest of it, so it cannot
begin in an author and end in the mark behind it. Hence a key names the author whom it was made for
exactly when the mark does not stand in the author's name. The id of a control leads back to the key
of its post always.
-/

namespace FeedClient

namespace Text

/-- What stands before the first mark does not hold it. -/
theorem not_infix_of_cutFirst? {mark s before after : List Char} (hmark : mark ≠ [])
    (h : cutFirst? mark s = some (before, after)) :
  ¬ mark <:+: before
  := by
  induction s generalizing before after with
  | nil =>
      obtain ⟨-, heq⟩ := Option.ite_none_right_eq_some.mp h
      obtain ⟨rfl, -⟩ := Prod.mk.inj (Option.some.inj heq)
      simpa using hmark
  | cons c rest ih =>
      rw [cutFirst?] at h
      split at h
      · obtain ⟨rfl, -⟩ := Prod.mk.inj (Option.some.inj h)
        simpa using hmark
      · next hprefix =>
          obtain ⟨⟨b, a⟩, hcut, heq⟩ := Option.map_eq_some_iff.mp h
          obtain ⟨rfl, rfl⟩ := Prod.mk.inj heq
          rw [List.infix_cons_iff]
          rintro (hstart | hinfix)
          · apply hprefix
            rw [List.isPrefixOf_iff_prefix, cutFirst?_eq_append hcut]
            apply hstart.trans
            use mark ++ a
            rw [← List.append_assoc]
            rfl
          · apply ih hcut hinfix

/-- A text is cut where the mark stands first. -/
theorem length_le_of_cutFirst? {mark s before after other : List Char}
    (h : cutFirst? mark s = some (before, after)) (hother : other ++ mark <+: s) :
  before.length ≤ other.length
  := by
  induction s generalizing before after other with
  | nil =>
      obtain ⟨-, heq⟩ := Option.ite_none_right_eq_some.mp h
      obtain ⟨rfl, -⟩ := Prod.mk.inj (Option.some.inj heq)
      apply Nat.zero_le
  | cons c rest ih =>
      rw [cutFirst?] at h
      split at h
      · obtain ⟨rfl, -⟩ := Prod.mk.inj (Option.some.inj h)
        apply Nat.zero_le
      · next hprefix =>
          obtain ⟨⟨b, a⟩, hcut, heq⟩ := Option.map_eq_some_iff.mp h
          obtain ⟨rfl, rfl⟩ := Prod.mk.inj heq
          cases other with
          | nil => apply absurd (List.isPrefixOf_iff_prefix.mpr hother) hprefix
          | cons d other =>
              apply Nat.succ_le_succ
              apply ih hcut (List.cons_prefix_cons.mp hother).2

/-- A mark whose first character does not stand in the rest of it does not start in a text that does
not hold it, and end behind it. -/
private theorem not_prefix_append {m c : Char} {tail s : List Char} (hm : m ∉ tail)
    (h : ¬ m :: tail <:+: c :: s) (after : List Char) :
  ¬ m :: tail <+: c :: s ++ m :: tail ++ after
  := by
  intro hprefix
  rw [List.append_assoc] at hprefix
  obtain hmark | ⟨rest, hrest⟩ :=
    List.prefix_or_prefix_of_prefix hprefix (List.prefix_append (c :: s) _)
  · apply h hmark.isInfix
  · -- the mark ends behind the text, where it would have to start once more
    obtain ⟨-, htail⟩ := List.cons.inj hrest
    rw [← hrest, List.prefix_append_right_inj, hrest] at hprefix
    cases rest with
    | nil =>
        rw [List.append_nil] at hrest
        rw [hrest] at h
        apply h List.infix_rfl
    | cons d rest =>
        obtain ⟨rfl, -⟩ := List.cons_prefix_cons.mp hprefix
        apply hm
        rw [← htail]
        apply List.mem_append_right _ List.mem_cons_self

/-- A text is cut at the mark behind a part that does not hold it, if the first character of the
mark does not stand in the rest of it. -/
theorem cutFirst?_append {m : Char} {tail before : List Char} (hm : m ∉ tail)
    (h : ¬ m :: tail <:+: before) (after : List Char) :
  cutFirst? (m :: tail) (before ++ m :: tail ++ after) = some (before, after)
  := by
  induction before with
  | nil =>
      have hprefix : (m :: tail).isPrefixOf (m :: (tail ++ after)) := by
        rw [List.isPrefixOf_iff_prefix]
        apply List.prefix_append
      rw [List.nil_append, List.cons_append, cutFirst?, if_pos hprefix, ← List.cons_append,
        List.drop_left]
  | cons c before ih =>
      have hprefix := not_prefix_append hm h after
      rw [← List.isPrefixOf_iff_prefix] at hprefix
      have hbefore : ¬ m :: tail <:+: before := by
        intro hinfix
        apply h
        apply List.infix_cons hinfix
      rw [List.cons_append, List.cons_append] at hprefix ⊢
      rw [cutFirst?, if_neg hprefix, ih hbefore]
      rfl

/-- A text is cut at a character that does not stand behind it. -/
theorem cutLast?_append {mark : Char} {after : List Char} (h : mark ∉ after)
    (before : List Char) :
  cutLast? mark (before ++ mark :: after) = some (before, after)
  := by
  have hafter : cutLast? mark after = none := by
    rw [Option.eq_none_iff_forall_ne_some]
    rintro ⟨b, a⟩ hcut
    apply h
    rw [cutLast?_eq_append hcut]
    apply List.mem_append_right _ List.mem_cons_self
  induction before with
  | nil => rw [List.nil_append, cutLast?, hafter, if_pos rfl]
  | cons c before ih => rw [List.cons_append, cutLast?, ih]

end Text

namespace PostKey

theorem toList_mark :
  mark.toList = ':' :: ['p', 'o', 's', 't', '_']
  := rfl

theorem toList_text_of (author posted : String) :
  (of author posted).text.toList = author.toList ++ mark.toList ++ posted.toList
  := by
  rw [of, String.toList_append, String.toList_append]

/-- A key is cut at its first mark. -/
theorem cutFirst?_text (key : PostKey) :
  Text.cutFirst? mark.toList key.text.toList = some key.cut
  := (Option.some_get _).symm

/-- The author that a key names does not hold the mark. -/
theorem not_infix_author (key : PostKey) :
  ¬ mark.toList <:+: key.author.toList
  := by
  rw [author, String.toList_ofList]
  apply Text.not_infix_of_cutFirst? (by decide) key.cutFirst?_text

/-- A key names the author whom it was made for exactly when the author does not hold the mark. -/
theorem author_of_eq_iff (author posted : String) :
  (of author posted).author = author ↔ ¬ mark.toList <:+: author.toList
  := by
  constructor
  · intro h
    rw [← h]
    apply not_infix_author
  · intro h
    have hcut := (of author posted).cutFirst?_text
    rw [toList_mark] at h
    rw [toList_text_of, toList_mark, Text.cutFirst?_append (by decide) h] at hcut
    rw [PostKey.author, ← Option.some.inj hcut, String.ofList_toList]

end PostKey

namespace Tag

theorem isLetter_iff {s : List Char} :
  isLetter s = true ↔ ∃ kind : ControlKind, s = [kind.letter]
  := by
  rw [isLetter, List.any_eq_true]
  constructor
  · rintro ⟨kind, -, heq⟩
    use kind
    apply (beq_iff_eq.mp heq).symm
  · rintro ⟨kind, rfl⟩
    use kind
    cases kind <;> decide

/-- The end of a control id is taken off a tag that holds the mark before it. -/
theorem stem_eq_of_toList {tag : String} {key : List Char} {kind : ControlKind}
    (h : tag.toList = key ++ ['.', kind.letter]) (hkey : PostKey.mark.toList <:+: key) :
  stem tag = String.ofList key
  := by
  have hpoint : '.' ∉ [kind.letter] := by cases kind <;> decide
  have hletter : isLetter [kind.letter] = true := isLetter_iff.mpr ⟨kind, rfl⟩
  have hoccurs := Text.occurs_iff_infix.mpr hkey
  rw [stem, h, Text.cutLast?_append hpoint]
  simp only [hoccurs, hletter, Bool.and_self, if_true]

end Tag

namespace Control

theorem toList_id (key : PostKey) (kind : ControlKind) :
  (of key kind).id.toList = key.text.toList ++ ['.', kind.letter]
  := by
  have hletter : (String.ofList [kind.letter]).toList = [kind.letter] := String.toList_ofList
  rw [of, String.toList_append, String.toList_append, List.append_assoc, hletter]
  rfl

/-- The id of a control leads back to the key of its post. -/
theorem stem_id (key : PostKey) (kind : ControlKind) :
  Tag.stem (of key kind).id = key.text
  := by
  rw [Tag.stem_eq_of_toList (toList_id key kind) (Text.occurs_iff_infix.mp key.marked),
    String.ofList_toList]

/-- The id of a control points at the author that the key of its post names. -/
theorem author_id (key : PostKey) (kind : ControlKind) :
  Tag.author (of key kind).id = key.author
  := by
  rw [Tag.author, stem_id, key.cutFirst?_text]
  rfl

theorem parse_stem_id (key : PostKey) (kind : ControlKind) :
  PostKey.parse (Tag.stem (of key kind).id) = .ok key
  := by
  rw [stem_id, PostKey.parse, dif_pos key.marked]

end Control

end FeedClient
