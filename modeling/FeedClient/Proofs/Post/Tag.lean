import FeedClient.Proofs.Post.Key
import FeedClient.Proofs.Time.Stamp

/-!
# What tags lead back to

The end of a tag is taken off only if it is a point and the letter of a control, behind a text that
holds the mark of post keys; every other tag is left as it is. The person that a tag names stands
before the first mark, and so does not depend on what is taken off. A post key that is used as a tag
leads back to itself unless the time in it ends like the id of a control, which no timestamp does.
-/

namespace FeedClient.Tag

/-- The person that a tag names: what stands before the first mark of post keys, or the whole tag if
the mark does not stand in it. -/
inductive Names (tag : String) : String → Prop
  | author {before : List Char} (hmark : before ++ PostKey.mark.toList <+: tag.toList)
      (hfirst : ∀ other, other ++ PostKey.mark.toList <+: tag.toList →
        before.length ≤ other.length) :
    Names tag (String.ofList before)
  | whole (hmark : ¬ PostKey.mark.toList <:+: tag.toList) : Names tag tag

/-! ### Stems -/

/-- A tag loses the end of a control id, or it is its own stem and does not end like one. -/
theorem stem_cases (tag : String) :
  (∃ (key : List Char) (kind : ControlKind), tag.toList = key ++ ['.', kind.letter]
      ∧ PostKey.mark.toList <:+: key ∧ stem tag = String.ofList key)
    ∨ stem tag = tag ∧ ∀ (key : List Char) (kind : ControlKind),
      tag.toList = key ++ ['.', kind.letter] → ¬ PostKey.mark.toList <:+: key
  := by
  by_cases h : ∃ (key : List Char) (kind : ControlKind), tag.toList = key ++ ['.', kind.letter]
      ∧ PostKey.mark.toList <:+: key
  · left
    obtain ⟨key, kind, htag, hkey⟩ := h
    use key, kind, htag, hkey
    apply stem_eq_of_toList htag hkey
  · right
    constructor
    · rw [stem]
      split
      · next key letter hcut =>
          split
          · next hcontrol =>
              obtain ⟨hoccurs, hletter⟩ := Bool.and_eq_true_iff.mp hcontrol
              obtain ⟨kind, rfl⟩ := isLetter_iff.mp hletter
              apply absurd _ h
              use key, kind, Text.cutLast?_eq_append hcut
              apply Text.occurs_iff_infix.mp hoccurs
          · rfl
      · rfl
    · intro key kind htag hkey
      apply h
      use key, kind

/-- A tag is its own stem exactly when it does not end like the id of a control. -/
theorem stem_eq_self_iff (tag : String) :
  stem tag = tag ↔ ∀ (key : List Char) (kind : ControlKind),
    tag.toList = key ++ ['.', kind.letter] → ¬ PostKey.mark.toList <:+: key
  := by
  obtain ⟨key, kind, htag, hkey, hstem⟩ | ⟨hstem, hends⟩ := stem_cases tag
  · constructor
    · intro heq
      rw [heq] at hstem
      rw [hstem, String.toList_ofList] at htag
      apply absurd (congrArg List.length htag)
      simp
    · intro hends
      apply absurd hkey (hends key kind htag)
  · constructor
    · intro _
      apply hends
    · intro _
      apply hstem

/-! ### Persons -/

/-- A tag and its stem hold the first mark behind the same text. -/
theorem cutFirst?_stem (tag : String) :
  (Text.cutFirst? PostKey.mark.toList (stem tag).toList).map Prod.fst
    = (Text.cutFirst? PostKey.mark.toList tag.toList).map Prod.fst
  := by
  obtain ⟨key, kind, htag, hkey, hstem⟩ | ⟨hstem, -⟩ := stem_cases tag
  · obtain ⟨⟨before, after⟩, hcut⟩ :=
      Option.isSome_iff_exists.mp (Text.occurs_iff_infix.mpr hkey)
    have hbefore := Text.not_infix_of_cutFirst? (by decide) hcut
    have hkey := Text.cutFirst?_eq_append hcut
    rw [hstem, String.toList_ofList, htag, hcut, hkey, List.append_assoc, PostKey.toList_mark]
    rw [PostKey.toList_mark] at hbefore
    rw [Text.cutFirst?_append (by decide) hbefore]
    rfl
  · rw [hstem]

/-- Every tag names the person that it points at. -/
theorem names_author (tag : String) :
  Names tag (author tag)
  := by
  have hstem := cutFirst?_stem tag
  rw [author]
  cases hcut : Text.cutFirst? PostKey.mark.toList (stem tag).toList with
  | some parts =>
      obtain ⟨before, rest⟩ := parts
      rw [hcut] at hstem
      obtain ⟨⟨_, after⟩, htag, rfl⟩ := Option.map_eq_some_iff.mp hstem.symm
      apply Names.author
      · rw [Text.cutFirst?_eq_append htag]
        apply List.prefix_append
      · intro other hother
        apply Text.length_le_of_cutFirst? htag hother
  | none =>
      rw [hcut, Option.map_none, eq_comm, Option.map_eq_none_iff] at hstem
      have hmark : ¬ PostKey.mark.toList <:+: tag.toList := by
        rw [← Text.occurs_iff_infix, Text.occurs, hstem]
        decide
      -- what is taken off stands behind a mark
      obtain ⟨key, kind, htag, hkey, -⟩ | ⟨heq, -⟩ := stem_cases tag
      · apply absurd _ hmark
        rw [htag]
        apply hkey.trans (List.prefix_append _ _).isInfix
      · rw [heq]
        apply Names.whole hmark

/-- A tag names one person. -/
theorem Names.unique {tag name name' : String} (h : Names tag name) (h' : Names tag name') :
  name = name'
  := by
  cases h with
  | author hmark hfirst =>
      cases h' with
      | author hmark' hfirst' =>
          have hlength := Nat.le_antisymm (hfirst _ hmark') (hfirst' _ hmark)
          have hbefore := (List.prefix_append _ _).trans hmark
          have hbefore' := (List.prefix_append _ _).trans hmark'
          rw [List.prefix_iff_eq_take.mp hbefore, List.prefix_iff_eq_take.mp hbefore', hlength]
      | whole hplain =>
          apply absurd _ hplain
          apply (List.suffix_append _ _).isInfix.trans hmark.isInfix
  | whole hplain =>
      cases h' with
      | author hmark' hfirst' =>
          apply absurd _ hplain
          apply (List.suffix_append _ _).isInfix.trans hmark'.isInfix
      | whole hplain' => rfl

/-- The person that a tag points at is the one that it names. -/
theorem author_eq_iff {tag name : String} :
  author tag = name ↔ Names tag name
  := by
  constructor
  · rintro rfl
    apply names_author
  · intro h
    apply (names_author tag).unique h

/-! ### Keys as tags -/

/-- A point and a letter at the end of a key are the end of its time: the mark does not end so. -/
theorem suffix_text_iff (c : Char) (author posted : String) :
  ['.', c] <:+ (PostKey.of author posted).text.toList ↔ ['.', c] <:+ posted.toList
  := by
  rw [PostKey.toList_text_of]
  constructor
  · intro h
    have hmark : 't' :: '_' :: posted.toList
        <:+ author.toList ++ PostKey.mark.toList ++ posted.toList := by
      use author.toList ++ [':', 'p', 'o', 's']
      rw [PostKey.toList_mark]
      simp
    have hshort : ['.', c].length ≤ ('t' :: '_' :: posted.toList).length := by
      apply Nat.le_add_left
    have hends := List.suffix_of_suffix_length_le h hmark hshort
    rw [List.suffix_cons_iff, List.suffix_cons_iff] at hends
    obtain heq | heq | hends := hends
    · apply absurd (List.cons.inj heq).1 (by decide)
    · apply absurd (List.cons.inj heq).1 (by decide)
    · apply hends
  · intro h
    apply h.trans (List.suffix_append _ _)

/-- A key is its own stem exactly when its time does not end like the id of a control. -/
theorem stem_text_eq_iff (author posted : String) :
  stem (PostKey.of author posted).text = (PostKey.of author posted).text
    ↔ ¬ ∃ kind : ControlKind, ['.', kind.letter] <:+ posted.toList
  := by
  rw [stem_eq_self_iff]
  constructor
  · rintro hends ⟨kind, rest, hrest⟩
    apply hends (author.toList ++ PostKey.mark.toList ++ rest) kind
    · rw [PostKey.toList_text_of, ← hrest, List.append_assoc _ rest]
    · use author.toList, rest
  · intro hends key kind htext _
    apply hends
    use kind
    rw [← suffix_text_iff _ author, htext]
    apply List.suffix_append

/-- The ends of the ids of controls. -/
theorem exists_letter_suffix_iff (posted : List Char) :
  (∃ kind : ControlKind, ['.', kind.letter] <:+ posted)
    ↔ ['.', 'a'] <:+ posted ∨ ['.', 'b'] <:+ posted ∨ ['.', 'c'] <:+ posted
  := by
  constructor
  · rintro ⟨kind, hends⟩
    cases kind with
    | subscribe => exact .inl hends
    | unsubscribe => exact .inr (.inl hends)
    | delete => exact .inr (.inr hends)
  · rintro (hends | hends | hends)
    · exact ⟨.subscribe, hends⟩
    · exact ⟨.unsubscribe, hends⟩
    · exact ⟨.delete, hends⟩

/-- No timestamp ends like the id of a control. -/
theorem not_suffix_of_parse {posted : String} {nanos : Int64} (h : Stamp.parse posted = .ok nanos) :
  ¬ ∃ kind : ControlKind, ['.', kind.letter] <:+ posted.toList
  := by
  rintro ⟨kind, hends⟩
  have hpoint : '.' ∈ posted.toList := hends.subset List.mem_cons_self
  apply absurd ((Stamp.parse_eq_ok_iff.mp h).mem hpoint) (by decide)

end FeedClient.Tag
