import FeedClient.Proofs.Post.Key
import Mathlib.Data.Set.Function

/-!
# The parts of a post key

A post key gives back the author and the time that it was made of exactly when the mark does not
stand in the author: what the time holds does not matter, nor does an author that ends as the mark
begins. Every text that holds the mark is the key of its parts.
-/

namespace FeedClient.PostKey

/-- A key is cut behind an author that does not hold the mark. -/
theorem cut_of {author : String} (h : ¬ mark.toList <:+: author.toList) (posted : String) :
  (of author posted).cut = (author.toList, posted.toList)
  := by
  have hcut := (of author posted).cutFirst?_text
  rw [toList_mark] at h
  rw [toList_text_of, toList_mark, Text.cutFirst?_append (by decide) h] at hcut
  apply (Option.some.inj hcut).symm

theorem posted_of {author : String} (h : ¬ mark.toList <:+: author.toList) (posted : String) :
  (of author posted).posted = posted
  := by
  rw [PostKey.posted, cut_of h, String.ofList_toList]

/-- A key gives back what it was made of exactly when the mark does not stand in the author. -/
theorem parts_of_eq_iff (author posted : String) :
  ((of author posted).author, (of author posted).posted) = (author, posted)
    ↔ ¬ mark.toList <:+: author.toList
  := by
  constructor
  · intro h
    apply (author_of_eq_iff author posted).mp
    apply congrArg Prod.fst h
  · intro h
    rw [(author_of_eq_iff author posted).mpr h, posted_of h]

/-- Every key is the key of its parts. -/
theorem of_author_posted (key : PostKey) :
  of key.author key.posted = key
  := by
  apply ext
  rw [← String.toList_inj, toList_text_of, author, PostKey.posted, String.toList_ofList,
    String.toList_ofList]
  apply (Text.cutFirst?_eq_append key.cutFirst?_text).symm

/-- Keys of authors that do not hold the mark are different if their parts are. -/
theorem injOn_of :
  Set.InjOn (fun parts : String × String => of parts.1 parts.2)
    {parts | ¬ mark.toList <:+: parts.1.toList}
  := by
  rintro ⟨author, posted⟩ h ⟨author', posted'⟩ h' heq
  have hauthor := congrArg PostKey.author heq
  have hposted := congrArg PostKey.posted heq
  simp only [(author_of_eq_iff _ _).mpr h, (author_of_eq_iff _ _).mpr h'] at hauthor
  simp only [posted_of h, posted_of h'] at hposted
  rw [hauthor, hposted]

theorem parse_eq_ok_iff {raw : String} {key : PostKey} :
  parse raw = .ok key ↔ key.text = raw
  := by
  constructor
  · intro h
    rw [parse] at h
    split at h
    · rw [← Except.ok.inj h]
    · cases h
  · rintro rfl
    rw [parse, dif_pos key.marked]

theorem exists_parse_eq_ok_iff (raw : String) :
  (∃ key, parse raw = .ok key) ↔ mark.toList <:+: raw.toList
  := by
  rw [← Text.occurs_iff_infix]
  constructor
  · rintro ⟨key, hkey⟩
    rw [← parse_eq_ok_iff.mp hkey]
    apply key.marked
  · intro h
    use ⟨raw, h⟩
    rw [parse_eq_ok_iff]

/-- What begins the mark but is not all of it does not bring the mark into the author before it. -/
theorem not_infix_append {author stub : List Char} (h : ¬ mark.toList <:+: author)
    (hstub : stub <+: mark.toList) (hne : stub ≠ mark.toList) :
  ¬ mark.toList <:+: author ++ stub
  := by
  rintro ⟨before, after, hinfix⟩
  obtain ⟨rest, hrest⟩ := hstub
  have hprefix : before ++ mark.toList <+: author ++ mark.toList ++ [] := by
    use after ++ rest
    rw [← List.append_assoc, hinfix, List.append_assoc, hrest, List.append_nil]
  have hle : author.length ≤ before.length := by
    rw [toList_mark] at h hprefix
    apply Text.length_le_of_cutFirst? (Text.cutFirst?_append (by decide) h []) hprefix
  -- the mark would have to end in the stub, which is shorter
  have hlength := congrArg List.length hinfix
  have hshort : stub.length < mark.toList.length := by
    rw [← hrest, List.length_append]
    apply Nat.lt_add_of_pos_right
    rw [List.length_pos_iff]
    rintro rfl
    rw [List.append_nil] at hrest
    apply hne hrest
  simp only [List.length_append] at hlength
  omega

/-- A key gives back the author and the time that it was made of exactly when the mark does not stand
in the author, which may still end as the mark begins. So keys of such authors are the same only for
the same parts. A text is a key exactly when it holds the mark, and is then the key of its parts, of
which the first does not hold the mark. -/
theorem parts_recovered :
  (∀ author posted : String,
      ((of author posted).author, (of author posted).posted) = (author, posted)
        ↔ ¬ mark.toList <:+: author.toList)
    ∧ (∀ author stub posted : String, ¬ mark.toList <:+: author.toList →
      stub.toList <+: mark.toList → stub ≠ mark →
      ((of (author ++ stub) posted).author, (of (author ++ stub) posted).posted)
        = (author ++ stub, posted))
    ∧ Set.InjOn (fun parts : String × String => of parts.1 parts.2)
      {parts | ¬ mark.toList <:+: parts.1.toList}
    ∧ (∀ raw : String, (∃ key, parse raw = .ok key) ↔ mark.toList <:+: raw.toList)
    ∧ ∀ (raw : String) (key : PostKey), parse raw = .ok key →
      key.text = raw ∧ of key.author key.posted = key ∧ ¬ mark.toList <:+: key.author.toList
  := by
  refine ⟨parts_of_eq_iff, ?_, injOn_of, exists_parse_eq_ok_iff, ?_⟩
  · intro author stub posted h hstub hne
    rw [parts_of_eq_iff, String.toList_append]
    apply not_infix_append h hstub
    rwa [ne_eq, String.toList_inj]
  · intro raw key hkey
    use parse_eq_ok_iff.mp hkey, of_author_posted key
    apply not_infix_author

/-- An author whose name ends as the mark begins is recovered, and the first of two marks ends the
author. -/
theorem parts_recovered_colon :
  ¬ mark.toList <:+: "a".toList ∧ ":post".toList <+: mark.toList ∧ ":post" ≠ mark
    ∧ ((of "a:post" "b:post_1f").author, (of "a:post" "b:post_1f").posted)
      = ("a:post", "b:post_1f")
    ∧ of "a:post" "b:post_1f" ≠ of "a" "post_b:post_1f"
    ∧ parse "a:post:post_b:post_1f" = .ok (of "a:post" "b:post_1f")
    ∧ ¬ mark.toList <:+: (of "a:post" "b:post_1f").author.toList
  := by
  obtain ⟨-, hstub, hinj, -, hkey⟩ := parts_recovered
  have hplain : ¬ mark.toList <:+: "a".toList := by decide
  have hprefix : ":post".toList <+: mark.toList := by decide
  have hne : ":post" ≠ mark := by decide
  have hparse : parse "a:post:post_b:post_1f" = .ok (of "a:post" "b:post_1f") := by
    rw [parse_eq_ok_iff]
    decide
  have hauthor := (hkey _ _ hparse).2.2
  refine ⟨hplain, hprefix, hne, hstub "a" ":post" "b:post_1f" hplain hprefix hne, ?_, hparse,
    hauthor⟩
  have hcolon : ¬ mark.toList <:+: "a:post".toList := by decide
  intro heq
  have hsame := @hinj ("a:post", "b:post_1f") hcolon ("a", "post_b:post_1f") hplain heq
  revert hsame
  decide

end FeedClient.PostKey
