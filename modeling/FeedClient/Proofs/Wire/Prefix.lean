import FeedClient.Proofs.Json.Prefix
import FeedClient.Proofs.Wire.RoundTrip

/-!
# Records that are cut short or go on

What is written for a record is truncated wherever it is cut short; and behind a text that is read as
a record there may only be white space. So a body that breaks off, or one that goes on, is never
taken for a record.
-/

namespace FeedClient.Wire

open Json (Shape Value Unfinished Writes Breakable)

/-! ### Members that are cut short -/

theorem breakable_texts (texts : List (String × String)) :
  Breakable (texts.map fun (name, _) => (name, .text)) (texts.map fun (name, s) => textMember name s)
  := by
  intro p hp shape hshape
  obtain ⟨⟨name, s⟩, -, rfl⟩ := List.mem_map.mp hp
  obtain ⟨before, after, hparts, -⟩ := List.lookup_eq_some_iff.mp hshape
  have hmem : (name, shape) ∈ texts.map fun (name, _) => (name, Shape.text) := by
    rw [hparts]
    simp [textMember]
  obtain ⟨_, -, heq⟩ := List.mem_map.mp hmem
  cases heq
  exact Json.unfinished_quote rfl

theorem breakable_status {all : List (String × Shape)}
    (hshape : all.lookup "Status" = some (.optional .integer)) (status : Option Status) :
  Breakable all (statusMember status)
  := by
  cases status with
  | none => apply Json.breakable_nil
  | some status =>
      apply Breakable.cons hshape _ (Json.breakable_nil all)
      exact Json.unfinished_writeInt (fun _ _ => accept_status) status.code

theorem unfinished_post (post : Post) :
  Unfinished (.kept (Record.shape Post)) (Record.write post)
  := Json.unfinished_writeObject (by decide) (writes_post post)
    (breakable_texts [("UserID", post.author), ("Contents", post.contents), ("Posted", post.posted)])

/-- The posts of a feed can be cut short. -/
theorem unfinished_posts (posts : Option (List Post)) :
  Unfinished (.kept (.optional (.list (Record.shape Post))))
    (match posts with
      | some posts => Json.writeArray (posts.map Record.write)
      | none => Json.writeNull)
  := by
  cases posts with
  | none => apply Json.unfinished_writeNull
  | some posts =>
      obtain ⟨vs, hstands, -⟩ := exists_values posts fun post _ => written_post post
      apply Json.unfinished_writeArray (fun _ => rfl) hstands
      intro text htext
      obtain ⟨post, -, rfl⟩ := List.mem_map.mp htext
      apply unfinished_post

/-! ### Records that are cut short -/

/-- What is written for the record, cut short anywhere, is truncated. -/
def Severable {α : Type} [Record α] (a : α) : Prop :=
  ∀ cut : String, cut.toList <+: (encode a).toList → cut ≠ encode a →
    decode α cut = .error .truncated

theorem severable_of {α : Type} [Record α] {a : α} {all : List (String × Shape)}
    {members : List (String × List Char)} {vs : List (String × Value)}
    (hshape : Record.shape α = .record all) (hwrite : Record.write a = Json.writeObject members)
    (hnodup : (all.map Prod.fst).Nodup) (h : Writes all members vs)
    (hbreakable : Breakable all members) :
  Severable a
  := by
  intro cut hcut hne
  have hencode : (encode a).toList = Json.writeObject members := by
    rw [encode, String.toList_ofList, hwrite]
  have hne' : cut.toList ≠ Json.writeObject members := by
    intro heq
    apply hne
    apply String.toList_injective
    rw [heq, hencode]
  rw [hencode] at hcut
  apply decode_of_read
  rw [hshape]
  apply Json.read_of_prefix_writeObject hnodup h hbreakable hcut hne'

theorem severable_post (post : Post) :
  Severable post
  := severable_of rfl rfl (by decide) (writes_post post)
    (breakable_texts [("UserID", post.author), ("Contents", post.contents), ("Posted", post.posted)])

theorem severable_newPost (args : NewPost) :
  Severable args
  := severable_of rfl rfl (by decide) (writes_newPost args)
    (breakable_texts [("UserID", args.user), ("Contents", args.contents)])

theorem severable_newUser (args : NewUser) :
  Severable args
  := severable_of rfl rfl (by decide) (writes_newUser args) (breakable_texts [("UserID", args.user)])

theorem severable_feedReply (reply : FeedReply) :
  Severable reply
  := by
  obtain ⟨v, hstands, -⟩ := exists_posts reply.posts
  obtain ⟨w, hstatus, -⟩ := exists_status reply.status
  apply severable_of rfl rfl (by decide) (.written hstands hstatus)
  exact .cons rfl (unfinished_posts reply.posts) (breakable_status rfl reply.status)

theorem severable_mutationReply (reply : MutationReply) :
  Severable reply
  := by
  obtain ⟨postKey, status⟩ := reply
  obtain ⟨w, hstatus, -⟩ := exists_status status
  have hbreakable : Breakable [("PostKey", .optional .text), ("Status", .optional .integer)]
      (statusMember status) := breakable_status rfl status
  cases postKey with
  | none => exact severable_of rfl rfl (by decide) (.absent rfl hstatus) hbreakable
  | some key =>
      apply severable_of rfl rfl (by decide) (.written (stands_text key rfl) hstatus)
      exact .cons rfl (Json.unfinished_quote rfl) hbreakable

/-! ### Records that go on -/

/-- Behind a text that is read as a record only white space may follow. -/
theorem decode_append {α : Type} [Record α] {all : List (String × Shape)}
    (hshape : Record.shape α = .record all) {s : String} {a : α} (h : decode α s = .ok a)
    (t : String) :
  decode α (s ++ t) = if t.toList.all Json.isSpace then .ok a else .error .malformed
  := by
  obtain ⟨v, hread, hvalue⟩ := decode_eq_ok_iff.mp h
  rw [hshape] at hread
  have happend := Json.read_append hread t.toList
  rw [← String.toList_append, ← hshape] at happend
  split
  · next hspaces =>
      rw [if_pos hspaces] at happend
      exact decode_eq_ok_iff.mpr ⟨v, happend, hvalue⟩
  · next hspaces =>
      rw [if_neg hspaces] at happend
      apply decode_of_read happend

/-- A body has to be the whole of a record: cut short it is truncated, and with more than white space
behind it, it is malformed. -/
def WhollyRead (α : Type) [Record α] : Prop :=
  (∀ a : α, Severable a)
    ∧ ∀ (s t : String) (a : α), decode α s = .ok a →
      decode α (s ++ t) = if t.toList.all Json.isSpace then .ok a else .error .malformed

/-- No record is read from a part of what is written for it, nor from a text that goes on behind
it. -/
theorem records_wholly_read :
  WhollyRead Post ∧ WhollyRead FeedReply ∧ WhollyRead MutationReply ∧ WhollyRead NewPost
    ∧ WhollyRead NewUser
  := by
  refine ⟨⟨severable_post, ?_⟩, ⟨severable_feedReply, ?_⟩, ⟨severable_mutationReply, ?_⟩,
    ⟨severable_newPost, ?_⟩, ⟨severable_newUser, ?_⟩⟩
  all_goals
    intro s t a h
    exact decode_append rfl h t

theorem feedReply_wholly_read :
  let reply : FeedReply := ⟨none, some (.unknown (-12))⟩
  let cut := "\x7b\"Posts\":null,\"Status\":-1"
  (cut.toList <+: (encode reply).toList ∧ cut ≠ encode reply
      ∧ decode FeedReply cut = .error .truncated)
    ∧ decode FeedReply (encode reply) = .ok reply
    ∧ decode FeedReply (encode reply ++ "\n") = .ok reply
    ∧ decode FeedReply (encode reply ++ "\x7d") = .error .malformed
  := by
  intro reply cut
  have hcut : cut.toList <+: (encode reply).toList := ⟨['2', '\x7d'], by decide⟩
  have hne : cut ≠ encode reply := by decide
  have hcoded : Coded reply.status := by
    intro status hstatus
    cases hstatus
    exact ⟨-12, rfl⟩
  have hread : decode FeedReply (encode reply) = .ok reply := (written_feedReply hcoded).decode
  obtain ⟨hsevered, happend⟩ := records_wholly_read.2.1
  refine ⟨⟨hcut, hne, hsevered reply cut hcut hne⟩, hread, ?_, ?_⟩
  · exact (happend _ "\n" reply hread).trans (if_pos (by decide))
  · exact (happend _ "\x7d" reply hread).trans (if_neg (by decide))

end FeedClient.Wire
