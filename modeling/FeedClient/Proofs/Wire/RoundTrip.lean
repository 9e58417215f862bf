import FeedClient.Proofs.Json.Reader
import FeedClient.Wire.Record

/-!
# Records that are written and read back

What is written for a record is read as this record, as long as its status stands for a code; a
status that was read does so.
-/

namespace FeedClient.Wire

open Json (Shape Value Closed Stands Writes)

/-! ### Records as JSON values -/

theorem decode_eq_ok_iff {α : Type} [Record α] {body : String} {a : α} :
  decode α body = .ok a
    ↔ ∃ v, Json.read (Record.shape α) body.toList = .ok v ∧ Record.ofValue? v = some a
  := by
  rw [decode]
  cases Json.read (Record.shape α) body.toList with
  | error fault => simp [bind, Except.bind]
  | ok v =>
      simp only [bind, Except.bind, Except.ok.injEq, exists_eq_left']
      cases Record.ofValue? (α := α) v <;> simp

theorem decode_of_read {α : Type} [Record α] {body : String} {fault : Json.Fault}
    (h : Json.read (Record.shape α) body.toList = .error fault) :
  decode α body = .error fault
  := by
  rw [decode, h]
  rfl

/-- What is written for the record stands for a value that is taken for the record. -/
def Written {α : Type} [Record α] (a : α) : Prop :=
  ∃ v, Closed (.kept (Record.shape α)) (Record.write a) v ∧ Record.ofValue? v = some a

theorem Written.decode {α : Type} [Record α] {a : α} (h : Written a) :
  decode α (encode a) = .ok a
  := by
  obtain ⟨v, hclosed, hvalue⟩ := h
  apply decode_eq_ok_iff.mpr
  rw [encode, String.toList_ofList]
  exact ⟨v, hclosed.read, hvalue⟩

/-- What is written for records, one after the other, stands for values that are taken for them. -/
theorem exists_values {α : Type} [Record α] (records : List α) (h : ∀ a ∈ records, Written a) :
  ∃ vs, List.Forall₂ (Stands (.kept (Record.shape α))) (records.map Record.write) vs
    ∧ vs.mapM Record.ofValue? = some records
  := by
  induction records with
  | nil => exact ⟨[], .nil, rfl⟩
  | cons a records ih =>
      obtain ⟨v, hclosed, hvalue⟩ := h a List.mem_cons_self
      obtain ⟨vs, hstands, hvalues⟩ := ih fun b hb => h b (List.mem_cons_of_mem _ hb)
      refine ⟨v :: vs, .cons hclosed.stands hstands, ?_⟩
      rw [List.mapM_cons, hvalue, hvalues]
      rfl

/-! ### Statuses -/

/-- Whether a status, if there is one, stands for a code. -/
def Coded (status : Option Status) : Prop :=
  ∀ s ∈ status, ∃ c, Status.ofCode c = s

theorem coded_of_status? {v : Value} {status : Option Status} (h : status? v = some status) :
  Coded status
  := by
  intro s hs
  cases v with
  | integer code =>
      cases h
      cases hs
      exact ⟨code, rfl⟩
  | nothing =>
      cases h
      cases hs
  | text _ | list _ | record _ => cases h

theorem Coded.status? {status : Status} (h : Coded (some status)) :
  status? (.integer status.code) = some (some status)
  := by
  obtain ⟨c, rfl⟩ := h status rfl
  rw [Wire.status?, Status.code_ofCode]

/-! ### Members -/

theorem stands_text {shape : Shape} (s : String) (haccept : shape.accept (.text s) = .ok (.text s)) :
  Stands (.kept shape) (Json.quote s.toList) (.text s)
  := (Json.closed_quote haccept).stands

/-- Members with texts stand for these texts. -/
theorem writes_texts (texts : List (String × String)) :
  Writes (texts.map fun (name, _) => (name, .text)) (texts.map fun (name, s) => textMember name s)
    (texts.map fun (name, s) => (name, .text s))
  := by
  induction texts with
  | nil => apply Writes.nil
  | cons p texts ih => exact .written (stands_text p.2 rfl) ih

theorem accept_status {n : Json.Numeral} {code : Int64} (h : n.toInt64? = some code) :
  Shape.accept (.optional .integer) (.number n) = .ok (.integer code)
  := by
  change Shape.accept .integer (.number n) = _
  rw [Shape.accept, h]

/-- The code of a status that is written stands for a value, and nothing is written for none. The
value is taken for the status if this stands for a code. -/
theorem exists_status (status : Option Status) :
  ∃ v, Writes [("Status", .optional .integer)] (statusMember status) [("Status", v)]
    ∧ (Coded status → status? v = some status)
  := by
  cases status with
  | none => exact ⟨.nothing, .absent rfl .nil, fun _ => rfl⟩
  | some status =>
      use .integer status.code
      exact ⟨.written (Json.stands_writeInt fun _ => accept_status) .nil, Coded.status?⟩

/-! ### What is written -/

theorem writes_post (post : Post) :
  Writes [("UserID", .text), ("Contents", .text), ("Posted", .text)]
    [textMember "UserID" post.author, textMember "Contents" post.contents,
      textMember "Posted" post.posted]
    [("UserID", .text post.author), ("Contents", .text post.contents),
      ("Posted", .text post.posted)]
  := writes_texts [("UserID", post.author), ("Contents", post.contents), ("Posted", post.posted)]

theorem written_post (post : Post) :
  Written post
  := ⟨_, Json.closed_writeObject (fun _ => rfl) (by decide) (writes_post post), rfl⟩

theorem writes_newPost (args : NewPost) :
  Writes [("UserID", .text), ("Contents", .text)]
    [textMember "UserID" args.user, textMember "Contents" args.contents]
    [("UserID", .text args.user), ("Contents", .text args.contents)]
  := writes_texts [("UserID", args.user), ("Contents", args.contents)]

theorem written_newPost (args : NewPost) :
  Written args
  := ⟨_, Json.closed_writeObject (fun _ => rfl) (by decide) (writes_newPost args), rfl⟩

theorem writes_newUser (args : NewUser) :
  Writes [("UserID", .text)] [textMember "UserID" args.user] [("UserID", .text args.user)]
  := writes_texts [("UserID", args.user)]

theorem written_newUser (args : NewUser) :
  Written args
  := ⟨_, Json.closed_writeObject (fun _ => rfl) (by decide) (writes_newUser args), rfl⟩

/-- What is written for the posts of a feed stands for a value that is taken for them. -/
theorem exists_posts (posts : Option (List Post)) :
  ∃ v, Stands (.kept (.optional (.list (Record.shape Post))))
      (match posts with
        | some posts => Json.writeArray (posts.map Record.write)
        | none => Json.writeNull) v
    ∧ posts? v = some posts
  := by
  cases posts with
  | none => exact ⟨.nothing, Json.closed_writeNull.stands, rfl⟩
  | some posts =>
      obtain ⟨vs, hstands, hvalues⟩ := exists_values posts fun post _ => written_post post
      refine ⟨.list vs, (Json.closed_writeArray (fun _ => rfl) hstands).stands, ?_⟩
      rw [posts?, hvalues]
      rfl

theorem written_feedReply {reply : FeedReply} (h : Coded reply.status) :
  Written reply
  := by
  obtain ⟨v, hstands, hposts⟩ := exists_posts reply.posts
  obtain ⟨w, hwrites, hstatus⟩ := exists_status reply.status
  refine ⟨.record [("Posts", v), ("Status", w)], ?_, ?_⟩
  · apply Json.closed_writeObject (fun _ => rfl) (by decide)
    apply Writes.written hstands hwrites
  · simp [Record.ofValue?, hposts, hstatus h]

theorem written_mutationReply {reply : MutationReply} (h : Coded reply.status) :
  Written reply
  := by
  obtain ⟨postKey, status⟩ := reply
  obtain ⟨w, hwrites, hstatus⟩ := exists_status status
  cases postKey with
  | none =>
      refine ⟨.record [("PostKey", .nothing), ("Status", w)], ?_, ?_⟩
      · apply Json.closed_writeObject (fun _ => rfl) (by decide)
        apply Writes.absent rfl hwrites
      · simp [Record.ofValue?, text?, hstatus h]
  | some key =>
      refine ⟨.record [("PostKey", .text key), ("Status", w)], ?_, ?_⟩
      · apply Json.closed_writeObject (fun _ => rfl) (by decide)
        apply Writes.written (stands_text key rfl) hwrites
      · simp [Record.ofValue?, text?, hstatus h]

/-! ### What is read -/

theorem coded_of_feedReply {v : Value} {reply : FeedReply} (h : Record.ofValue? v = some reply) :
  Coded reply.status
  := by
  simp only [Record.ofValue?] at h
  split at h
  · simp only [Option.bind_eq_bind, Option.bind_eq_some_iff] at h
    obtain ⟨posts, -, status, hstatus, hreply⟩ := h
    cases hreply
    apply coded_of_status? hstatus
  · cases h

theorem coded_of_mutationReply {v : Value} {reply : MutationReply}
    (h : Record.ofValue? v = some reply) :
  Coded reply.status
  := by
  simp only [Record.ofValue?] at h
  split at h
  · simp only [Option.bind_eq_bind, Option.bind_eq_some_iff] at h
    obtain ⟨postKey, -, status, hstatus, hreply⟩ := h
    cases hreply
    apply coded_of_status? hstatus
  · cases h

/-! ### The round trip -/

/-- The records with the property are those that can be read, and each of them is read from what is
written for it. -/
def RoundTrips (α : Type) [Record α] (P : α → Prop) : Prop :=
  (∀ a, P a → decode α (encode a) = .ok a)
    ∧ ∀ body a, decode α body = .ok a → P a ∧ decode α (encode a) = .ok a

theorem roundTrips_of {α : Type} [Record α] {P : α → Prop} (hwritten : ∀ {a}, P a → Written a)
    (hread : ∀ {v : Value} {a : α}, Record.ofValue? v = some a → P a) :
  RoundTrips α P
  := by
  constructor
  · intro a ha
    apply (hwritten ha).decode
  · intro body a h
    obtain ⟨v, -, hvalue⟩ := decode_eq_ok_iff.mp h
    exact ⟨hread hvalue, (hwritten (hread hvalue)).decode⟩

theorem RoundTrips.encode_injOn {α : Type} [Record α] {P : α → Prop} (h : RoundTrips α P) {a b : α}
    (ha : P a) (hb : P b) (heq : encode a = encode b) :
  a = b
  := by
  have hdecode := h.1 a ha
  rw [heq, h.1 b hb] at hdecode
  cases hdecode
  rfl

/-- Every record is read back from what is written for it, and so is its status, provided that it
stands for a code. No posts and an empty list of posts are not the same. -/
theorem records_round_trip :
  RoundTrips Post (fun _ => True)
    ∧ RoundTrips FeedReply (fun reply => Coded reply.status)
    ∧ RoundTrips MutationReply (fun reply => Coded reply.status)
    ∧ RoundTrips NewPost (fun _ => True)
    ∧ RoundTrips NewUser (fun _ => True)
    ∧ (∀ status, Coded status →
      encode (⟨none, status⟩ : FeedReply) ≠ encode (⟨some [], status⟩ : FeedReply))
    ∧ ∀ c, (Status.ofCode c).code = c
  := by
  have hfeed : RoundTrips FeedReply (fun reply => Coded reply.status) :=
    roundTrips_of written_feedReply coded_of_feedReply
  refine ⟨?post, hfeed, ?mutationReply, ?newPost, ?newUser, ?distinct, Status.code_ofCode⟩
  case post => exact roundTrips_of (fun _ => written_post _) (fun _ => trivial)
  case mutationReply => exact roundTrips_of written_mutationReply coded_of_mutationReply
  case newPost => exact roundTrips_of (fun _ => written_newPost _) (fun _ => trivial)
  case newUser => exact roundTrips_of (fun _ => written_newUser _) (fun _ => trivial)
  case distinct =>
    intro status hstatus heq
    cases hfeed.encode_injOn hstatus hstatus heq

theorem feedReply_round_trip :
  let reply : FeedReply :=
    ⟨some [⟨"a\"b\\", "Grüße,\n🐟", "1f"⟩, ⟨"", "\u0007", ""⟩], some (.unknown (-7))⟩
  Coded reply.status ∧ decode FeedReply (encode reply) = .ok reply
  := by
  intro reply
  have hcoded : Coded reply.status := by
    intro status hstatus
    cases hstatus
    exact ⟨-7, rfl⟩
  exact ⟨hcoded, records_round_trip.2.1.1 reply hcoded⟩

end FeedClient.Wire
