import FeedClient.Proofs.Json.Fields
import FeedClient.Proofs.Wire.RoundTrip

/-!
# Records on the wire, however they are written

The fields of a record are given by the ways to write them: texts with any choice of escapes, the
one integer of a status, the posts of a feed each in any way. Where there is no value, null stands
for it, or the field is left out. However a record is written by its fields, it is read as itself;
and no text with a flaw is read.
-/

namespace FeedClient.Wire

open Json (Shape Value Field Stands Refused Reads)

/-! ### Fields -/

/-- A field with a text. -/
def textField (name s : String) : Field where
  name
  presence := .required
  texts := Json.quoted s
  flawed := 0

/-- A field that may have no value, given the ways to write the value if there is one. -/
def optionalField (name : String) (texts : Option (Language Char)) (flawed : Language Char) :
    Field where
  name
  presence := if texts.isSome then .given else .absent
  texts := texts.getD {Json.writeNull}
  flawed

def postFields (post : Post) : List Field :=
  [textField "UserID" post.author, textField "Contents" post.contents,
    textField "Posted" post.posted]

/-- The lists of posts with a flaw in one of them. -/
def flawedPosts : Language Char :=
  {text | ∃ (before : List Post) (post : Post) (rest : List (Language Char)),
    text ∈ Json.array (before.map (fun post => Json.records (postFields post))
      ++ Json.flawedRecords (postFields post) :: rest)}

def postsField (posts : Option (List Post)) : Field :=
  optionalField "Posts"
    (posts.map fun posts => Json.array (posts.map fun post => Json.records (postFields post)))
    flawedPosts

def statusField (status : Option Status) : Field :=
  optionalField "Status" (status.map fun status => {Json.writeInt status.code.toInt}) 0

def feedReplyFields (reply : FeedReply) : List Field :=
  [postsField reply.posts, statusField reply.status]

def mutationReplyFields (reply : MutationReply) : List Field :=
  [optionalField "PostKey" (reply.postKey.map Json.quoted) 0, statusField reply.status]

def newPostFields (args : NewPost) : List Field :=
  [textField "UserID" args.user, textField "Contents" args.contents]

def newUserFields (args : NewUser) : List Field :=
  [textField "UserID" args.user]

/-! ### Reading by fields -/

/-- The fields are read as those of the record. -/
def ReadBy {α : Type} [Record α] (fields : List Field) (a : α) : Prop :=
  ∃ shapes vs, Record.shape α = .record shapes ∧ (fields.map Field.name).Nodup
    ∧ Reads fields shapes vs ∧ Record.ofValue? (.record vs) = some a

section

variable {α : Type} [Record α] {fields : List Field} {a : α} (h : ReadBy fields a)
include h

theorem ReadBy.exists_closed :
  ∃ v, Record.ofValue? v = some a
    ∧ ∀ text ∈ Json.records fields, Json.Closed (.kept (Record.shape α)) text v
  := by
  obtain ⟨shapes, vs, hshape, hnodup, hreads, hvalue⟩ := h
  rw [hshape]
  exact ⟨.record vs, hvalue, hreads.closed hnodup (fun _ => rfl) (fun _ => rfl)⟩

theorem ReadBy.refused :
  ∀ text ∈ Json.flawedRecords fields, Refused (.kept (Record.shape α)) text
  := by
  obtain ⟨shapes, vs, hshape, hnodup, hreads, -⟩ := h
  rw [hshape]
  exact hreads.refused hnodup (fun _ => rfl) (fun _ => rfl)

theorem ReadBy.decode {body : String} (hbody : body.toList ∈ Json.padded (Json.records fields)) :
  decode α body = .ok a
  := by
  obtain ⟨v, hvalue, hclosed⟩ := h.exists_closed
  exact decode_eq_ok_iff.mpr ⟨v, Json.read_of_mem_padded hclosed _ hbody, hvalue⟩

theorem ReadBy.decode_flawed {body : String}
    (hbody : body.toList ∈ Json.padded (Json.flawedRecords fields)) :
  Wire.decode α body = .error .mismatched
  := by
  apply decode_of_read
  apply Refused.read
  apply Json.refused_of_mem_padded h.refused _ hbody

end

/-! ### Fields that are read -/

theorem reads_textField (name s : String) :
  (textField name s).Reads .text (.text s)
  where
  stands := by
    intro text htext
    apply (Json.closed_of_mem_quoted rfl text htext).stands
  refused := by
    intro text htext
    cases htext
  absent := nofun
  required := fun _ => rfl

/-- A field without a value is null or not there. -/
theorem reads_optionalField (name : String) {inner : Shape} {texts : Option (Language Char)}
    {flawed : Language Char} {v : Value}
    (hsome : ∀ l ∈ texts, ∀ text ∈ l, Stands (.kept (.optional inner)) text v)
    (hnone : texts = none → v = .nothing)
    (hflawed : ∀ text ∈ flawed, Refused (.kept (.optional inner)) text) :
  (optionalField name texts flawed).Reads (.optional inner) v
  where
  stands := by
    intro text htext
    cases texts with
    | some l => exact hsome l rfl text htext
    | none =>
        obtain rfl := htext
        rw [hnone rfl]
        apply Json.closed_writeNull.stands
  refused := hflawed
  absent := by
    intro habsent
    cases texts with
    | some l => cases habsent
    | none =>
        rw [hnone rfl]
        rfl
  required := by
    intro hrequired
    cases texts <;> cases hrequired

theorem exists_reads_statusField {status : Option Status} (h : Coded status) :
  ∃ v, (statusField status).Reads (.optional .integer) v ∧ status? v = some status
  := by
  cases status with
  | none =>
      use .nothing
      exact ⟨reads_optionalField _ nofun (fun _ => rfl) nofun, rfl⟩
  | some status =>
      use .integer status.code
      refine ⟨reads_optionalField _ ?_ nofun nofun, h.status?⟩
      rintro _ ⟨rfl⟩ _ rfl
      exact Json.stands_writeInt fun _ => accept_status

/-! ### Records that are read -/

theorem readBy_post (post : Post) :
  ReadBy (postFields post) post
  := by
  have hnames : ["UserID", "Contents", "Posted"].Nodup := by decide
  refine ⟨_, [("UserID", .text post.author), ("Contents", .text post.contents),
    ("Posted", .text post.posted)], rfl, hnames, ?_, rfl⟩
  apply Reads.cons (reads_textField _ _)
  apply Reads.cons (reads_textField _ _)
  apply Reads.cons (reads_textField _ _) .nil

theorem readBy_newPost (args : NewPost) :
  ReadBy (newPostFields args) args
  := by
  have hnames : ["UserID", "Contents"].Nodup := by decide
  refine ⟨_, [("UserID", .text args.user), ("Contents", .text args.contents)], rfl, hnames, ?_, rfl⟩
  apply Reads.cons (reads_textField _ _)
  apply Reads.cons (reads_textField _ _) .nil

theorem readBy_newUser (args : NewUser) :
  ReadBy (newUserFields args) args
  := by
  have hnames : ["UserID"].Nodup := by decide
  refine ⟨_, [("UserID", .text args.user)], rfl, hnames, ?_, rfl⟩
  apply Reads.cons (reads_textField _ _) .nil

/-- Posts, each in any way, are read as values that are taken for them. -/
theorem exists_posts_read (posts : List Post) :
  ∃ vs, List.Forall₂ (fun l v => ∀ text ∈ l, Stands (.kept (Record.shape Post)) text v)
      (posts.map fun post => Json.records (postFields post)) vs
    ∧ vs.mapM Record.ofValue? = some posts
  := by
  induction posts with
  | nil => exact ⟨[], .nil, rfl⟩
  | cons post posts ih =>
      obtain ⟨v, hvalue, hclosed⟩ := (readBy_post post).exists_closed
      obtain ⟨vs, hstands, hvalues⟩ := ih
      refine ⟨v :: vs, .cons (fun text htext => (hclosed text htext).stands) hstands, ?_⟩
      rw [List.mapM_cons, hvalue, hvalues]
      rfl

theorem refused_of_mem_flawedPosts :
  ∀ text ∈ flawedPosts, Refused (.kept (.optional (.list (Record.shape Post)))) text
  := by
  rintro text ⟨before, post, rest, htext⟩
  obtain ⟨vs, hstands, -⟩ := exists_posts_read before
  apply Json.refused_of_mem_array hstands (fun _ => rfl) (readBy_post post).refused rest _ htext

theorem exists_reads_postsField (posts : Option (List Post)) :
  ∃ v, (postsField posts).Reads (.optional (.list (Record.shape Post))) v ∧ posts? v = some posts
  := by
  cases posts with
  | none =>
      use .nothing
      exact ⟨reads_optionalField _ nofun (fun _ => rfl) refused_of_mem_flawedPosts, rfl⟩
  | some posts =>
      obtain ⟨vs, hstands, hvalues⟩ := exists_posts_read posts
      use .list vs
      refine ⟨reads_optionalField _ ?_ nofun refused_of_mem_flawedPosts, ?_⟩
      · rintro _ ⟨rfl⟩ text htext
        apply (Json.closed_of_mem_array hstands (fun _ => rfl) text htext).stands
      · rw [posts?, hvalues]
        rfl

theorem readBy_feedReply {reply : FeedReply} (h : Coded reply.status) :
  ReadBy (feedReplyFields reply) reply
  := by
  have hnames : ["Posts", "Status"].Nodup := by decide
  obtain ⟨v, hposts, hv⟩ := exists_reads_postsField reply.posts
  obtain ⟨w, hstatus, hw⟩ := exists_reads_statusField h
  refine ⟨_, [("Posts", v), ("Status", w)], rfl, hnames, .cons hposts (.cons hstatus .nil), ?_⟩
  simp [Record.ofValue?, hv, hw]

theorem exists_reads_postKeyField (key : Option String) :
  ∃ v, (optionalField "PostKey" (key.map Json.quoted) 0).Reads (.optional .text) v
    ∧ text? v = some key
  := by
  cases key with
  | none =>
      use .nothing
      exact ⟨reads_optionalField _ nofun (fun _ => rfl) nofun, rfl⟩
  | some key =>
      use .text key
      refine ⟨reads_optionalField _ ?_ nofun nofun, rfl⟩
      rintro _ ⟨rfl⟩ text htext
      apply (Json.closed_of_mem_quoted rfl text htext).stands

theorem readBy_mutationReply {reply : MutationReply} (h : Coded reply.status) :
  ReadBy (mutationReplyFields reply) reply
  := by
  have hnames : ["PostKey", "Status"].Nodup := by decide
  obtain ⟨v, hkey, hv⟩ := exists_reads_postKeyField reply.postKey
  obtain ⟨w, hstatus, hw⟩ := exists_reads_statusField h
  refine ⟨_, [("PostKey", v), ("Status", w)], rfl, hnames, .cons hkey (.cons hstatus .nil), ?_⟩
  simp [Record.ofValue?, hv, hw]

/-! ### However records are written -/

/-- The records with the property are read in whatever way they are written by their fields, with
white space around them, and refused when they are written with a flaw. -/
def ReadHowever {α : Type} [Record α] (fields : α → List Field) (P : α → Prop) : Prop :=
  ∀ a, P a → ∀ body : String,
    (body.toList ∈ Json.padded (Json.records (fields a)) → decode α body = .ok a)
      ∧ (body.toList ∈ Json.padded (Json.flawedRecords (fields a)) →
        decode α body = .error .mismatched)

theorem readHowever_of {α : Type} [Record α] {fields : α → List Field} {P : α → Prop}
    (h : ∀ {a}, P a → ReadBy (fields a) a) :
  ReadHowever fields P
  := fun _ ha _ => ⟨(h ha).decode, (h ha).decode_flawed⟩

/-- Reading does not depend on how a record is written: by names or by positions, in any order, with
any white space and escapes, and with members of other names. A field that is written twice and a
required field that is missing are refused, in a post of a feed as well. -/
theorem records_read_however_written :
  ReadHowever postFields (fun _ => True)
    ∧ ReadHowever feedReplyFields (fun reply => Coded reply.status)
    ∧ ReadHowever mutationReplyFields (fun reply => Coded reply.status)
    ∧ ReadHowever newPostFields (fun _ => True)
    ∧ ReadHowever newUserFields (fun _ => True)
  := by
  refine ⟨?post, ?feedReply, ?mutationReply, ?newPost, ?newUser⟩
  case post => exact readHowever_of fun _ => readBy_post _
  case feedReply => exact readHowever_of readBy_feedReply
  case mutationReply => exact readHowever_of readBy_mutationReply
  case newPost => exact readHowever_of fun _ => readBy_newPost _
  case newUser => exact readHowever_of fun _ => readBy_newUser _

theorem newUser_read_however_written :
  let args : NewUser := ⟨"b"⟩
  let body := " \x7b\"x\":null,\"UserID\":\"\\u0062\"\x7d"
  let flawed := "\x7b\"UserID\":\"b\",\"UserID\":null\x7d"
  (body.toList ∈ Json.padded (Json.records (newUserFields args)) ∧ decode NewUser body = .ok args)
    ∧ flawed.toList ∈ Json.padded (Json.flawedRecords (newUserFields args))
    ∧ decode NewUser flawed = .error .mismatched
  := by
  intro args body flawed
  have hname : textField "UserID" "b" ∈ newUserFields args := List.mem_singleton.mpr rfl
  have hbody : body.toList ∈ Json.padded (Json.records (newUserFields args)) := by
    have hspaces : [' '] ∈ Json.spaces := by
      intro c hc
      obtain rfl := List.mem_singleton.mp hc
      rfl
    have hvalue : "\"\\u0062\"".toList ∈ Json.quoted "b" := by
      apply Json.mem_enclosed.mpr
      exact ⟨_, ⟨_, .unit ⟨'0', '0', '6', '2', rfl, rfl⟩, [], rfl, rfl⟩, rfl⟩
    have hfits : ∀ entry ∈ [("x", Json.writeNull), ("UserID", "\"\\u0062\"".toList)],
        Json.Fits (newUserFields args) entry := by
      rw [List.forall_mem_cons, List.forall_mem_singleton]
      exact ⟨.other (by decide) .null, .field hname hvalue⟩
    have honce : ∀ f ∈ newUserFields args, ["x", "UserID"].count f.name = 1
        ∨ f.presence = .absent ∧ ["x", "UserID"].count f.name = 0 := by
      intro f hf
      obtain rfl := List.mem_singleton.mp hf
      exact .inl rfl
    apply Json.mem_padded.mpr
    exact ⟨[' '], hspaces, _, .object hfits honce (Json.writeObject_mem_objects _), [],
      Json.nil_mem_spaces, by decide⟩
  have hflawed : flawed.toList ∈ Json.padded (Json.flawedRecords (newUserFields args)) := by
    have hfits : ∀ entry ∈ [("UserID", Json.quote "b".toList)],
        Json.Fits (newUserFields args) entry := by
      rw [List.forall_mem_singleton]
      exact .field hname (Json.quote_mem_quoted "b")
    have htext : flawed.toList = Json.writeObject [("UserID", Json.quote "b".toList),
        ("UserID", Json.writeNull)] := by decide
    rw [htext]
    apply Json.mem_padded_of_mem
    exact .repeated hfits hname List.mem_cons_self (Json.writeObject_mem_objects _)
  have hread := records_read_however_written.2.2.2.2 args trivial
  exact ⟨⟨hbody, (hread body).1 hbody⟩, hflawed, (hread flawed).2 hflawed⟩

end FeedClient.Wire
