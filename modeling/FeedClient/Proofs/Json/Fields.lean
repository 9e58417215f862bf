import FeedClient.Proofs.Json.Refusal

/-!
# Records, however they are written

A record is written as an array of its fields; or as an object that has each field once, in any
order, with members of other names between them. `records` are all these texts, and every one of
them is read as the record. `flawedRecords` are texts with a flaw: a field is written a second time,
or one that is required is missing, or there is a flaw in a field. All of them are refused.
-/

namespace FeedClient.Json

/-! ### The ways to write a record -/

/-- Whether a field has to be written. -/
inductive Presence
  /-- Without the field there is no record. -/
  | required
  /-- Without the field it is another record. -/
  | given
  /-- The field stands for nothing and may be left out. -/
  | absent
deriving DecidableEq

/-- A field of a record, by the ways to write it. -/
structure Field where
  name : String
  presence : Presence
  texts : Language Char
  /-- Ways to write the field with a flaw. -/
  flawed : Language Char

/-- The objects with the given names and values. -/
def objects (entries : List (String × List Char)) : Language Char :=
  object (entries.map fun (name, text) => member (quoted name) {text})

/-- What is written for an object is one of the ways to write it. -/
theorem writeObject_mem_objects (entries : List (String × List Char)) :
  writeObject entries ∈ objects entries
  := by
  apply mem_enclosed.mpr
  refine ⟨_, joined_mem_separated ?_, rfl⟩
  induction entries with
  | nil => exact .nil
  | cons entry entries ih =>
      refine .cons (mem_padded_of_mem ?_) ih
      apply mem_member.mpr
      exact ⟨_, quote_mem_quoted entry.1, [], nil_mem_spaces, [], nil_mem_spaces, _, rfl, rfl⟩

section

variable (fields : List Field)

/-- A member of an object is a field, or it has another name and any well-formed value. -/
inductive Fits : String × List Char → Prop
  | field {f : Field} {text : List Char} (hfield : f ∈ fields) (h : text ∈ f.texts) :
    Fits (f.name, text)
  | other {name : String} {text : List Char} (hother : name ∉ fields.map Field.name)
      (h : WellFormed text) : Fits (name, text)

/-- A way to write a record. -/
inductive Recorded : List Char → Prop
  | object {entries : List (String × List Char)} {text : List Char}
      (hfits : ∀ entry ∈ entries, Fits fields entry)
      (honce : ∀ f ∈ fields, (entries.map Prod.fst).count f.name = 1
        ∨ f.presence = .absent ∧ (entries.map Prod.fst).count f.name = 0)
      (h : text ∈ objects entries) : Recorded text
  | array {text : List Char} (h : text ∈ array (fields.map Field.texts)) : Recorded text

/-- A way to write a record with a flaw. What comes after the flaw does not matter. -/
inductive Flawed : List Char → Prop
  | repeated {before after : List (String × List Char)} {f : Field} {value text : List Char}
      (hfits : ∀ entry ∈ before, Fits fields entry) (hfield : f ∈ fields)
      (hseen : f.name ∈ before.map Prod.fst)
      (h : text ∈ objects (before ++ (f.name, value) :: after)) : Flawed text
  | missing {entries : List (String × List Char)} {f : Field} {text : List Char}
      (hfits : ∀ entry ∈ entries, Fits fields entry) (hfield : f ∈ fields)
      (hrequired : f.presence = .required) (hmissing : f.name ∉ entries.map Prod.fst)
      (h : text ∈ objects entries) : Flawed text
  | value {before after : List (String × List Char)} {f : Field} {value text : List Char}
      (hfits : ∀ entry ∈ before, Fits fields entry) (hfield : f ∈ fields)
      (hvalue : value ∈ f.flawed)
      (h : text ∈ objects (before ++ (f.name, value) :: after)) : Flawed text
  | short {written due : List Field} {f : Field} {text : List Char}
      (hfields : fields = written ++ due) (hfield : f ∈ due) (hrequired : f.presence = .required)
      (h : text ∈ array (written.map Field.texts)) : Flawed text
  | item {before after : List Field} {f : Field} {rest : List (Language Char)} {text : List Char}
      (hfields : fields = before ++ f :: after)
      (h : text ∈ array (before.map Field.texts ++ f.flawed :: rest)) : Flawed text

def records : Language Char :=
  {text | Recorded fields text}

def flawedRecords : Language Char :=
  {text | Flawed fields text}

end

/-! ### Fields that are read -/

/-- The field is read as the value by the shape. -/
structure Field.Reads (f : Field) (shape : Shape) (v : Value) : Prop where
  stands : ∀ text ∈ f.texts, Stands (.kept shape) text v
  refused : ∀ text ∈ f.flawed, Refused (.kept shape) text
  absent : f.presence = .absent → shape.absent = .ok v
  required : f.presence = .required → shape.absent = .error .mismatched

/-- The fields are read, one by one, as the values by the shapes. -/
inductive Reads : List Field → List (String × Shape) → List (String × Value) → Prop
  | nil : Reads [] [] []
  | cons {f : Field} {shape : Shape} {v : Value} {fields : List Field}
      {shapes : List (String × Shape)} {vs : List (String × Value)} (h : f.Reads shape v)
      (rest : Reads fields shapes vs) :
    Reads (f :: fields) ((f.name, shape) :: shapes) ((f.name, v) :: vs)

section

variable {fields : List Field} {shapes : List (String × Shape)} {vs : List (String × Value)}

theorem Reads.map_fst (h : Reads fields shapes vs) :
  shapes.map Prod.fst = fields.map Field.name ∧ vs.map Prod.fst = fields.map Field.name
  := by
  induction h with
  | nil => exact ⟨rfl, rfl⟩
  | cons h rest ih =>
      rw [List.map_cons, List.map_cons, List.map_cons, ih.1, ih.2]
      exact ⟨rfl, rfl⟩

theorem Reads.exists_of_mem (h : Reads fields shapes vs) {f : Field} (hfield : f ∈ fields) :
  ∃ shape v, (f.name, shape) ∈ shapes ∧ (f.name, v) ∈ vs ∧ f.Reads shape v
  := by
  induction h with
  | nil => cases hfield
  | @cons g shape v fields shapes vs h rest ih =>
      obtain rfl | hmem := List.mem_cons.mp hfield
      · exact ⟨shape, v, List.mem_cons_self, List.mem_cons_self, h⟩
      · obtain ⟨shape', v', hshape, hv, hreads⟩ := ih hmem
        exact ⟨shape', v', List.mem_cons_of_mem _ hshape, List.mem_cons_of_mem _ hv, hreads⟩

theorem Shape.absent_eq_error {shape : Shape} {fault : Fault} (h : shape.absent = .error fault) :
  fault = .mismatched
  := by
  cases shape <;> cases h
  all_goals rfl

/-- A record without a field that is required is refused. -/
theorem Reads.collect_missing (h : Reads fields shapes vs) {f : Field} (hfield : f ∈ fields)
    (hrequired : f.presence = .required) {found : List (String × Value)}
    (hmissing : found.lookup f.name = none) :
  State.collect found shapes = .error .mismatched
  := by
  induction h with
  | nil => cases hfield
  | @cons g shape v fields shapes vs h rest ih =>
      rw [State.collect]
      obtain rfl | hmem := List.mem_cons.mp hfield
      · rw [hmissing]
        change (shape.absent >>= _) = _
        rw [h.required hrequired]
        rfl
      · rw [ih hmem]
        cases found.lookup g.name with
        | some w => rfl
        | none =>
            change (shape.absent >>= _) = _
            cases habsent : shape.absent with
            | ok w => rfl
            | error fault => rw [Shape.absent_eq_error habsent]; rfl

/-- A record is made up of the fields that were found; the others stand for nothing. -/
theorem Reads.collect_eq_ok (h : Reads fields shapes vs) {found all : List (String × Value)}
    (hall : ∀ p ∈ vs, all.lookup p.1 = some p.2)
    (hfound : ∀ f ∈ fields, found.lookup f.name = all.lookup f.name
      ∨ found.lookup f.name = none ∧ f.presence = .absent) :
  State.collect found shapes = .ok vs
  := by
  induction h with
  | nil => rfl
  | @cons f shape v fields shapes vs h rest ih =>
      obtain ⟨hv, hall⟩ := List.forall_mem_cons.mp hall
      obtain ⟨hf, hfound⟩ := List.forall_mem_cons.mp hfound
      rw [State.collect, ih hall hfound]
      obtain heq | ⟨hnone, habsent⟩ := hf
      · rw [heq, hv]
        rfl
      · rw [hnone]
        change (shape.absent >>= _) = _
        rw [h.absent habsent]
        rfl

/-! ### Objects -/

/-- What has been found are the values of the fields whose names have been seen. -/
def Found (fields : List Field) (vs : List (String × Value)) (seen : List String)
    (found : List (String × Value)) : Prop :=
  ∀ f ∈ fields, found.lookup f.name = if f.name ∈ seen then vs.lookup f.name else none

theorem found_nil (fields : List Field) (vs : List (String × Value)) :
  Found fields vs [] []
  := by
  intro f _
  rfl

theorem Found.perm {seen seen' : List String} {found : List (String × Value)}
    (hfound : Found fields vs seen found) (hperm : seen.Perm seen') :
  Found fields vs seen' found
  := by
  intro f hfield
  simp only [hfound f hfield, hperm.mem_iff]

/-- The name of a field that has not been seen. -/
theorem Found.named {seen : List String} {found : List (String × Value)}
    (hfound : Found fields vs seen found) {f : Field} (hfield : f ∈ fields) (hseen : f.name ∉ seen)
    {shape : Shape} (hshape : shapes.lookup f.name = some shape) {stack : List Frame} {mode : Mode}
    (hdue : NameDue mode) :
  ∀ text ∈ quoted f.name, text.foldlM State.step ⟨mode, .members shapes found none :: stack⟩
    = .ok ⟨.colon (.kept shape), .members shapes found (some f.name) :: stack⟩
  := by
  intro text htext
  rw [foldlM_name_of_mem_quoted hdue text htext]
  apply State.named_of_lookup hshape
  rw [hfound f hfield, if_neg hseen]

section

variable (h : Reads fields shapes vs) (hnodup : (fields.map Field.name).Nodup)
include h hnodup

theorem Reads.exists_lookup {f : Field} (hfield : f ∈ fields) :
  ∃ shape v, shapes.lookup f.name = some shape ∧ vs.lookup f.name = some v ∧ f.Reads shape v
  := by
  obtain ⟨shape, v, hshape, hv, hreads⟩ := h.exists_of_mem hfield
  have hshapes : (shapes.map Prod.fst).Nodup := h.map_fst.1 ▸ hnodup
  have hvs : (vs.map Prod.fst).Nodup := h.map_fst.2 ▸ hnodup
  exact ⟨shape, v, lookup_of_mem hshapes hshape, lookup_of_mem hvs hv, hreads⟩

/-- A field is refused by its name when the name has been seen. -/
theorem Reads.refused_of_seen {f : Field} (hfield : f ∈ fields) {seen : List String}
    {found : List (String × Value)} (hfound : Found fields vs seen found) (hseen : f.name ∈ seen)
    (value : Language Char) :
  ∀ text ∈ padded (member (quoted f.name) value), MemberRefused (.members shapes found none) text
  := by
  obtain ⟨shape, v, hshape, hv, -⟩ := h.exists_lookup hnodup hfield
  apply memberRefused_name
  intro stack mode hdue text htext
  have hlookup : found.lookup f.name = some v := by
    rw [hfound f hfield, if_pos hseen, hv]
  rw [foldlM_name_of_mem_quoted hdue text htext]
  simp [State.named, hshape, hlookup]

/-- A field with a flaw is refused. -/
theorem Reads.refused_of_flawed {f : Field} (hfield : f ∈ fields) {seen : List String}
    {found : List (String × Value)} (hfound : Found fields vs seen found) {value : List Char}
    (hvalue : value ∈ f.flawed) :
  ∀ text ∈ padded (member (quoted f.name) {value}), MemberRefused (.members shapes found none) text
  := by
  by_cases hseen : f.name ∈ seen
  · apply h.refused_of_seen hnodup hfield hfound hseen
  · obtain ⟨shape, v, hshape, -, hreads⟩ := h.exists_lookup hnodup hfield
    apply memberRefused_value (hfound.named hfield hseen hshape)
    rintro _ rfl
    apply hreads.refused _ hvalue

/-- A member is read, or it is a field whose name has been seen before. -/
theorem Reads.member {entry : String × List Char} (hfits : Fits fields entry) {seen : List String}
    {found : List (String × Value)} (hfound : Found fields vs seen found) :
  (∃ f ∈ fields, f.name = entry.1 ∧ f.name ∈ seen)
    ∨ ∃ found', Found fields vs (entry.1 :: seen) found'
      ∧ ∀ text ∈ padded (Json.member (quoted entry.1) {entry.2}),
        Joins (.members shapes found none) text (.members shapes found' none)
  := by
  cases hfits with
  | @field f value hfield hvalue =>
      by_cases hseen : f.name ∈ seen
      · exact .inl ⟨f, hfield, rfl, hseen⟩
      · right
        obtain ⟨shape, v, hshape, hv, hreads⟩ := h.exists_lookup hnodup hfield
        use (f.name, v) :: found
        constructor
        · intro g hg
          by_cases heq : g.name = f.name
          · rw [heq, List.lookup_cons_self, if_pos List.mem_cons_self, hv]
          · rw [lookup_cons_of_ne heq, hfound g hg]
            simp [heq]
        · have hstands : ∀ text ∈ ({value} : Language Char), Stands (.kept shape) text v := by
            rintro _ rfl
            apply hreads.stands _ hvalue
          apply joins_of_mem_member (hfound.named hfield hseen hshape) hstands
          intro stack
          rfl
  | @other name value hother hvalue =>
      right
      have hshape : shapes.lookup name = none := by
        rw [← h.map_fst.1] at hother
        rw [List.lookup_eq_none_iff]
        intro p hp
        rw [bne_iff_ne]
        rintro rfl
        apply hother (List.mem_map_of_mem hp)
      use found
      constructor
      · intro g hg
        have hne : g.name ≠ name := by
          rintro rfl
          apply hother (List.mem_map_of_mem hg)
        rw [hfound g hg]
        simp [hne]
      · have hname {stack : List Frame} {mode : Mode} (hdue : NameDue mode) : ∀ text ∈ quoted name,
            text.foldlM State.step ⟨mode, .members shapes found none :: stack⟩
              = .ok ⟨.colon .skipped, .members shapes found none :: stack⟩ := by
          intro text htext
          rw [foldlM_name_of_mem_quoted hdue text htext]
          simp [State.named, hshape]
        have hstands : ∀ text ∈ ({value} : Language Char), Stands .skipped text .nothing := by
          rintro _ rfl
          apply hvalue.stands
        apply joins_of_mem_member hname hstands
        intro stack
        rfl

/-- Members are read one after the other, unless one of them is a field that has been seen. -/
theorem Reads.members {entries : List (String × List Char)}
    (hfits : ∀ entry ∈ entries, Fits fields entry) :
  ∀ {seen : List String} {found : List (String × Value)} {texts : List (List Char)},
    Found fields vs seen found →
    List.Forall₂ (fun text l => text ∈ padded l) texts
      (entries.map fun (name, text) => Json.member (quoted name) {text}) →
    (∃ f ∈ fields, 1 < (entries.map Prod.fst ++ seen).count f.name)
        ∧ MembersRefused (.members shapes found none) texts
      ∨ ∃ found', Found fields vs (entries.map Prod.fst ++ seen) found'
        ∧ Members (.members shapes found none) texts (.members shapes found' none)
  := by
  induction entries with
  | nil =>
      intro seen found texts hfound htexts
      cases htexts
      exact .inr ⟨found, hfound, .nil _⟩
  | cons entry entries ih =>
      intro seen found texts hfound htexts
      obtain ⟨hentry, hentries⟩ := List.forall_mem_cons.mp hfits
      cases htexts with
      | @cons text _ texts _ htext htexts =>
          have hseen : (entries.map Prod.fst ++ entry.1 :: seen).Perm
              ((entry :: entries).map Prod.fst ++ seen) := List.perm_middle
          obtain ⟨f, hfield, hname, hmem⟩ | ⟨found', hfound', hjoins⟩ :=
            h.member hnodup hentry hfound
          · left
            constructor
            · use f, hfield
              have hcount : 0 < seen.count f.name := List.count_pos_iff.mpr hmem
              rw [List.map_cons, List.cons_append, ← hname, List.count_cons_self, List.count_append]
              omega
            · refine ⟨[], text, texts, _, rfl, .nil _, ?_⟩
              apply h.refused_of_seen hnodup hfield hfound hmem {entry.2}
              rw [hname]
              apply htext
          · have hjoin := hjoins text htext
            obtain ⟨⟨f, hfield, hcount⟩, hrefused⟩ | ⟨found'', hfound'', hmembers⟩ :=
              ih hentries hfound' htexts
            · left
              rw [hseen.count_eq] at hcount
              exact ⟨⟨f, hfield, hcount⟩, hrefused.cons hjoin (fun _ => rfl)⟩
            · right
              exact ⟨found'', hfound''.perm hseen, .cons hjoin (fun _ => rfl) hmembers⟩

/-- An object with each field once, and with members of other names, is read as the record. -/
theorem Reads.foldlM_object {entries : List (String × List Char)}
    (hfits : ∀ entry ∈ entries, Fits fields entry)
    (honce : ∀ f ∈ fields, (entries.map Prod.fst).count f.name = 1
      ∨ f.presence = .absent ∧ (entries.map Prod.fst).count f.name = 0) {texts : List (List Char)}
    (htexts : List.Forall₂ (fun text l => text ∈ padded l) texts
      (entries.map fun (name, text) => Json.member (quoted name) {text})) (stack : List Frame) :
  (joined texts ++ ['\x7d']).foldlM State.step ⟨.nameOrEnd, .members shapes [] none :: stack⟩
    = .ok (State.deliver stack (.record vs))
  := by
  obtain ⟨⟨f, hfield, hcount⟩, -⟩ | ⟨found, hfound, hmembers⟩ :=
    h.members hnodup hfits (found_nil fields vs) htexts
  · rw [List.append_nil] at hcount
    have honce := honce f hfield
    omega
  · have hall : ∀ p ∈ vs, vs.lookup p.1 = some p.2 := by
      intro p hp
      apply lookup_of_mem (h.map_fst.2 ▸ hnodup) hp
    have hfound' : ∀ f ∈ fields, found.lookup f.name = vs.lookup f.name
        ∨ found.lookup f.name = none ∧ f.presence = .absent := by
      intro f hfield
      rw [hfound f hfield, List.append_nil]
      obtain hcount | ⟨habsent, hcount⟩ := honce f hfield
      · left
        rw [if_pos]
        apply List.count_pos_iff.mp
        omega
      · right
        rw [if_neg (List.count_eq_zero.mp hcount)]
        exact ⟨rfl, habsent⟩
    rw [hmembers.closes, State.closeObject, h.collect_eq_ok hall hfound']
    rfl

/-- An object without a field that is required is refused. -/
theorem Reads.foldlM_missing {entries : List (String × List Char)}
    (hfits : ∀ entry ∈ entries, Fits fields entry) {f : Field} (hfield : f ∈ fields)
    (hrequired : f.presence = .required) (hmissing : f.name ∉ entries.map Prod.fst)
    {texts : List (List Char)}
    (htexts : List.Forall₂ (fun text l => text ∈ padded l) texts
      (entries.map fun (name, text) => Json.member (quoted name) {text})) (stack : List Frame) :
  (joined texts ++ ['\x7d']).foldlM State.step ⟨.nameOrEnd, .members shapes [] none :: stack⟩
    = .error .mismatched
  := by
  obtain ⟨-, hrefused⟩ | ⟨found, hfound, hmembers⟩ :=
    h.members hnodup hfits (found_nil fields vs) htexts
  · apply hrefused.foldlM
  · have hlookup : found.lookup f.name = none := by
      rw [hfound f hfield, List.append_nil, if_neg hmissing]
    rw [hmembers.closes, State.closeObject, h.collect_missing hfield hrequired hlookup]
    rfl

/-- An object is refused at a member that is refused wherever the members before it have been
seen. -/
theorem Reads.foldlM_refused {before after : List (String × List Char)} {name : String}
    {value : List Char} (hfits : ∀ entry ∈ before, Fits fields entry)
    (hrefused : ∀ {found : List (String × Value)}, Found fields vs (before.map Prod.fst) found →
      ∀ text ∈ padded (Json.member (quoted name) {value}),
        MemberRefused (.members shapes found none) text)
    {texts : List (List Char)}
    (htexts : List.Forall₂ (fun text l => text ∈ padded l) texts
      ((before ++ (name, value) :: after).map fun (name, text) => Json.member (quoted name) {text}))
    (stack : List Frame) :
  (joined texts ++ ['\x7d']).foldlM State.step ⟨.nameOrEnd, .members shapes [] none :: stack⟩
    = .error .mismatched
  := by
  rw [List.map_append] at htexts
  obtain ⟨first, bad, rest, rfl, hfirst, hbad⟩ := exists_parts htexts
  have hmembers := h.members hnodup hfits (found_nil fields vs) hfirst
  rw [List.append_nil] at hmembers
  obtain ⟨-, hearlier⟩ | ⟨found, hfound, hread⟩ := hmembers
  · apply (hearlier.append (bad :: rest)).foldlM
  · apply hread.refused (hrefused hfound bad hbad) rest _ stack .first

end

/-! ### Arrays -/

/-- The first fields are read by the first shapes. -/
theorem Reads.exists_append {before after : List Field} {shapes : List (String × Shape)}
    {vs : List (String × Value)} (h : Reads (before ++ after) shapes vs) :
  ∃ shapes₁ shapes₂ vs₁ vs₂, shapes = shapes₁ ++ shapes₂ ∧ Reads before shapes₁ vs₁
    ∧ Reads after shapes₂ vs₂
  := by
  induction before generalizing shapes vs with
  | nil => exact ⟨[], shapes, [], vs, rfl, .nil, h⟩
  | cons f before ih =>
      cases h with
      | cons hfirst hrest =>
          obtain ⟨shapes₁, shapes₂, vs₁, vs₂, rfl, hbefore, hafter⟩ := ih hrest
          exact ⟨_ :: shapes₁, shapes₂, _ :: vs₁, vs₂, rfl, .cons hfirst hbefore, hafter⟩

theorem Reads.items (h : Reads fields shapes vs) :
  ∀ {texts : List (List Char)},
    List.Forall₂ (fun text l => text ∈ padded l) texts (fields.map Field.texts) →
    ∀ (due : List (String × Shape)) (read : List (String × Value)),
      Items (.positions (shapes ++ due) read) texts (.positions due (vs.reverse ++ read))
  := by
  induction h with
  | nil =>
      intro texts htexts due read
      cases htexts
      apply Items.nil
  | cons hfield hrest ih =>
      intro texts htexts due read
      cases htexts with
      | cons htext htexts =>
          have hstands := stands_of_mem_padded hfield.stands _ htext
          apply Items.cons (fun _ => rfl) (fun _ => rfl) hstands
          rw [List.reverse_cons, List.append_assoc]
          apply ih htexts

theorem absentMembers_eq_collect (shapes : List (String × Shape)) :
  State.absentMembers shapes = State.collect [] shapes
  := by
  induction shapes with
  | nil => rfl
  | cons p shapes ih =>
      rw [State.absentMembers, State.collect, ih]
      rfl

/-- An array of the fields is read as the record. -/
theorem Reads.foldlM_array (h : Reads fields shapes vs) {texts : List (List Char)}
    (htexts : List.Forall₂ (fun text l => text ∈ padded l) texts (fields.map Field.texts))
    (stack : List Frame) :
  (joined texts ++ [']']).foldlM State.step ⟨.itemOrEnd, .positions shapes [] :: stack⟩
    = .ok (State.deliver stack (.record vs))
  := by
  have hitems := h.items htexts [] []
  rw [List.append_nil, List.append_nil] at hitems
  rw [hitems.closes, State.closeArray, List.reverse_reverse]
  change Except.ok (State.deliver stack (.record (vs ++ []))) = _
  rw [List.append_nil]

/-- An array that ends before a field that is required is refused. -/
theorem Reads.foldlM_short {written due : List Field} (h : Reads (written ++ due) shapes vs)
    {f : Field} (hfield : f ∈ due) (hrequired : f.presence = .required) {texts : List (List Char)}
    (htexts : List.Forall₂ (fun text l => text ∈ padded l) texts (written.map Field.texts))
    (stack : List Frame) :
  (joined texts ++ [']']).foldlM State.step ⟨.itemOrEnd, .positions shapes [] :: stack⟩
    = .error .mismatched
  := by
  obtain ⟨shapes₁, shapes₂, vs₁, vs₂, rfl, hwritten, hdue⟩ := h.exists_append
  have hmissing : State.absentMembers shapes₂ = .error .mismatched := by
    rw [absentMembers_eq_collect]
    apply hdue.collect_missing hfield hrequired rfl
  rw [(hwritten.items htexts shapes₂ []).closes, State.closeArray, hmissing]
  rfl

/-- An array is refused at a field with a flaw. -/
theorem Reads.foldlM_item {before after : List Field} {f : Field}
    (h : Reads (before ++ f :: after) shapes vs) {rest : List (Language Char)}
    {texts : List (List Char)}
    (htexts : List.Forall₂ (fun text l => text ∈ padded l) texts
      (before.map Field.texts ++ f.flawed :: rest)) (stack : List Frame) :
  (joined texts ++ [']']).foldlM State.step ⟨.itemOrEnd, .positions shapes [] :: stack⟩
    = .error .mismatched
  := by
  obtain ⟨shapes₁, shapes₂, vs₁, vs₂, rfl, hbefore, hrest⟩ := h.exists_append
  obtain ⟨first, bad, others, rfl, hfirst, hbad⟩ := exists_parts htexts
  cases hrest with
  | cons hfield hrest =>
      have hrefused := refused_of_mem_padded hfield.refused bad hbad
      apply (hbefore.items hfirst _ []).refused (fun _ => rfl) hrefused _ _ _ (itemDue_itemOrEnd _)

/-! ### Records -/

section

variable (h : Reads fields shapes vs) (hnodup : (fields.map Field.name).Nodup) {want : Want}
  (hobject : ∀ stack,
    State.openObject stack want = .ok ⟨.nameOrEnd, .members shapes [] none :: stack⟩)
  (harray : ∀ stack, State.openArray stack want = .ok ⟨.itemOrEnd, .positions shapes [] :: stack⟩)
include h hnodup hobject harray

/-- However a record is written, it is read as this record. -/
theorem Reads.closed :
  ∀ text ∈ records fields, Closed want text (.record vs)
  := by
  intro text htext stack mode hdue
  cases htext with
  | object hfits honce htext =>
      apply foldlM_of_mem_object hobject _ htext hdue
      intro texts htexts stack
      apply h.foldlM_object hnodup hfits honce htexts
  | array htext =>
      apply foldlM_of_mem_array harray _ htext hdue
      intro texts htexts stack
      apply h.foldlM_array htexts

/-- A record that is written with a flaw is refused. -/
theorem Reads.refused :
  ∀ text ∈ flawedRecords fields, Refused want text
  := by
  intro text htext stack mode hdue
  cases htext with
  | repeated hfits hfield hseen htext =>
      apply foldlM_of_mem_object hobject _ htext hdue
      intro texts htexts stack
      apply h.foldlM_refused hnodup hfits _ htexts
      intro found hfound
      apply h.refused_of_seen hnodup hfield hfound hseen
  | missing hfits hfield hrequired hmissing htext =>
      apply foldlM_of_mem_object hobject _ htext hdue
      intro texts htexts stack
      apply h.foldlM_missing hnodup hfits hfield hrequired hmissing htexts
  | value hfits hfield hvalue htext =>
      apply foldlM_of_mem_object hobject _ htext hdue
      intro texts htexts stack
      apply h.foldlM_refused hnodup hfits _ htexts
      intro found hfound
      apply h.refused_of_flawed hnodup hfield hfound hvalue
  | short hfields hfield hrequired htext =>
      subst hfields
      apply foldlM_of_mem_array harray _ htext hdue
      intro texts htexts stack
      apply h.foldlM_short hfield hrequired htexts
  | item hfields htext =>
      subst hfields
      apply foldlM_of_mem_array harray _ htext hdue
      intro texts htexts stack
      apply h.foldlM_item htexts

end

end

end FeedClient.Json
