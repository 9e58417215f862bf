import FeedClient.Proofs.Json.Spelling

/-!
# Texts that are refused

A text is refused when the reader, wherever a value is due, finds in it something other than what is
wanted. A list is refused at the first item that is, and an object at the first member, be it by its
name or by its value.
-/

namespace FeedClient.Json

/-! ### Texts that are refused -/

/-- Wherever a value is due, the text is refused. -/
def Refused (want : Want) (text : List Char) : Prop :=
  ∀ ⦃stack : List Frame⦄ ⦃mode : Mode⦄, Due want stack mode →
    text.foldlM State.step ⟨mode, stack⟩ = .error .mismatched

theorem foldlM_step_append_error {s : State} {fault : Fault} {text : List Char}
    (h : text.foldlM State.step s = .error fault) (rest : List Char) :
  (text ++ rest).foldlM State.step s = .error fault
  := by
  rw [foldlM_step_append, h]
  rfl

theorem refused_of_mem_padded {l : Language Char} {want : Want} (h : ∀ text ∈ l, Refused want text) :
  ∀ text ∈ padded l, Refused want text
  := by
  intro text htext stack mode hdue
  obtain ⟨before, hbefore, inner, hinner, behind, -, rfl⟩ := mem_padded.mp htext
  have hstart : before.foldlM State.step ⟨mode, stack⟩ = .ok ⟨mode, stack⟩ :=
    foldlM_spaces hdue.step_of_isSpace hbefore
  rw [foldlM_step_append_of hstart, foldlM_step_append_error (h inner hinner hdue)]

/-! ### Items -/

/-- Texts in the order of languages, one of which is picked out. -/
theorem exists_parts {texts : List (List Char)} {before after : List (Language Char)}
    {l : Language Char}
    (h : List.Forall₂ (fun text l => text ∈ padded l) texts (before ++ l :: after)) :
  ∃ first text rest, texts = first ++ text :: rest
    ∧ List.Forall₂ (fun text l => text ∈ padded l) first before ∧ text ∈ padded l
  := by
  have hfirst := List.forall₂_take_append _ _ _ h
  have hrest := List.forall₂_drop_append _ _ _ h
  have hparts := List.take_append_drop before.length texts
  generalize texts.drop before.length = dropped at hrest hparts
  cases hrest with
  | cons htext _ => exact ⟨_, _, _, hparts.symm, hfirst, htext⟩

/-- A text that is joined with others comes first. -/
theorem exists_joined_cons (text : List Char) (texts : List (List Char)) :
  ∃ rest, joined (text :: texts) = text ++ rest
  := by
  cases texts with
  | nil => exact ⟨[], (List.append_nil text).symm⟩
  | cons next texts => exact ⟨_, rfl⟩

/-- An array is refused at the first item that is. -/
theorem Items.refused {f f' : Frame} {before : List (List Char)} (h : Items f before f')
    {want : Want} (hdue : ∀ stack, State.nextItem (f' :: stack) = some want) {bad : List Char}
    (hbad : Refused want bad) (after : List (List Char)) (rest : List Char) (stack : List Frame) :
  ∀ {mode : Mode}, ItemDue (f :: stack) mode →
    (joined (before ++ bad :: after) ++ rest).foldlM State.step ⟨mode, f :: stack⟩
      = .error .mismatched
  := by
  induction h with
  | nil f =>
      intro mode hmode
      obtain ⟨tail, htail⟩ := exists_joined_cons bad after
      rw [List.nil_append, htail, List.append_assoc]
      apply foldlM_step_append_error
      apply hbad (hmode want (hdue stack))
  | @cons f f' f'' want' text texts v hdue' hdeliver hfirst hrest ih =>
      intro mode hmode
      obtain ⟨next, hnext⟩ : ∃ next, State.nextItem (f' :: stack) = some next := by
        cases hrest with
        | nil => exact ⟨want, hdue stack⟩
        | cons hsecond => exact ⟨_, hsecond stack⟩
      rw [List.cons_append, foldlM_joined_item hfirst (hmode want' (hdue' stack)) (hdeliver stack)
        hnext (List.append_ne_nil_of_right_ne_nil _ (List.cons_ne_nil _ _))]
      apply ih hdue (itemDue_value hnext)

section

variable {item : Shape} {ls : List (Language Char)} {vs : List Value} {want : Want}
  (h : List.Forall₂ (fun l v => ∀ text ∈ l, Stands (.kept item) text v) ls vs)
  (hopen : ∀ stack, State.openArray stack want = .ok ⟨.itemOrEnd, .items item [] :: stack⟩)

include h in
theorem items_of_padded {texts : List (List Char)}
    (htexts : List.Forall₂ (fun text l => text ∈ padded l) texts ls) :
  Items (.items item []) texts (.items item vs.reverse)
  := by
  have hstands : List.Forall₂ (Stands (.kept item)) texts vs := by
    induction h generalizing texts with
    | nil =>
        cases htexts
        apply List.Forall₂.nil
    | cons hfirst hrest ih =>
        cases htexts with
        | cons htext htexts => exact .cons (stands_of_mem_padded hfirst _ htext) (ih htexts)
  simpa using items_of_forall₂ hstands []

include h hopen

/-- However the items of a list are written, an array of them is read as the list. -/
theorem closed_of_mem_array :
  ∀ text ∈ array ls, Closed want text (.list vs)
  := by
  intro text htext stack mode hdue
  apply foldlM_of_mem_array hopen _ htext hdue
  intro texts htexts stack
  rw [(items_of_padded h htexts).closes, State.closeArray, List.reverse_reverse]

/-- A list is refused at the first item that is. -/
theorem refused_of_mem_array {bad : Language Char} (hbad : ∀ text ∈ bad, Refused (.kept item) text)
    (rest : List (Language Char)) :
  ∀ text ∈ array (ls ++ bad :: rest), Refused want text
  := by
  intro text htext stack mode hdue
  apply foldlM_of_mem_array hopen _ htext hdue
  intro texts htexts stack
  obtain ⟨first, next, others, rfl, hfirst, hnext⟩ := exists_parts htexts
  have hrefused := refused_of_mem_padded hbad next hnext
  apply (items_of_padded h hfirst).refused (fun _ => rfl) hrefused _ _ _ (itemDue_itemOrEnd _)

end

/-! ### Members -/

/-- The text is refused as a member of the object that the reader is in. -/
def MemberRefused (f : Frame) (text : List Char) : Prop :=
  ∀ ⦃stack : List Frame⦄ ⦃mode : Mode⦄, NameDue mode →
    text.foldlM State.step ⟨mode, f :: stack⟩ = .error .mismatched

/-- One of the members is refused, and those before it are read. -/
def MembersRefused (f : Frame) (texts : List (List Char)) : Prop :=
  ∃ before bad after f', texts = before ++ bad :: after ∧ Members f before f' ∧ MemberRefused f' bad

theorem MembersRefused.cons {f f' : Frame} {text : List Char} {texts : List (List Char)}
    (h : Joins f text f') (hcomma : ∀ stack, State.comma (f' :: stack) = .ok ⟨.name, f' :: stack⟩)
    (hrest : MembersRefused f' texts) :
  MembersRefused f (text :: texts)
  := by
  obtain ⟨before, bad, after, f'', rfl, hbefore, hbad⟩ := hrest
  exact ⟨text :: before, bad, after, f'', rfl, .cons h hcomma hbefore, hbad⟩

theorem MembersRefused.append {f : Frame} {texts : List (List Char)} (h : MembersRefused f texts)
    (more : List (List Char)) :
  MembersRefused f (texts ++ more)
  := by
  obtain ⟨before, bad, after, f', rfl, hbefore, hbad⟩ := h
  refine ⟨before, bad, after ++ more, f', ?_, hbefore, hbad⟩
  simp

theorem Members.refused {f f' : Frame} {before : List (List Char)} (h : Members f before f')
    {bad : List Char} (hbad : MemberRefused f' bad) (after : List (List Char)) (rest : List Char)
    (stack : List Frame) :
  ∀ {mode : Mode}, NameDue mode →
    (joined (before ++ bad :: after) ++ rest).foldlM State.step ⟨mode, f :: stack⟩
      = .error .mismatched
  := by
  induction h with
  | nil f =>
      intro mode hdue
      obtain ⟨tail, htail⟩ := exists_joined_cons bad after
      rw [List.nil_append, htail, List.append_assoc]
      apply foldlM_step_append_error
      apply hbad hdue
  | cons hfirst hcomma hrest ih =>
      intro mode hdue
      rw [List.cons_append, hfirst.foldlM_joined (hcomma stack) hdue
        (List.append_ne_nil_of_right_ne_nil _ (List.cons_ne_nil _ _))]
      apply ih hbad .further

/-- An object is refused at the first member that is. -/
theorem MembersRefused.foldlM {f : Frame} {texts : List (List Char)} (h : MembersRefused f texts)
    (rest : List Char) (stack : List Frame) :
  (joined texts ++ rest).foldlM State.step ⟨.nameOrEnd, f :: stack⟩ = .error .mismatched
  := by
  obtain ⟨before, bad, after, f', rfl, hbefore, hbad⟩ := h
  apply hbefore.refused hbad after rest stack .first

/-- A member is refused by its name. -/
theorem memberRefused_name {f : Frame} {name value : Language Char}
    (h : ∀ {stack : List Frame} {mode : Mode}, NameDue mode → ∀ text ∈ name,
      text.foldlM State.step ⟨mode, f :: stack⟩ = .error .mismatched) :
  ∀ text ∈ padded (member name value), MemberRefused f text
  := by
  intro text htext stack mode hdue
  obtain ⟨before, hbefore, inner, hinner, behind, hbehind, rfl⟩ := mem_padded.mp htext
  obtain ⟨n, hn, left, hleft, right, hright, v, hv, rfl⟩ := mem_member.mp hinner
  rw [List.append_assoc, foldlM_padded_name hdue hbefore, h hdue n hn]
  rfl

/-- A member is refused by its value. -/
theorem memberRefused_value {f middle : Frame} {name value : Language Char} {want : Want}
    (hname : ∀ {stack : List Frame} {mode : Mode}, NameDue mode → ∀ text ∈ name,
      text.foldlM State.step ⟨mode, f :: stack⟩ = .ok ⟨.colon want, middle :: stack⟩)
    (h : ∀ text ∈ value, Refused want text) :
  ∀ text ∈ padded (member name value), MemberRefused f text
  := by
  intro text htext stack mode hdue
  obtain ⟨before, hbefore, inner, hinner, behind, hbehind, rfl⟩ := mem_padded.mp htext
  obtain ⟨n, hn, left, hleft, right, hright, v, hv, rfl⟩ := mem_member.mp hinner
  have hparts : before ++ (n ++ (left ++ ':' :: (right ++ v)) ++ behind)
      = before ++ (n ++ (left ++ ':' :: (right ++ (v ++ behind)))) := by simp
  rw [hparts, foldlM_padded_name hdue hbefore, hname hdue n hn]
  change (left ++ ':' :: (right ++ (v ++ behind))).foldlM State.step _ = _
  rw [foldlM_padded_colon want _ hleft hright, foldlM_step_append_error (h v hv .value)]

/-! ### Whole texts -/

/-- White space before and behind a whole text makes no difference. -/
theorem read_of_mem_padded {shape : Shape} {l : Language Char} {v : Value}
    (h : ∀ text ∈ l, Closed (.kept shape) text v) :
  ∀ text ∈ padded l, read shape text = .ok v
  := by
  intro text htext
  obtain ⟨before, hbefore, inner, hinner, behind, hbehind, rfl⟩ := mem_padded.mp htext
  have hdue : Due (.kept shape) [] (.value (.kept shape)) := .value
  have hstart : before.foldlM State.step (State.start shape) = .ok (State.start shape) :=
    foldlM_spaces hdue.step_of_isSpace hbefore
  have hvalue : inner.foldlM State.step (State.start shape) = .ok (State.deliver [] v) :=
    h inner hinner hdue
  have hrest : behind.foldlM State.step (State.deliver [] v) = .ok (State.deliver [] v) := by
    apply foldlM_spaces _ hbehind
    intro c hspace
    rw [State.step_deliver, State.afterValue_of_isSpace _ hspace]
  rw [read, foldlM_step_append_of hstart, foldlM_step_append_of hvalue, hrest]
  rfl

theorem Refused.read {shape : Shape} {text : List Char} (h : Refused (.kept shape) text) :
  read shape text = .error .mismatched
  := by
  rw [Json.read, State.start, h .value]
  rfl

end FeedClient.Json
