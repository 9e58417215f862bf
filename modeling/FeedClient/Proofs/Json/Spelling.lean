import FeedClient.Proofs.Json.Reader

/-!
# Reading by the grammar

Whatever way a text is written in, it is read as itself; and every well-formed value is passed over
where nothing is wanted of it. White space, escapes and the forms of numbers make no difference.
-/

namespace FeedClient.Json

/-! ### White space -/

theorem Due.step_of_isSpace {want : Want} {stack : List Frame} {mode : Mode}
    (h : Due want stack mode) {c : Char} (hspace : isSpace c = true) :
  State.step ⟨mode, stack⟩ c = .ok ⟨mode, stack⟩
  := by
  cases h <;> exact if_pos hspace

theorem NameDue.step_of_isSpace {mode : Mode} (h : NameDue mode) (stack : List Frame) {c : Char}
    (hspace : isSpace c = true) :
  State.step ⟨mode, stack⟩ c = .ok ⟨mode, stack⟩
  := by
  cases h <;> exact if_pos hspace

theorem State.step_itemOrEnd_of_isSpace (stack : List Frame) {c : Char}
    (hspace : isSpace c = true) :
  step ⟨.itemOrEnd, stack⟩ c = .ok ⟨.itemOrEnd, stack⟩
  := if_pos hspace

theorem State.afterValue_of_isSpace (s : State) {c : Char} (hspace : isSpace c = true) :
  s.afterValue c = .ok s
  := if_pos hspace

theorem endsValue_of_isSpace {c : Char} (h : isSpace c = true) :
  endsValue c = true
  := by
  simp [endsValue, h]

/-- White space behind a text that only the character after it ends can be read along with it. -/
theorem foldlM_padding {s after : State} {text behind : List Char} {c : Char}
    (hread : ∀ {d : Char}, endsValue d = true →
      (text ++ [d]).foldlM State.step s = after.afterValue d)
    (hstep : ∀ d : Char, after.step d = after.afterValue d)
    (hbehind : ∀ d ∈ behind, isSpace d = true) (hc : endsValue c = true) :
  (text ++ (behind ++ [c])).foldlM State.step s = after.afterValue c
  := by
  cases behind with
  | nil => apply hread hc
  | cons d behind =>
      obtain ⟨hd, hbehind⟩ := List.forall_mem_cons.mp hbehind
      have hfirst : (text ++ [d]).foldlM State.step s = .ok after := by
        rw [hread (endsValue_of_isSpace hd), State.afterValue_of_isSpace after hd]
      have hrest : behind.foldlM State.step after = .ok after := by
        apply foldlM_spaces _ hbehind
        intro e he
        rw [hstep, State.afterValue_of_isSpace after he]
      have hparts : text ++ (d :: behind ++ [c]) = (text ++ [d]) ++ (behind ++ [c]) := by simp
      rw [hparts, foldlM_step_append_of hfirst, foldlM_step_append_of hrest, foldlM_step_singleton,
        hstep]

/-- White space before and behind a value makes no difference. -/
theorem stands_of_mem_padded {l : Language Char} {want : Want} {v : Value}
    (h : ∀ text ∈ l, Stands want text v) :
  ∀ text ∈ padded l, Stands want text v
  := by
  intro padding hpadding stack mode c hdue hc
  obtain ⟨before, hbefore, text, htext, behind, hbehind, rfl⟩ := mem_padded.mp hpadding
  have hstart : before.foldlM State.step ⟨mode, stack⟩ = .ok ⟨mode, stack⟩ :=
    foldlM_spaces hdue.step_of_isSpace hbefore
  rw [List.append_assoc, List.append_assoc, foldlM_step_append_of hstart]
  apply foldlM_padding (h text htext hdue) (State.step_deliver stack v) hbehind hc

/-! ### Strings -/

theorem closed_of_mem_strings :
  ∀ text ∈ strings, Closed .skipped text .nothing
  := by
  intro text htext
  obtain ⟨written, hwritten, rfl⟩ := mem_enclosed.mp htext
  obtain ⟨text', hinside⟩ := Quoted.exists_inside_of_mem_kstar hwritten []
  exact closed_text hinside rfl

theorem foldlM_name_of_mem_strings {outer : List Frame} {mode : Mode} (hdue : NameDue mode) :
  ∀ text ∈ strings, text.foldlM State.step ⟨mode, .skippedMembers :: outer⟩
    = .ok ⟨.colon .skipped, .skippedMembers :: outer⟩
  := by
  intro text htext
  obtain ⟨written, hwritten, rfl⟩ := mem_enclosed.mp htext
  obtain ⟨text', hinside⟩ := Quoted.exists_inside_of_mem_kstar hwritten []
  exact foldlM_name hdue hinside

/-! ### Numbers -/

theorem stands_of_mem_numbers :
  ∀ text ∈ numbers, Stands .skipped text .nothing
  := by
  intro text htext
  obtain ⟨sign, hsign, whole, hwhole, fraction, hfraction, exponent, hexponent, rfl⟩ :=
    mem_numbers.mp htext
  have hinside := Numeral.exists_inside_of_parts hwhole hfraction hexponent
  obtain rfl | rfl := hsign
  · obtain ⟨place, n, hend, hread⟩ := hinside { negative := false }
    exact stands_unsigned hread hend rfl
  · obtain ⟨place, n, hend, hread⟩ := hinside { negative := true }
    exact stands_number rfl (by decide) (fun _ => rfl) hread hend rfl

/-! ### Parts of arrays and objects -/

/-- What is read of an array, in whatever way it is written, is what is read of its items. -/
theorem foldlM_of_mem_array {ls : List (Language Char)} {want : Want} {f : Frame}
    {result : List Frame → Except Fault State}
    (hopen : ∀ stack, State.openArray stack want = .ok ⟨.itemOrEnd, f :: stack⟩)
    (hitems : ∀ texts, List.Forall₂ (fun text l => text ∈ padded l) texts ls → ∀ stack,
      (joined texts ++ [']']).foldlM State.step ⟨.itemOrEnd, f :: stack⟩ = result stack)
    {text : List Char} (htext : text ∈ array ls) {stack : List Frame} {mode : Mode}
    (hdue : Due want stack mode) :
  text.foldlM State.step ⟨mode, stack⟩ = result stack
  := by
  obtain ⟨inner, hinner, rfl⟩ := mem_enclosed.mp htext
  have hstart : State.step ⟨mode, stack⟩ '[' = .ok ⟨.itemOrEnd, f :: stack⟩ :=
    (hdue.step rfl (by decide)).trans (hopen stack)
  rw [foldlM_step_cons hstart]
  obtain ⟨rfl, hspaces⟩ | ⟨texts, htexts, rfl⟩ := exists_joined_of_mem_separated hinner
  · have hread : inner.foldlM State.step ⟨.itemOrEnd, f :: stack⟩ = .ok ⟨.itemOrEnd, f :: stack⟩ :=
      foldlM_spaces (State.step_itemOrEnd_of_isSpace _) hspaces
    rw [foldlM_step_append_of hread]
    apply hitems [] .nil
  · apply hitems texts htexts

/-- What is read of an object, in whatever way it is written, is what is read of its members. -/
theorem foldlM_of_mem_object {ls : List (Language Char)} {want : Want} {f : Frame}
    {result : List Frame → Except Fault State}
    (hopen : ∀ stack, State.openObject stack want = .ok ⟨.nameOrEnd, f :: stack⟩)
    (hmembers : ∀ texts, List.Forall₂ (fun text l => text ∈ padded l) texts ls → ∀ stack,
      (joined texts ++ ['\x7d']).foldlM State.step ⟨.nameOrEnd, f :: stack⟩ = result stack)
    {text : List Char} (htext : text ∈ object ls) {stack : List Frame} {mode : Mode}
    (hdue : Due want stack mode) :
  text.foldlM State.step ⟨mode, stack⟩ = result stack
  := by
  obtain ⟨inner, hinner, rfl⟩ := mem_enclosed.mp htext
  have hstart : State.step ⟨mode, stack⟩ '\x7b' = .ok ⟨.nameOrEnd, f :: stack⟩ :=
    (hdue.step rfl (by decide)).trans (hopen stack)
  rw [foldlM_step_cons hstart]
  obtain ⟨rfl, hspaces⟩ | ⟨texts, htexts, rfl⟩ := exists_joined_of_mem_separated hinner
  · have hread : inner.foldlM State.step ⟨.nameOrEnd, f :: stack⟩ = .ok ⟨.nameOrEnd, f :: stack⟩ :=
      foldlM_spaces (NameDue.first.step_of_isSpace _) hspaces
    rw [foldlM_step_append_of hread]
    apply hmembers [] .nil
  · apply hmembers texts htexts

/-- The name of a member, with white space before it. -/
theorem foldlM_padded_name {stack : List Frame} {mode : Mode} (hdue : NameDue mode)
    {before name : List Char} (hbefore : before ∈ spaces) (rest : List Char) :
  (before ++ (name ++ rest)).foldlM State.step ⟨mode, stack⟩
    = name.foldlM State.step ⟨mode, stack⟩ >>= rest.foldlM State.step
  := by
  rw [foldlM_step_append_of (foldlM_spaces (hdue.step_of_isSpace stack) hbefore),
    foldlM_step_append]

/-- The colon between the name and the value of a member, with white space around it. -/
theorem foldlM_padded_colon (want : Want) (stack : List Frame) {before behind : List Char}
    (hbefore : before ∈ spaces) (hbehind : behind ∈ spaces) (rest : List Char) :
  (before ++ ':' :: (behind ++ rest)).foldlM State.step ⟨.colon want, stack⟩
    = rest.foldlM State.step ⟨.value want, stack⟩
  := by
  have hcolon : State.step ⟨.colon want, stack⟩ ':' = .ok ⟨.value want, stack⟩ := rfl
  have hleft : before.foldlM State.step ⟨.colon want, stack⟩ = .ok ⟨.colon want, stack⟩ := by
    apply foldlM_spaces _ hbefore
    intro c hspace
    exact if_pos hspace
  have hright : behind.foldlM State.step ⟨.value want, stack⟩ = .ok ⟨.value want, stack⟩ :=
    foldlM_spaces Due.value.step_of_isSpace hbehind
  rw [foldlM_step_append_of hleft, foldlM_step_cons hcolon, foldlM_step_append_of hright]

/-- A member is read by its name and by its value, however it is written. -/
theorem joins_of_mem_member {f middle f' : Frame} {name value : Language Char} {want : Want}
    {v : Value}
    (hname : ∀ {stack : List Frame} {mode : Mode}, NameDue mode → ∀ text ∈ name,
      text.foldlM State.step ⟨mode, f :: stack⟩ = .ok ⟨.colon want, middle :: stack⟩)
    (hvalue : ∀ text ∈ value, Stands want text v)
    (hdeliver : ∀ stack, State.deliver (middle :: stack) v = ⟨.separator, f' :: stack⟩) :
  ∀ text ∈ padded (member name value), Joins f text f'
  := by
  intro text htext stack mode c hdue hc
  obtain ⟨before, hbefore, inner, hinner, behind, hbehind, rfl⟩ := mem_padded.mp htext
  obtain ⟨n, hn, left, hleft, right, hright, v, hv, rfl⟩ := mem_member.mp hinner
  have hparts : before ++ (n ++ (left ++ ':' :: (right ++ v)) ++ behind) ++ [c]
      = before ++ (n ++ (left ++ ':' :: (right ++ (v ++ (behind ++ [c]))))) := by simp
  rw [hparts, foldlM_padded_name hdue hbefore, hname hdue n hn]
  change (left ++ ':' :: (right ++ (v ++ (behind ++ [c])))).foldlM State.step _ = _
  rw [foldlM_padded_colon want _ hleft hright, ← hdeliver stack]
  apply foldlM_padding (hvalue v hv .value) (State.step_deliver _ _) hbehind hc

/-! ### Values that are passed over -/

theorem items_skipped {items : List (List Char)}
    (h : ∀ item ∈ items, Stands .skipped item .nothing) :
  ∀ texts, List.Forall₂ (fun text l => text ∈ padded l) texts (items.map fun item => {item}) →
    Items .skippedItems texts .skippedItems
  := by
  induction items with
  | nil =>
      intro texts htexts
      cases htexts
      apply Items.nil
  | cons item items ih =>
      intro texts htexts
      obtain ⟨hitem, hitems⟩ := List.forall_mem_cons.mp h
      cases htexts with
      | @cons text _ texts _ hfirst hrest =>
          have hstands : Stands .skipped text .nothing := by
            apply stands_of_mem_padded _ _ hfirst
            rintro _ rfl
            apply hitem
          exact .cons (fun _ => rfl) (fun _ => rfl) hstands (ih hitems _ hrest)

theorem members_skipped {members : List (List Char × List Char)}
    (hnames : ∀ m ∈ members, m.1 ∈ strings) (h : ∀ m ∈ members, Stands .skipped m.2 .nothing) :
  ∀ texts, List.Forall₂ (fun text l => text ∈ padded l) texts
      (members.map fun m => member {m.1} {m.2}) →
    Members .skippedMembers texts .skippedMembers
  := by
  induction members with
  | nil =>
      intro texts htexts
      cases htexts
      apply Members.nil
  | cons m members ih =>
      intro texts htexts
      obtain ⟨hname, hnames⟩ := List.forall_mem_cons.mp hnames
      obtain ⟨hvalue, hvalues⟩ := List.forall_mem_cons.mp h
      cases htexts with
      | @cons text _ texts _ hfirst hrest =>
          have hstands : ∀ text ∈ ({m.2} : Language Char), Stands .skipped text .nothing := by
            rintro _ rfl
            apply hvalue
          have hread {stack : List Frame} {mode : Mode} (hdue : NameDue mode) :
              ∀ text ∈ ({m.1} : Language Char),
                text.foldlM State.step ⟨mode, .skippedMembers :: stack⟩
                  = .ok ⟨.colon .skipped, .skippedMembers :: stack⟩ := by
            rintro _ rfl
            apply foldlM_name_of_mem_strings hdue _ hname
          have hjoins : Joins .skippedMembers text .skippedMembers :=
            joins_of_mem_member hread hstands (fun _ => rfl) _ hfirst
          exact .cons hjoins (fun _ => rfl) (ih hnames hvalues _ hrest)

/-- Every well-formed value can be passed over. -/
theorem WellFormed.stands {text : List Char} (h : WellFormed text) :
  Stands .skipped text .nothing
  := by
  induction h with
  | null => exact (closed_of_startValue rfl (by decide) (fun _ => rfl)).stands
  | true => exact (closed_of_startValue rfl (by decide) (fun _ => rfl)).stands
  | false => exact (closed_of_startValue rfl (by decide) (fun _ => rfl)).stands
  | number h => apply stands_of_mem_numbers _ h
  | string h => apply (closed_of_mem_strings _ h).stands
  | array _ h ih =>
      apply Closed.stands
      intro stack mode hdue
      apply foldlM_of_mem_array (fun _ => rfl) _ h hdue
      intro texts htexts stack
      apply (items_skipped ih texts htexts).closes
  | object hnames _ h ih =>
      apply Closed.stands
      intro stack mode hdue
      apply foldlM_of_mem_object (fun _ => rfl) _ h hdue
      intro texts htexts stack
      apply (members_skipped hnames ih texts htexts).closes

end FeedClient.Json
