import FeedClient.Proofs.Json.Reader

/-!
# Where a record begins and ends

The reader of a record stands before it, inside it or after it; or it is in a text, a number or a
word, none of which is a record. From there no text brings it back. `Along` says that there are no
other states, and every step keeps to them.

So what is read as a record begins with a bracket or a brace, and ends with the record: only white
space may stand before and behind it.
-/

namespace FeedClient.Json

/-! ### What reading keeps -/

theorem exists_of_bind_eq_ok {α β : Type} {x : Except Fault α} {f : α → Except Fault β} {b : β}
    (h : x >>= f = .ok b) :
  ∃ a, x = .ok a ∧ f a = .ok b
  := by
  cases x with
  | error fault => cases h
  | ok a =>
      use a, rfl
      apply h

/-- What every step keeps, reading a text keeps. -/
theorem foldlM_step_keeps {P : State → Prop}
    (hstep : ∀ {s s' : State} {c : Char}, P s → s.step c = .ok s' → P s') {s s' : State}
    {text : List Char} (h : P s) (hread : text.foldlM State.step s = .ok s') :
  P s'
  := by
  induction text generalizing s with
  | nil =>
      cases hread
      apply h
  | cons c text ih =>
      rw [List.foldlM_cons] at hread
      obtain ⟨next, hnext, hrest⟩ := exists_of_bind_eq_ok hread
      apply ih (hstep h hnext) hrest

theorem read_eq_ok_iff {shape : Shape} {text : List Char} {v : Value} :
  read shape text = .ok v
    ↔ ∃ s, text.foldlM State.step (State.start shape) = .ok s ∧ s.finish = .ok v
  := by
  rw [read]
  constructor
  · apply exists_of_bind_eq_ok
  · rintro ⟨s, hread, hfinish⟩
    rw [hread]
    apply hfinish

/-! ### Values without parts -/

/-- The modes inside a value that has no parts. -/
inductive InScalar (want : Want) : Mode → Prop
  | text (place : Quoted.Place) (text : List Char) : InScalar want (.inText want place text)
  | number (place : Numeral.Place) (n : Numeral) : InScalar want (.inNumber want place n)
  | word (due : List Char) (scalar : Scalar) : InScalar want (.inWord want due scalar)

/-- The first character of a value leads into a list, into a record or into a value without parts. -/
theorem startValue_cases {want : Want} {stack : List Frame} {c : Char} {s : State}
    (h : State.startValue want stack c = .ok s) :
  (c = '[' ∧ State.openArray stack want = .ok s)
    ∨ (c = '\x7b' ∧ State.openObject stack want = .ok s)
    ∨ ∃ mode, InScalar want mode ∧ s = ⟨mode, stack⟩
  := by
  rw [State.startValue] at h
  split at h
  · cases h
    exact .inr (.inr ⟨_, .text _ _, rfl⟩)
  split at h
  · next hc => exact .inl ⟨hc, h⟩
  split at h
  · next hc => exact .inr (.inl ⟨hc, h⟩)
  right
  right
  split at h
  · cases h
    exact ⟨_, .number _ _, rfl⟩
  split at h
  · cases h
    exact ⟨_, .number _ _, rfl⟩
  split at h
  · cases h
    exact ⟨_, .number _ _, rfl⟩
  split at h
  · cases h
    exact ⟨_, .word _ _, rfl⟩
  split at h
  · cases h
    exact ⟨_, .word _ _, rfl⟩
  split at h
  · cases h
    exact ⟨_, .word _ _, rfl⟩
  · cases h

/-- From inside such a value a step leads further into it, or the value is accepted and handed
over. -/
theorem InScalar.step {want : Want} {mode : Mode} (h : InScalar want mode) {stack : List Frame}
    {c : Char} {s : State} (hstep : State.step ⟨mode, stack⟩ c = .ok s) :
  (∃ mode', InScalar want mode' ∧ s = ⟨mode', stack⟩)
    ∨ ∃ scalar v, want.accept scalar = .ok v
      ∧ (s = State.deliver stack v ∨ (State.deliver stack v).afterValue c = .ok s)
  := by
  cases h with
  | text place text =>
      change (Quoted.step want.strict place text c >>= _) = _ at hstep
      obtain ⟨result, -, hresult⟩ := exists_of_bind_eq_ok hstep
      cases result with
      | more place text =>
          cases hresult
          exact .inl ⟨_, .text place text, rfl⟩
      | closed =>
          obtain ⟨v, haccept, hv⟩ := exists_of_bind_eq_ok hresult
          cases hv
          exact .inr ⟨_, v, haccept, .inl rfl⟩
  | number place n =>
      change (n.step place c >>= _) = _ at hstep
      obtain ⟨result, -, hresult⟩ := exists_of_bind_eq_ok hstep
      cases result with
      | more place n =>
          cases hresult
          exact .inl ⟨_, .number place n, rfl⟩
      | ended =>
          obtain ⟨v, haccept, hv⟩ := exists_of_bind_eq_ok hresult
          exact .inr ⟨_, v, haccept, .inr hv⟩
  | word due scalar =>
      cases due with
      | nil => cases hstep
      | cons d due =>
          change (if c ≠ d then _ else if due.isEmpty then _ else _) = _ at hstep
          split at hstep
          · cases hstep
          · split at hstep
            · obtain ⟨v, haccept, hv⟩ := exists_of_bind_eq_ok hstep
              cases hv
              exact .inr ⟨scalar, v, haccept, .inl rfl⟩
            · cases hstep
              exact .inl ⟨_, .word due scalar, rfl⟩

section

variable (members : List (String × Shape))

/-- A value without parts is no record. -/
theorem accept_record_ne (scalar : Scalar) (v : Value) :
  (Want.kept (.record members)).accept scalar ≠ .ok v
  := by
  intro h
  cases scalar with
  | number n =>
      rw [Want.accept] at h
      split at h <;> cases h
  | null | boolean | text s => cases h

/-- The reader is in a value without parts, but a record is due. -/
inductive Astray : State → Prop
  | scalar {mode : Mode} (h : InScalar (.kept (.record members)) mode) : Astray ⟨mode, []⟩

variable {members}

/-- No character leads out of such a value. -/
theorem Astray.step {s s' : State} {c : Char} (h : Astray members s) (hstep : s.step c = .ok s') :
  Astray members s'
  := by
  cases h with
  | scalar h =>
      obtain ⟨mode', hmode, rfl⟩ | ⟨scalar, v, haccept, -⟩ := h.step hstep
      · exact .scalar hmode
      · exact absurd haccept (accept_record_ne members scalar v)

theorem Astray.finish_ne {s : State} (h : Astray members s) (v : Value) :
  s.finish ≠ .ok v
  := by
  intro hfinish
  cases h with
  | scalar h =>
      cases h with
      | text place text => cases hfinish
      | word due scalar => cases hfinish
      | number place n =>
          simp only [State.finish] at hfinish
          split at hfinish
          · obtain ⟨w, haccept, -⟩ := exists_of_bind_eq_ok hfinish
            exact absurd haccept (accept_record_ne members _ w)
          · cases hfinish

end

/-! ### Inside lists and records -/

/-- Whether the whole value has been read. -/
def Mode.isFinished : Mode → Bool
  | finished _ => true
  | _ => false

/-- The reader is inside a list or record. -/
structure Inside (s : State) : Prop where
  stack : s.stack ≠ []
  mode : s.mode.isFinished = false

/-- The reader is inside a list or record, or has read the whole value. -/
inductive Past : State → Prop
  | inside {s : State} (h : Inside s) : Past s
  | finished (v : Value) : Past ⟨.finished v, []⟩

theorem inside_of_mode {stack : List Frame} (h : stack ≠ []) {mode : Mode}
    (hmode : mode.isFinished = false) :
  Inside ⟨mode, stack⟩
  := ⟨h, hmode⟩

/-- After a value that is handed to a list or record, the reader is inside it. -/
theorem inside_deliver {stack : List Frame} (h : stack ≠ []) (v : Value) :
  Inside (State.deliver stack v)
  := by
  rw [State.deliver.eq_def]
  split
  · contradiction
  · exact inside_of_mode (List.cons_ne_nil _ _) rfl
  · exact inside_of_mode (List.cons_ne_nil _ _) rfl
  · exact inside_of_mode (List.cons_ne_nil _ _) rfl
  · exact inside_of_mode h rfl

theorem past_deliver (stack : List Frame) (v : Value) :
  Past (State.deliver stack v)
  := by
  cases stack with
  | nil => apply Past.finished
  | cons frame outer =>
      apply Past.inside
      apply inside_deliver (List.cons_ne_nil _ _)

theorem past_closeArray {stack : List Frame} {s : State} (h : State.closeArray stack = .ok s) :
  Past s
  := by
  rw [State.closeArray.eq_def] at h
  split at h
  · cases h
    apply past_deliver
  · obtain ⟨rest, -, hrest⟩ := exists_of_bind_eq_ok h
    cases hrest
    apply past_deliver
  · cases h
    apply past_deliver
  · cases h

theorem past_closeObject {stack : List Frame} {s : State} (h : State.closeObject stack = .ok s) :
  Past s
  := by
  rw [State.closeObject.eq_def] at h
  split at h
  · obtain ⟨members, -, hmembers⟩ := exists_of_bind_eq_ok h
    cases hmembers
    apply past_deliver
  · cases h
    apply past_deliver
  · cases h

theorem inside_comma {stack : List Frame} (hne : stack ≠ []) {s : State}
    (h : State.comma stack = .ok s) :
  Inside s
  := by
  rw [State.comma.eq_def] at h
  split at h
  · cases h
    exact inside_of_mode hne rfl
  · cases h
    exact inside_of_mode hne rfl
  · split at h
    · cases h
      exact inside_of_mode hne rfl
    · cases h

theorem inside_named {stack : List Frame} (hne : stack ≠ []) {name : String} {s : State}
    (h : State.named stack name = .ok s) :
  Inside s
  := by
  rw [State.named.eq_def] at h
  split at h
  · split at h
    · split at h
      · cases h
      · cases h
        exact inside_of_mode (List.cons_ne_nil _ _) rfl
    · cases h
      exact inside_of_mode (List.cons_ne_nil _ _) rfl
  · cases h
    exact inside_of_mode hne rfl

/-- An opening bracket leads into a list or record. -/
theorem inside_openArray {stack : List Frame} {want : Want} {s : State}
    (h : State.openArray stack want = .ok s) :
  Inside s
  := by
  rw [State.openArray.eq_def] at h
  split at h
  all_goals
    cases h
  all_goals exact inside_of_mode (List.cons_ne_nil _ _) rfl

/-- An opening brace leads into a record. -/
theorem inside_openObject {stack : List Frame} {want : Want} {s : State}
    (h : State.openObject stack want = .ok s) :
  Inside s
  := by
  rw [State.openObject.eq_def] at h
  split at h
  all_goals
    cases h
  all_goals exact inside_of_mode (List.cons_ne_nil _ _) rfl

theorem InScalar.inside {want : Want} {mode : Mode} (h : InScalar want mode) {stack : List Frame}
    (hne : stack ≠ []) :
  Inside ⟨mode, stack⟩
  := by
  cases h <;> exact inside_of_mode hne rfl

/-- The first character of a value leads into the value. -/
theorem inside_startValue {want : Want} {stack : List Frame} (hne : stack ≠ []) {c : Char}
    {s : State} (h : State.startValue want stack c = .ok s) :
  Inside s
  := by
  obtain ⟨-, hopen⟩ | ⟨-, hopen⟩ | ⟨mode, hmode, rfl⟩ := startValue_cases h
  · apply inside_openArray hopen
  · apply inside_openObject hopen
  · apply hmode.inside hne

theorem Past.afterValue {s s' : State} {c : Char} (h : Past s) (hstep : s.afterValue c = .ok s') :
  Past s'
  := by
  rw [State.afterValue.eq_def] at hstep
  split at hstep
  · cases hstep
    apply h
  · cases h with
    | finished v => cases hstep
    | inside h =>
        split at hstep
        · split_ifs at hstep
          · apply Past.inside (inside_comma h.stack hstep)
          · apply past_closeArray hstep
          · apply past_closeObject hstep
        · cases hstep

theorem InScalar.past {want : Want} {mode : Mode} (h : InScalar want mode) {stack : List Frame}
    (hne : stack ≠ []) {c : Char} {s : State} (hstep : State.step ⟨mode, stack⟩ c = .ok s) :
  Past s
  := by
  obtain ⟨mode', hmode, rfl⟩ | ⟨scalar, v, -, rfl | hafter⟩ := h.step hstep
  · apply Past.inside (hmode.inside hne)
  · apply past_deliver
  · apply (past_deliver stack v).afterValue hafter

/-- Every step from inside a list or record stays inside one, or ends the whole value. -/
theorem Inside.step {s s' : State} {c : Char} (h : Inside s) (hstep : s.step c = .ok s') :
  Past s'
  := by
  obtain ⟨mode, stack⟩ := s
  have hne : stack ≠ [] := h.stack
  cases mode with
  | value want =>
      change (if isSpace c then _ else _) = _ at hstep
      split_ifs at hstep
      · cases hstep
        apply Past.inside h
      · apply Past.inside (inside_startValue hne hstep)
  | itemOrEnd =>
      change (if isSpace c then _ else if c = ']' then _ else _) = _ at hstep
      split_ifs at hstep
      · cases hstep
        apply Past.inside h
      · apply past_closeArray hstep
      · split at hstep
        · apply Past.inside (inside_startValue hne hstep)
        · cases hstep
  | nameOrEnd =>
      change (if isSpace c then _ else if c = '"' then _ else if c = '\x7d' then _ else _) = _
        at hstep
      split_ifs at hstep
      · cases hstep
        apply Past.inside h
      · cases hstep
        exact .inside (inside_of_mode hne rfl)
      · apply past_closeObject hstep
  | name =>
      change (if isSpace c then _ else if c = '"' then _ else _) = _ at hstep
      split_ifs at hstep
      · cases hstep
        apply Past.inside h
      · cases hstep
        exact .inside (inside_of_mode hne rfl)
  | colon want =>
      change (if isSpace c then _ else if c = ':' then _ else _) = _ at hstep
      split_ifs at hstep
      · cases hstep
        apply Past.inside h
      · cases hstep
        exact .inside (inside_of_mode hne rfl)
  | inName place text =>
      change (Quoted.step _ place text c >>= _) = _ at hstep
      obtain ⟨result, -, hresult⟩ := exists_of_bind_eq_ok hstep
      cases result with
      | more place text =>
          cases hresult
          exact .inside (inside_of_mode hne rfl)
      | closed => apply Past.inside (inside_named hne hresult)
  | inText want place text => apply (InScalar.text place text).past hne hstep
  | inNumber want place n => apply (InScalar.number place n).past hne hstep
  | inWord want due scalar => apply (InScalar.word due scalar).past hne hstep
  | separator => apply (Past.inside h).afterValue hstep
  | finished v => cases h.mode

theorem Past.step {s s' : State} {c : Char} (h : Past s) (hstep : s.step c = .ok s') :
  Past s'
  := by
  cases h with
  | inside h => apply h.step hstep
  | finished v => apply (Past.finished v).afterValue hstep

/-- A list or record that has been begun has to be ended. -/
theorem Inside.finish_ne {s : State} (h : Inside s) (v : Value) :
  s.finish ≠ .ok v
  := by
  intro hfinish
  obtain ⟨mode, stack⟩ := s
  cases mode with
  | finished w => cases h.mode
  | inNumber want place n =>
      simp only [State.finish] at hfinish
      split at hfinish
      · obtain ⟨w, -, hw⟩ := exists_of_bind_eq_ok hfinish
        split at hw
        · next u hu =>
            have hmode := (inside_deliver h.stack w).mode
            rw [hu] at hmode
            cases hmode
        · cases hw
      · split at hfinish <;> cases hfinish
  | _ => cases hfinish

/-! ### Reading a record -/

section

variable {members : List (String × Shape)}

/-- The states that the reader of a record comes to. -/
inductive Along (members : List (String × Shape)) : State → Prop
  | start : Along members (State.start (.record members))
  | astray {s : State} (h : Astray members s) : Along members s
  | past {s : State} (h : Past s) : Along members s

/-- Only a bracket or a brace begins a record. -/
theorem astray_startValue {c : Char} (hbracket : c ≠ '[') (hbrace : c ≠ '\x7b') {s : State}
    (h : State.startValue (.kept (.record members)) [] c = .ok s) :
  Astray members s
  := by
  obtain ⟨hc, -⟩ | ⟨hc, -⟩ | ⟨mode, hmode, rfl⟩ := startValue_cases h
  · contradiction
  · contradiction
  · exact .scalar hmode

theorem step_start {shape : Shape} {c : Char} (h : isSpace c = false) :
  (State.start shape).step c = State.startValue (.kept shape) [] c
  := by
  rw [State.start, State.step, h]
  rfl

theorem Along.step {s s' : State} {c : Char} (h : Along members s) (hstep : s.step c = .ok s') :
  Along members s'
  := by
  cases h with
  | astray h => apply Along.astray (h.step hstep)
  | past h => apply Along.past (h.step hstep)
  | start =>
      cases hspace : isSpace c with
      | true =>
          rw [State.start, State.step, hspace] at hstep
          cases hstep
          apply Along.start
      | false =>
          rw [step_start hspace] at hstep
          obtain ⟨-, hopen⟩ | ⟨-, hopen⟩ | ⟨mode, hmode, rfl⟩ := startValue_cases hstep
          · apply Along.past (.inside (inside_openArray hopen))
          · apply Along.past (.inside (inside_openObject hopen))
          · exact .astray (.scalar hmode)

/-- When a record has been read, the reader is behind it. -/
theorem finished_of_read {text : List Char} {v : Value}
    (h : read (.record members) text = .ok v) :
  text.foldlM State.step (State.start (.record members)) = .ok ⟨.finished v, []⟩
  := by
  obtain ⟨s, hread, hfinish⟩ := read_eq_ok_iff.mp h
  rw [hread]
  have halong : Along members s := foldlM_step_keeps Along.step Along.start hread
  cases halong with
  | start => cases hfinish
  | astray h => exact absurd hfinish (h.finish_ne v)
  | past h =>
      cases h with
      | inside h => exact absurd hfinish (h.finish_ne v)
      | finished w =>
          cases hfinish
          rfl

/-- What is read as a record begins, behind white space, with a bracket or a brace. -/
theorem exists_opening_of_read {text : List Char} {v : Value}
    (h : read (.record members) text = .ok v) :
  ∃ spaces c rest, text = spaces ++ c :: rest ∧ (∀ d ∈ spaces, isSpace d = true)
    ∧ (c = '[' ∨ c = '\x7b')
  := by
  induction text with
  | nil => cases h
  | cons c text ih =>
      cases hspace : isSpace c with
      | true =>
          have hrest : read (.record members) text = .ok v := by
            rw [← h, read, read, foldlM_step_cons]
            rw [State.start, State.step, hspace]
            rfl
          obtain ⟨spaces, d, rest, rfl, hspaces, hd⟩ := ih hrest
          use c :: spaces, d, rest, rfl
          constructor
          · intro e he
            obtain rfl | he := List.mem_cons.mp he
            · apply hspace
            · apply hspaces e he
          · apply hd
      | false =>
          use [], c, text, rfl
          constructor
          · intro d hd
            cases hd
          · by_contra hopen
            rw [not_or] at hopen
            obtain ⟨s, hread, hfinish⟩ := read_eq_ok_iff.mp h
            rw [List.foldlM_cons, step_start hspace] at hread
            obtain ⟨next, hnext, hrest⟩ := exists_of_bind_eq_ok hread
            have hastray : Astray members s :=
              foldlM_step_keeps Astray.step (astray_startValue hopen.1 hopen.2 hnext) hrest
            exact absurd hfinish (hastray.finish_ne v)

/-- Behind a record only white space may follow. -/
theorem read_append {text : List Char} {v : Value} (h : read (.record members) text = .ok v)
    (rest : List Char) :
  read (.record members) (text ++ rest) = if rest.all isSpace then .ok v else .error .malformed
  := by
  have hstep {c : Char} : State.step ⟨.finished v, []⟩ c
      = if isSpace c then .ok ⟨.finished v, []⟩ else .error .malformed := rfl
  rw [read, foldlM_step_append_of (finished_of_read h)]
  induction rest with
  | nil => rfl
  | cons c rest ih =>
      rw [List.foldlM_cons, hstep, List.all_cons]
      cases isSpace c with
      | true => apply ih
      | false => rfl

end

end FeedClient.Json
