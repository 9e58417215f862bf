import FeedClient.Proofs.Json.Record

/-!
# Texts that are cut short

A text that is written for a record can be cut short anywhere: inside a string or an escape, inside a
word or a number, between tokens. What is left is truncated, it is neither another value nor a wrong
one. `Stalls` says so of a reader and the text before it; the parts of a record are put together
with `Stalls.cons` and `Stalls.append`.
-/

namespace FeedClient.Json

/-! ### Cutting a text short -/

/-- Cut short anywhere, or ended after it, the text is truncated. -/
def Stalls (s : State) (text : List Char) : Prop :=
  ∀ ⦃p : List Char⦄, p <+: text → p.foldlM State.step s >>= State.finish = .error .truncated

theorem stalls_nil {s : State} (h : s.finish = .error .truncated) :
  Stalls s []
  := by
  intro p hp
  rw [List.prefix_nil.mp hp]
  apply h

theorem Stalls.cons {s s' : State} {c : Char} {text : List Char}
    (hs : s.finish = .error .truncated) (hstep : s.step c = .ok s') (h : Stalls s' text) :
  Stalls s (c :: text)
  := by
  intro p hp
  obtain rfl | ⟨q, rfl, hq⟩ := List.prefix_cons_iff.mp hp
  · apply hs
  · rw [foldlM_step_cons hstep]
    apply h hq

/-- The text is read on by the character after it. -/
theorem Stalls.append {s s' : State} {c : Char} {text rest : List Char} (h : Stalls s text)
    (hread : (text ++ [c]).foldlM State.step s = .ok s') (hrest : Stalls s' rest) :
  Stalls s (text ++ c :: rest)
  := by
  intro p hp
  rw [← List.concat_append, List.concat_eq_append] at hp
  obtain hshort | ⟨q, rfl⟩ := List.prefix_or_prefix_of_prefix hp (List.prefix_append _ _)
  · obtain rfl | hshort := List.prefix_concat_iff.mp hshort
    · rw [hread]
      apply hrest List.nil_prefix
    · apply h hshort
  · rw [foldlM_step_append_of hread]
    apply hrest
    apply (List.prefix_append_right_inj _).mp hp

/-! ### Values -/

/-- Inside a list or record, the text of the value can be cut short anywhere. -/
def Unfinished (want : Want) (text : List Char) : Prop :=
  ∀ ⦃stack : List Frame⦄ ⦃mode : Mode⦄, stack ≠ [] → Due want stack mode → Stalls ⟨mode, stack⟩ text

theorem Due.finish {want : Want} {stack : List Frame} {mode : Mode} (h : Due want stack mode) :
  State.finish ⟨mode, stack⟩ = .error .truncated
  := by
  cases h <;> rfl

theorem NameDue.finish {mode : Mode} (h : NameDue mode) (stack : List Frame) :
  State.finish ⟨mode, stack⟩ = .error .truncated
  := by
  cases h <;> rfl

theorem Due.inside {want : Want} {stack : List Frame} {mode : Mode} (h : Due want stack mode)
    (hne : stack ≠ []) :
  Inside ⟨mode, stack⟩
  := by
  cases h <;> exact inside_of_mode hne rfl

/-- A value that is handed to a list or record is not the end. -/
theorem finish_deliver {stack : List Frame} (h : stack ≠ []) (v : Value) :
  (State.deliver stack v).finish = .error .truncated
  := by
  rw [State.deliver.eq_def]
  split
  · contradiction
  all_goals rfl

/-- Inside a list or record, a number that is accepted is not the end. -/
theorem finish_inNumber {want : Want} {place : Numeral.Place} {n : Numeral} {stack : List Frame}
    {v : Value} (hne : stack ≠ []) (hend : place.isEnd = true)
    (haccept : want.accept (.number n) = .ok v) :
  State.finish ⟨.inNumber want place n, stack⟩ = .error .truncated
  := by
  have hmode := (inside_deliver hne v).mode
  simp only [State.finish, hend, if_true, haccept, bind, Except.bind]
  split
  · next w hw =>
      rw [hw] at hmode
      cases hmode
  · rfl

/-- Inside a list or record, what white space may follow is not the end. -/
theorem Inside.finish_of_step {s s' : State} (h : Inside s) (hstep : s.step ' ' = .ok s') :
  s.finish = .error .truncated
  := by
  obtain ⟨mode, stack⟩ := s
  cases mode with
  | finished v => cases h.mode
  | inNumber want place n =>
      cases place with
      | sign | point | mark | powerSign => cases hstep
      | zero | integer | fraction | power =>
          change (want.accept (.number n) >>= fun v => (State.deliver stack v).afterValue ' ') = _
            at hstep
          obtain ⟨v, haccept, -⟩ := exists_of_bind_eq_ok hstep
          apply finish_inNumber h.stack rfl haccept
  | _ => rfl

/-- Inside a list or record, a whole value is not the end. -/
theorem Stands.truncated {want : Want} {text : List Char} {v : Value} (h : Stands want text v)
    {stack : List Frame} {mode : Mode} (hne : stack ≠ []) (hdue : Due want stack mode) :
  text.foldlM State.step ⟨mode, stack⟩ >>= State.finish = .error .truncated
  := by
  have hspace : (text ++ [' ']).foldlM State.step ⟨mode, stack⟩ = .ok (State.deliver stack v) :=
    h hdue rfl
  rw [foldlM_step_append] at hspace
  obtain ⟨s, hread, hstep⟩ := exists_of_bind_eq_ok hspace
  rw [foldlM_step_singleton] at hstep
  rw [hread]
  have hpast : Past s := foldlM_step_keeps Past.step (.inside (hdue.inside hne)) hread
  cases hpast with
  | inside hinside => apply hinside.finish_of_step hstep
  | finished w =>
      have hmode := (inside_deliver hne v).mode
      rw [← Except.ok.inj hstep] at hmode
      cases hmode

/-- What is enclosed can be cut short in what it encloses. -/
theorem unfinished_enclosed {want : Want} {first last : Char} {inner : List Char} {v : Value}
    {opened : List Frame → State} (hclosed : Closed want (first :: inner ++ [last]) v)
    (hopen : ∀ {stack : List Frame} {mode : Mode}, Due want stack mode →
      State.step ⟨mode, stack⟩ first = .ok (opened stack))
    (hinner : ∀ stack, Stalls (opened stack) inner) :
  Unfinished want (first :: inner ++ [last])
  := by
  intro stack mode hne hdue
  have hread := hclosed hdue
  rw [List.cons_append, foldlM_step_cons (hopen hdue)] at hread
  apply Stalls.cons hdue.finish (hopen hdue)
  apply (hinner stack).append hread
  apply stalls_nil
  apply finish_deliver hne

/-! ### Strings -/

theorem Quoted.Inside.exists_of_prefix {strict : Bool} {place place' : Place}
    {text text' s p : List Char} (h : Inside strict place text s place' text') (hp : p <+: s) :
  ∃ place'' text'', Inside strict place text p place'' text''
  := by
  induction h generalizing p with
  | nil place text =>
      rw [List.prefix_nil.mp hp]
      exact ⟨place, text, .nil _ _⟩
  | cons hstep hrest ih =>
      obtain rfl | ⟨q, rfl, hq⟩ := List.prefix_cons_iff.mp hp
      · exact ⟨_, _, .nil _ _⟩
      · obtain ⟨place'', text'', hinside⟩ := ih hq
        exact ⟨place'', text'', .cons hstep hinside⟩

theorem unfinished_quote {shape : Shape} {s : String} {v : Value}
    (haccept : shape.accept (.text s) = .ok v) :
  Unfinished (.kept shape) (quote s.toList)
  := by
  have hinside : Quoted.Inside (Want.kept shape).strict .plain [] (s.toList.flatMap escapeChar)
      .plain (s.toList.reverse ++ []) :=
    Quoted.inside_of_mem_characters (Quoted.flatMap_mem_characters s.toList) []
  apply unfinished_enclosed (closed_quote haccept) (fun hdue => hdue.step rfl (by decide))
  intro stack p hp
  obtain ⟨place, text, hread⟩ := hinside.exists_of_prefix hp
  rw [foldlM_inText hread]
  rfl

/-- The name of a member and its colon. -/
theorem stalls_name {name : String} {all : List (String × Shape)} {found : List (String × Value)}
    {stack : List Frame} {mode : Mode} (hdue : NameDue mode) {shape : Shape}
    (hname : all.lookup name = some shape) (hfresh : found.lookup name = none) {rest : List Char}
    (hrest : Stalls ⟨.value (.kept shape), .members all found (some name) :: stack⟩ rest) :
  Stalls ⟨mode, .members all found none :: stack⟩ (quote name.toList ++ ':' :: rest)
  := by
  have hinside : Quoted.Inside (namesKept (.members all found none :: stack)) .plain []
      (name.toList.flatMap escapeChar) .plain (name.toList.reverse ++ []) :=
    Quoted.inside_of_mem_characters (Quoted.flatMap_mem_characters name.toList) []
  have hread : (quote name.toList).foldlM State.step ⟨mode, .members all found none :: stack⟩
      = .ok ⟨.colon (.kept shape), .members all found (some name) :: stack⟩ := by
    rw [foldlM_name_of_mem_quoted hdue _ (quote_mem_quoted name)]
    apply State.named_of_lookup hname hfresh
  rw [quote, List.cons_append, foldlM_step_cons (hdue.step _)] at hread
  have hparts : quote name.toList ++ ':' :: rest
      = '"' :: (name.toList.flatMap escapeChar ++ '"' :: ':' :: rest) := by
    simp [quote]
  rw [hparts]
  apply Stalls.cons (hdue.finish _) (hdue.step _)
  apply Stalls.append _ hread
  · apply Stalls.cons rfl rfl hrest
  · intro p hp
    obtain ⟨place, text, hread⟩ := hinside.exists_of_prefix hp
    rw [foldlM_inName hread]
    rfl

/-! ### Null and integers -/

theorem unfinished_writeNull {inner : Shape} :
  Unfinished (.kept (.optional inner)) writeNull
  := by
  intro stack mode hne hdue
  have hstart : State.step ⟨mode, stack⟩ 'n'
      = .ok ⟨.inWord (.kept (.optional inner)) ['u', 'l', 'l'] .null, stack⟩ :=
    hdue.step rfl (by decide)
  apply Stalls.cons hdue.finish hstart
  apply Stalls.cons rfl rfl
  apply Stalls.cons rfl rfl
  apply Stalls.cons rfl rfl
  apply stalls_nil
  apply finish_deliver hne

/-- The first digits of a number are those of a number. -/
theorem exists_of_prefix_toDigits {n : Nat} {p : List Char} (h : p <+: Nat.toDigits 10 n)
    (hne : p ≠ []) :
  ∃ m ≤ n, (0 < n → 0 < m) ∧ p = Nat.toDigits 10 m
  := by
  induction n using Nat.strongRecOn generalizing p with
  | ind n ih =>
      have hn := Nat.toDigits_eq_if (b := 10) (n := n) (by decide)
      split at hn
      · rw [hn] at h
        obtain rfl | ⟨q, rfl, hq⟩ := List.prefix_cons_iff.mp h
        · contradiction
        · rw [List.prefix_nil.mp hq, ← hn]
          exact ⟨n, Nat.le_refl n, id, rfl⟩
      · next hge =>
          rw [hn] at h
          obtain rfl | hshort := List.prefix_concat_iff.mp h
          · rw [← hn]
            exact ⟨n, Nat.le_refl n, id, rfl⟩
          · obtain ⟨m, hle, hpos, rfl⟩ := ih (n / 10) (by omega) hshort hne
            exact ⟨m, by omega, fun _ => hpos (by omega), rfl⟩

/-- An integer that is cut short is nothing, a sign or an integer. -/
theorem exists_of_prefix_writeInt {i : Int64} {p : List Char} (h : p <+: writeInt i.toInt) :
  p = [] ∨ p = ['-'] ∨ ∃ j : Int64, p = writeInt j.toInt
  := by
  have hlow := Int64.le_toInt i
  have hhigh := Int64.toInt_lt i
  rw [writeInt] at h
  split at h
  · next hnegative =>
      obtain rfl | ⟨q, rfl, hq⟩ := List.prefix_cons_iff.mp h
      · exact .inl rfl
      · right
        by_cases hempty : q = []
        · exact .inl (hempty ▸ rfl)
        · right
          obtain ⟨m, hle, hpos, rfl⟩ := exists_of_prefix_toDigits hq hempty
          have hm : (Int64.ofInt (-m)).toInt = -m := Int64.toInt_ofInt_of_le (by omega) (by omega)
          use .ofInt (-m)
          rw [hm, writeInt, if_pos (by omega), Int.natAbs_neg, Int.natAbs_natCast, writeNat]
  · by_cases hempty : p = []
    · exact .inl hempty
    · right
      right
      obtain ⟨m, hle, -, rfl⟩ := exists_of_prefix_toDigits h hempty
      have hm : (Int64.ofInt m).toInt = m := Int64.toInt_ofInt_of_le (by omega) (by omega)
      use .ofInt m
      rw [hm, writeInt, if_neg (by omega), Int.natAbs_natCast, writeNat]

/-- An integer can be cut short anywhere: what is left is an integer, or it misses its digits. -/
theorem unfinished_writeInt {shape : Shape} {value : Int64 → Value}
    (haccept : ∀ (n : Numeral) {i : Int64}, n.toInt64? = some i →
      shape.accept (.number n) = .ok (value i)) (i : Int64) :
  Unfinished (.kept shape) (writeInt i.toInt)
  := by
  intro stack mode hne hdue p hp
  obtain rfl | rfl | ⟨j, rfl⟩ := exists_of_prefix_writeInt hp
  · apply hdue.finish
  · have hstart : State.step ⟨mode, stack⟩ '-'
        = .ok ⟨.inNumber (.kept shape) .sign { negative := true }, stack⟩ :=
      hdue.step rfl (by decide)
    rw [foldlM_step_cons hstart]
    rfl
  · have hstands : Stands (.kept shape) (writeInt j.toInt) (value j) :=
      stands_writeInt fun n hn => haccept n hn
    apply hstands.truncated hne hdue

/-! ### Lists and records -/

theorem stalls_items {item : Shape} {texts : List (List Char)} {vs : List Value}
    (h : List.Forall₂ (Stands (.kept item)) texts vs)
    (hcut : ∀ text ∈ texts, Unfinished (.kept item) text) (stack : List Frame) :
  ∀ {read : List Value} {mode : Mode}, Due (.kept item) (.items item read :: stack) mode →
    Stalls ⟨mode, .items item read :: stack⟩ (joined texts)
  := by
  induction h with
  | nil =>
      intro read mode hdue
      exact stalls_nil hdue.finish
  | @cons text v texts vs hfirst hrest ih =>
      intro read mode hdue
      obtain ⟨htext, hcut⟩ := List.forall_mem_cons.mp hcut
      cases hrest with
      | nil => apply htext (List.cons_ne_nil _ _) hdue
      | cons hsecond hrest =>
          have hread : (text ++ [',']).foldlM State.step ⟨mode, .items item read :: stack⟩
              = .ok ⟨.value (.kept item), .items item (v :: read) :: stack⟩ :=
            hfirst hdue rfl
          apply (htext (List.cons_ne_nil _ _) hdue).append hread
          apply ih hcut .value

/-- A list can be cut short in any of its items. -/
theorem unfinished_writeArray {want : Want} {item : Shape} {texts : List (List Char)}
    {vs : List Value}
    (hopen : ∀ stack, State.openArray stack want = .ok ⟨.itemOrEnd, .items item [] :: stack⟩)
    (h : List.Forall₂ (Stands (.kept item)) texts vs)
    (hcut : ∀ text ∈ texts, Unfinished (.kept item) text) :
  Unfinished want (writeArray texts)
  := by
  apply unfinished_enclosed (closed_writeArray hopen h)
    (fun hdue => (hdue.step rfl (by decide)).trans (hopen _))
  intro stack
  apply stalls_items h hcut stack (.item rfl)

/-- The members of a record, by its shapes, can be cut short. -/
def Breakable (all : List (String × Shape)) (members : List (String × List Char)) : Prop :=
  ∀ p ∈ members, ∀ shape, all.lookup p.1 = some shape → Unfinished (.kept shape) p.2

theorem breakable_nil (all : List (String × Shape)) :
  Breakable all []
  := by
  intro p hp
  cases hp

theorem Breakable.cons {all : List (String × Shape)} {name : String} {text : List Char}
    {members : List (String × List Char)} {shape : Shape} (hshape : all.lookup name = some shape)
    (h : Unfinished (.kept shape) text) (hrest : Breakable all members) :
  Breakable all ((name, text) :: members)
  := by
  intro p hp shape' hshape'
  obtain rfl | hmem := List.mem_cons.mp hp
  · rw [hshape] at hshape'
    cases hshape'
    apply h
  · apply hrest p hmem shape' hshape'

/-- A record can be cut short in any of its members. -/
theorem Writes.stalls {all shapes : List (String × Shape)} {members : List (String × List Char)}
    {vs : List (String × Value)} (h : Writes shapes members vs)
    (hall : ∀ p ∈ shapes, all.lookup p.1 = some p.2) (hnodup : (shapes.map Prod.fst).Nodup)
    (hcut : Breakable all members) (stack : List Frame) :
  ∀ {found : List (String × Value)} {mode : Mode}, (∀ p ∈ shapes, found.lookup p.1 = none) →
    NameDue mode →
    Stalls ⟨mode, .members all found none :: stack⟩
      (joined (members.map fun (name, text) => quote name.toList ++ ':' :: text))
  := by
  induction h with
  | nil =>
      intro found mode hfresh hdue
      exact stalls_nil (hdue.finish _)
  | absent h rest ih =>
      intro found mode hfresh hdue
      apply ih (fun p hp => hall p (List.mem_cons_of_mem _ hp)) (List.nodup_cons.mp hnodup).2 hcut
        (fun p hp => hfresh p (List.mem_cons_of_mem _ hp)) hdue
  | @written name shape text v shapes members vs h rest ih =>
      intro found mode hfresh hdue
      obtain ⟨htext, hcut⟩ := List.forall_mem_cons.mp hcut
      obtain ⟨hname, hnodup⟩ := List.nodup_cons.mp hnodup
      obtain ⟨hlookup, hall⟩ := List.forall_mem_cons.mp hall
      obtain ⟨hnone, hfresh⟩ := List.forall_mem_cons.mp hfresh
      have hmember : Stalls ⟨mode, .members all found none :: stack⟩
          (quote name.toList ++ ':' :: text) :=
        stalls_name hdue hlookup hnone (htext shape hlookup (List.cons_ne_nil _ _) .value)
      cases members with
      | nil => apply hmember
      | cons next members =>
          have hread : (quote name.toList ++ ':' :: text ++ [',']).foldlM State.step
              ⟨mode, .members all found none :: stack⟩
                = .ok ⟨.name, .members all ((name, v) :: found) none :: stack⟩ :=
            joins_member hlookup hnone h hdue rfl
          apply hmember.append hread
          apply ih hall hnodup hcut _ .further
          intro p hp
          rw [lookup_cons_of_ne (ne_of_mem_of_not_mem (List.mem_map_of_mem hp) hname)]
          apply hfresh p hp

section

variable {all : List (String × Shape)} {members : List (String × List Char)}
  {vs : List (String × Value)} (hnodup : (all.map Prod.fst).Nodup) (h : Writes all members vs)
  (hcut : Breakable all members)
include hnodup h hcut

theorem stalls_members (stack : List Frame) :
  Stalls ⟨.nameOrEnd, .members all [] none :: stack⟩
    (joined (members.map fun (name, text) => quote name.toList ++ ':' :: text))
  := by
  apply h.stalls (fun p hp => lookup_of_mem hnodup hp) hnodup hcut stack (fun _ _ => rfl) .first

/-- A record inside a list can be cut short in any of its members. -/
theorem unfinished_writeObject :
  Unfinished (.kept (.record all)) (writeObject members)
  := by
  apply unfinished_enclosed (closed_writeObject (fun _ => rfl) hnodup h)
    (fun hdue => hdue.step rfl (by decide))
  intro stack
  apply stalls_members hnodup h hcut stack

/-- A record that is cut short is truncated. -/
theorem read_of_prefix_writeObject {p : List Char} (hp : p <+: writeObject members)
    (hne : p ≠ writeObject members) :
  read (.record all) p = .error .truncated
  := by
  rw [writeObject] at hp
  obtain rfl | hshort := List.prefix_concat_iff.mp hp
  · exact absurd rfl hne
  · rw [read]
    have hstart : State.step (State.start (.record all)) '\x7b'
        = .ok ⟨.nameOrEnd, .members all [] none :: []⟩ := rfl
    apply Stalls.cons rfl hstart (stalls_members hnodup h hcut []) hshort

end

end FeedClient.Json
