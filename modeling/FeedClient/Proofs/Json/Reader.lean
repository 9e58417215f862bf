import FeedClient.Json.Reader
import FeedClient.Json.Writer
import FeedClient.Proofs.Json.Numeral
import FeedClient.Proofs.Json.Quoted
import Mathlib.Data.List.Forall2

/-!
# Texts that stand for values

A text stands for a value when the reader, wherever a value is due, goes over the text and hands this
value to the list or record it is in. Only the character after it tells where a number ends, so
`Stands` looks at the text with one character that may follow; what is `Closed` needs no such
character. What is written for a text, an integer, a list or a record stands for it.
-/

namespace FeedClient.Json

/-! ### Reading in parts -/

theorem foldlM_step_cons {state state' : State} {c : Char} (h : state.step c = .ok state')
    (s : List Char) :
  (c :: s).foldlM State.step state = s.foldlM State.step state'
  := by
  rw [List.foldlM_cons, h]
  rfl

theorem foldlM_step_append_of {state state' : State} {s : List Char}
    (h : s.foldlM State.step state = .ok state') (t : List Char) :
  (s ++ t).foldlM State.step state = t.foldlM State.step state'
  := by
  rw [foldlM_step_append, h]
  rfl

theorem foldlM_step_singleton (state : State) (c : Char) :
  [c].foldlM State.step state = state.step c
  := by
  rw [List.foldlM_cons]
  apply bind_pure

/-- White space leaves the reader where it is. -/
theorem foldlM_spaces {s : State} (hstep : ∀ {c : Char}, isSpace c = true → s.step c = .ok s)
    {spaces : List Char} (h : ∀ c ∈ spaces, isSpace c = true) :
  spaces.foldlM State.step s = .ok s
  := by
  induction spaces with
  | nil => rfl
  | cons c spaces ih =>
      rw [foldlM_step_cons (hstep (h c List.mem_cons_self))]
      apply ih
      intro d hd
      apply h d (List.mem_cons_of_mem _ hd)

/-! ### Where a value is due -/

/-- The modes in which a value is due. -/
inductive Due (want : Want) (stack : List Frame) : Mode → Prop
  | value : Due want stack (.value want)
  | item (h : State.nextItem stack = some want) : Due want stack .itemOrEnd

theorem Due.step {want : Want} {stack : List Frame} {mode : Mode} (h : Due want stack mode)
    {c : Char} (hspace : isSpace c = false) (hclose : c ≠ ']') :
  State.step ⟨mode, stack⟩ c = State.startValue want stack c
  := by
  cases h with
  | value => simp [State.step, hspace]
  | item h => simp [State.step, hspace, hclose, h]

/-- The modes in which the name of a member is due. -/
inductive NameDue : Mode → Prop
  | first : NameDue .nameOrEnd
  | further : NameDue .name

theorem NameDue.step {mode : Mode} (h : NameDue mode) (stack : List Frame) :
  State.step ⟨mode, stack⟩ '"' = .ok ⟨.inName .plain [], stack⟩
  := by
  cases h <;> rfl

/-- Whether a character may come after a value: white space, a comma or an end. -/
def endsValue (c : Char) : Bool :=
  isSpace c || c = ',' || c = ']' || c = '\x7d'

theorem cases_of_endsValue {c : Char} (h : endsValue c = true) :
  c = ' ' ∨ c = '\n' ∨ c = '\t' ∨ c = '\r' ∨ c = ',' ∨ c = ']' ∨ c = '\x7d'
  := by
  simpa [endsValue, isSpace, or_assoc] using h

/-- A number that may end ends before these characters. -/
theorem Numeral.step_of_endsValue (n : Numeral) {place : Place} {c : Char}
    (hplace : place.isEnd = true) (h : endsValue c = true) :
  n.step place c = .ok .ended
  := by
  rcases cases_of_endsValue h with rfl | rfl | rfl | rfl | rfl | rfl | rfl
  all_goals
    cases place with
    | zero | integer | fraction | power => rfl
    | sign | point | mark | powerSign => cases hplace

/-- After a value that has been handed over, the reader is after a value. -/
theorem State.step_deliver (stack : List Frame) (v : Value) (c : Char) :
  (deliver stack v).step c = (deliver stack v).afterValue c
  := by
  unfold deliver
  split <;> rfl

/-! ### Texts -/

/-- The text is read as the value, wherever such a value is due. -/
def Closed (want : Want) (text : List Char) (v : Value) : Prop :=
  ∀ ⦃stack : List Frame⦄ ⦃mode : Mode⦄, Due want stack mode →
    text.foldlM State.step ⟨mode, stack⟩ = .ok (State.deliver stack v)

/-- The text is read as the value, wherever such a value is due, by the character after it. -/
def Stands (want : Want) (text : List Char) (v : Value) : Prop :=
  ∀ ⦃stack : List Frame⦄ ⦃mode : Mode⦄ ⦃c : Char⦄, Due want stack mode → endsValue c = true →
    (text ++ [c]).foldlM State.step ⟨mode, stack⟩ = (State.deliver stack v).afterValue c

theorem Closed.stands {want : Want} {text : List Char} {v : Value} (h : Closed want text v) :
  Stands want text v
  := by
  intro stack mode c hdue _
  rw [foldlM_step_append_of (h hdue), foldlM_step_singleton, State.step_deliver]

theorem closed_of_startValue {want : Want} {first : Char} {rest : List Char} {v : Value}
    (hspace : isSpace first = false) (hclose : first ≠ ']')
    (hread : ∀ stack, State.startValue want stack first >>= rest.foldlM State.step
      = .ok (State.deliver stack v)) :
  Closed want (first :: rest) v
  := by
  intro stack mode hdue
  rw [List.foldlM_cons, hdue.step hspace hclose, hread]

/-- A text that is read as a value is this value as a whole. -/
theorem Closed.read {shape : Shape} {text : List Char} {v : Value}
    (h : Closed (.kept shape) text v) :
  read shape text = .ok v
  := by
  rw [Json.read, State.start, h .value]
  rfl

/-! ### Strings -/

theorem State.step_inText {want : Want} {place place' : Quoted.Place} {text text' : List Char}
    {c : Char} (h : Quoted.step want.strict place text c = .ok (.more place' text'))
    (stack : List Frame) :
  step ⟨.inText want place text, stack⟩ c = .ok ⟨.inText want place' text', stack⟩
  := by
  simp only [step, h]
  rfl

/-- Whether the names of members are read for their text. -/
def namesKept : List Frame → Bool
  | .members .. :: _ => true
  | _ => false

theorem State.step_inName {place place' : Quoted.Place} {text text' : List Char} {c : Char}
    {stack : List Frame}
    (h : Quoted.step (namesKept stack) place text c = .ok (.more place' text')) :
  step ⟨.inName place text, stack⟩ c = .ok ⟨.inName place' text', stack⟩
  := by
  change (Quoted.step (namesKept stack) place text c >>= _) = _
  rw [h]
  rfl

theorem foldlM_inText {want : Want} {place place' : Quoted.Place} {text text' s : List Char}
    (h : Quoted.Inside want.strict place text s place' text') (stack : List Frame) :
  s.foldlM State.step ⟨.inText want place text, stack⟩ = .ok ⟨.inText want place' text', stack⟩
  := by
  induction h with
  | nil place text => rfl
  | cons hstep rest ih =>
      rw [foldlM_step_cons (State.step_inText hstep stack)]
      apply ih

theorem foldlM_inName {place place' : Quoted.Place} {text text' s : List Char} {stack : List Frame}
    (h : Quoted.Inside (namesKept stack) place text s place' text') :
  s.foldlM State.step ⟨.inName place text, stack⟩ = .ok ⟨.inName place' text', stack⟩
  := by
  induction h with
  | nil place text => rfl
  | cons hstep rest ih =>
      rw [foldlM_step_cons (State.step_inName hstep)]
      apply ih

theorem closed_text {want : Want} {s text : List Char} {v : Value}
    (h : Quoted.Inside want.strict .plain [] s .plain text)
    (haccept : want.accept (.text (String.ofList text.reverse)) = .ok v) :
  Closed want ('"' :: s ++ ['"']) v
  := by
  intro stack mode hdue
  have hstart : State.step ⟨mode, stack⟩ '"' = .ok ⟨.inText want .plain [], stack⟩ :=
    hdue.step rfl (by decide)
  rw [List.cons_append, foldlM_step_cons hstart, foldlM_step_append_of (foldlM_inText h stack),
    foldlM_step_singleton]
  change (want.accept _ >>= fun v => .ok (State.deliver stack v)) = _
  rw [haccept]
  rfl

/-- However a text is written, it is read as itself. -/
theorem closed_of_mem_quoted {shape : Shape} {s : String} {v : Value}
    (haccept : shape.accept (.text s) = .ok v) :
  ∀ text ∈ quoted s, Closed (.kept shape) text v
  := by
  intro text htext
  obtain ⟨written, hwritten, rfl⟩ := mem_enclosed.mp htext
  have hinside : Quoted.Inside (Want.kept shape).strict .plain [] written .plain
      (s.toList.reverse ++ []) :=
    Quoted.inside_of_mem_characters hwritten []
  apply closed_text hinside
  rw [List.append_nil, List.reverse_reverse, String.ofList_toList]
  apply haccept

/-- What is written for a text stands for it. -/
theorem closed_quote {shape : Shape} {s : String} {v : Value}
    (haccept : shape.accept (.text s) = .ok v) :
  Closed (.kept shape) (quote s.toList) v
  := closed_of_mem_quoted haccept _ (quote_mem_quoted s)

/-- The name of a member of an object. -/
theorem foldlM_name {mode : Mode} {s text : List Char} {stack : List Frame} (hdue : NameDue mode)
    (h : Quoted.Inside (namesKept stack) .plain [] s .plain text) :
  ('"' :: s ++ ['"']).foldlM State.step ⟨mode, stack⟩
    = State.named stack (String.ofList text.reverse)
  := by
  rw [List.cons_append, foldlM_step_cons (hdue.step _), foldlM_step_append_of (foldlM_inName h),
    foldlM_step_singleton]
  rfl

/-- However the name of a member of a record is written, it is this name. -/
theorem foldlM_name_of_mem_quoted {name : String} {all : List (String × Shape)}
    {found : List (String × Value)} {before : Option String} {outer : List Frame} {mode : Mode}
    (hdue : NameDue mode) :
  ∀ text ∈ quoted name, text.foldlM State.step ⟨mode, .members all found before :: outer⟩
    = State.named (.members all found before :: outer) name
  := by
  intro text htext
  obtain ⟨written, hwritten, rfl⟩ := mem_enclosed.mp htext
  have hinside : Quoted.Inside (namesKept (.members all found before :: outer)) .plain [] written
      .plain (name.toList.reverse ++ []) :=
    Quoted.inside_of_mem_characters hwritten []
  have hread := foldlM_name hdue hinside
  rw [List.append_nil, List.reverse_reverse, String.ofList_toList] at hread
  apply hread

/-! ### Integers -/

theorem State.step_inNumber {want : Want} {place place' : Numeral.Place} {n n' : Numeral} {c : Char}
    (h : n.step place c = .ok (.more place' n')) (stack : List Frame) :
  step ⟨.inNumber want place n, stack⟩ c = .ok ⟨.inNumber want place' n', stack⟩
  := by
  simp only [step, h]
  rfl

theorem foldlM_inNumber {want : Want} {place place' : Numeral.Place} {n n' : Numeral}
    {s : List Char} (h : Numeral.Inside place n s place' n') (stack : List Frame) :
  s.foldlM State.step ⟨.inNumber want place n, stack⟩ = .ok ⟨.inNumber want place' n', stack⟩
  := by
  induction h with
  | nil place n => rfl
  | cons hstep rest ih =>
      rw [foldlM_step_cons (State.step_inNumber hstep stack)]
      apply ih

/-- A number that may end is handed over by the character after it. -/
theorem stands_number {want : Want} {place place' : Numeral.Place} {first : Char} {s : List Char}
    {n n' : Numeral} {v : Value} (hspace : isSpace first = false) (hclose : first ≠ ']')
    (hstart : ∀ stack, State.startValue want stack first = .ok ⟨.inNumber want place n, stack⟩)
    (h : Numeral.Inside place n s place' n') (hend : place'.isEnd = true)
    (haccept : want.accept (.number n') = .ok v) :
  Stands want (first :: s) v
  := by
  intro stack mode c hdue hc
  have hfirst := (hdue.step hspace hclose).trans (hstart stack)
  rw [List.cons_append, foldlM_step_cons hfirst, foldlM_step_append_of (foldlM_inNumber h stack),
    foldlM_step_singleton]
  simp only [State.step, Numeral.step_of_endsValue n' hend hc]
  change (want.accept _ >>= fun v => (State.deliver stack v).afterValue c) = _
  rw [haccept]
  rfl

theorem isSpace_of_isDigit {c : Char} (h : isDigit c = true) :
  isSpace c = false
  := by
  have hblank : c ≠ ' ' := ne_of_isDigit h rfl
  have hline : c ≠ '\n' := ne_of_isDigit h rfl
  have htab : c ≠ '\t' := ne_of_isDigit h rfl
  have hreturn : c ≠ '\r' := ne_of_isDigit h rfl
  simp [isSpace, hblank, hline, htab, hreturn]

theorem State.startValue_of_isDigit {c : Char} (h : isDigit c = true) (hzero : c ≠ '0')
    (want : Want) (stack : List Frame) :
  startValue want stack c
    = .ok ⟨.inNumber want .integer ((Numeral.ofNat false 0).addDigit false c), stack⟩
  := by
  have hne {d : Char} (hd : isDigit d = false) : c ≠ d := ne_of_isDigit h hd
  rw [startValue, if_neg (hne rfl), if_neg (hne rfl), if_neg (hne rfl), if_neg (hne rfl),
    if_neg hzero, if_pos h]
  rfl

/-- A number without a sign begins as one does behind its sign. -/
theorem stands_unsigned {want : Want} {place : Numeral.Place} {n : Numeral} {text : List Char}
    {v : Value} (h : Numeral.Inside .sign { negative := false } text place n)
    (hend : place.isEnd = true) (haccept : want.accept (.number n) = .ok v) :
  Stands want text v
  := by
  cases h with
  | nil => cases hend
  | cons hfirst hrest =>
      rw [Numeral.step] at hfirst
      split_ifs at hfirst with hzero hdigit
      · cases hfirst
        subst hzero
        exact stands_number rfl (by decide) (fun _ => rfl) hrest hend haccept
      · cases hfirst
        exact stands_number (isSpace_of_isDigit hdigit) (ne_of_isDigit hdigit rfl)
          (State.startValue_of_isDigit hdigit hzero _) hrest hend haccept

/-- The digits of a number, behind a sign if it is negative, stand for it. -/
theorem stands_digits {want : Want} {n : Nat} {v : Value} (negative : Bool)
    (hlimit : n ≤ Numeral.limit)
    (haccept : want.accept (.number (Numeral.ofNat negative n)) = .ok v) :
  Stands want (if negative then '-' :: Nat.toDigits 10 n else Nat.toDigits 10 n) v
  := by
  obtain ⟨place, hend, hinside⟩ := Numeral.exists_inside_toDigits negative hlimit
  cases negative with
  | true => exact stands_number rfl (by decide) (fun _ => rfl) hinside hend haccept
  | false => exact stands_unsigned hinside hend haccept

/-- What is written for an integer of 64 bits stands for it. -/
theorem stands_writeInt {shape : Shape} {i : Int64} {v : Value}
    (haccept : ∀ n : Numeral, n.toInt64? = some i → shape.accept (.number n) = .ok v) :
  Stands (.kept shape) (writeInt i.toInt) v
  := by
  have hlimit : i.toInt.natAbs ≤ Numeral.limit := by
    have hlow := Int64.le_toInt i
    have hhigh := Int64.toInt_lt i
    rw [Numeral.limit]
    omega
  have haccept' : Want.accept (.kept shape)
      (.number (Numeral.ofNat (i.toInt < 0) i.toInt.natAbs)) = .ok v := by
    rw [Want.accept, Numeral.isInfinite_ofNat _ hlimit]
    apply haccept
    apply Numeral.toInt64?_ofNat
  have hstands := stands_digits _ hlimit haccept'
  simpa only [writeInt, writeNat, decide_eq_true_eq] using hstands

/-! ### Null -/

/-- What is written for nothing stands for it. -/
theorem closed_writeNull {inner : Shape} :
  Closed (.kept (.optional inner)) writeNull .nothing
  := by
  apply closed_of_startValue rfl (by decide)
  intro stack
  rfl

/-! ### Parts of lists and records -/

/-- The modes in which the next item of the array that the reader is in is due. -/
def ItemDue (stack : List Frame) (mode : Mode) : Prop :=
  ∀ want, State.nextItem stack = some want → Due want stack mode

theorem itemDue_itemOrEnd (stack : List Frame) :
  ItemDue stack .itemOrEnd
  := fun _ h => .item h

theorem itemDue_value {stack : List Frame} {want : Want} (h : State.nextItem stack = some want) :
  ItemDue stack (.value want)
  := by
  intro want' h'
  obtain rfl : want = want' := Option.some.inj (h ▸ h')
  apply Due.value

/-- After a comma the next item is due. -/
theorem State.comma_of_nextItem {stack : List Frame} {want : Want}
    (h : nextItem stack = some want) :
  comma stack = .ok ⟨.value want, stack⟩
  := by
  unfold comma
  split
  · cases h
  · cases h
  · rw [h]

/-- After an item and a comma the next item is due. -/
theorem foldlM_joined_item {f f' : Frame} {want want' : Want} {text : List Char} {v : Value}
    (h : Stands want text v) {stack : List Frame} {mode : Mode} (hdue : Due want (f :: stack) mode)
    (hdeliver : State.deliver (f :: stack) v = ⟨.separator, f' :: stack⟩)
    (hnext : State.nextItem (f' :: stack) = some want') {texts : List (List Char)} (hne : texts ≠ [])
    (rest : List Char) :
  (joined (text :: texts) ++ rest).foldlM State.step ⟨mode, f :: stack⟩
    = (joined texts ++ rest).foldlM State.step ⟨.value want', f' :: stack⟩
  := by
  obtain ⟨next, texts, rfl⟩ := List.exists_cons_of_ne_nil hne
  have hcomma : (text ++ [',']).foldlM State.step ⟨mode, f :: stack⟩
      = .ok ⟨.value want', f' :: stack⟩ := by
    rw [h hdue (by decide), hdeliver]
    apply State.comma_of_nextItem hnext
  have hparts : joined (text :: next :: texts) ++ rest
      = (text ++ [',']) ++ (joined (next :: texts) ++ rest) := by
    simp [joined]
  rw [hparts, foldlM_step_append_of hcomma]

/-- The texts are read, one after the other, as items of the array that the reader is in. -/
inductive Items : Frame → List (List Char) → Frame → Prop
  | nil (f : Frame) : Items f [] f
  | cons {f f' f'' : Frame} {want : Want} {text : List Char} {texts : List (List Char)} {v : Value}
      (hdue : ∀ stack, State.nextItem (f :: stack) = some want)
      (hdeliver : ∀ stack, State.deliver (f :: stack) v = ⟨.separator, f' :: stack⟩)
      (h : Stands want text v) (rest : Items f' texts f'') :
    Items f (text :: texts) f''

/-- After the items of an array, of which there are some, its bracket is closed. -/
theorem Items.foldlM {f f' : Frame} {texts : List (List Char)} (h : Items f texts f')
    (hne : texts ≠ []) (stack : List Frame) :
  ∀ {mode : Mode}, ItemDue (f :: stack) mode →
    (joined texts ++ [']']).foldlM State.step ⟨mode, f :: stack⟩
      = State.closeArray (f' :: stack)
  := by
  induction h with
  | nil => contradiction
  | @cons f f' f'' want text texts v hdue hdeliver hfirst hrest ih =>
      intro mode hmode
      have hmode' := hmode want (hdue stack)
      cases hrest with
      | nil =>
          rw [joined, hfirst hmode' (by decide), hdeliver]
          rfl
      | cons hnext hdeliver' hsecond hrest =>
          rw [foldlM_joined_item hfirst hmode' (hdeliver stack) (hnext stack) (List.cons_ne_nil _ _)]
          apply ih (List.cons_ne_nil _ _) (itemDue_value (hnext stack))

/-- After the items of an array its bracket is closed. -/
theorem Items.closes {f f' : Frame} {texts : List (List Char)} (h : Items f texts f')
    (stack : List Frame) :
  (joined texts ++ [']']).foldlM State.step ⟨.itemOrEnd, f :: stack⟩
    = State.closeArray (f' :: stack)
  := by
  cases texts with
  | nil =>
      cases h
      apply foldlM_step_singleton
  | cons text texts => apply h.foldlM (List.cons_ne_nil _ _) stack (itemDue_itemOrEnd _)

/-- The text is read as one further member of the object that the reader is in. -/
def Joins (f : Frame) (text : List Char) (f' : Frame) : Prop :=
  ∀ ⦃stack : List Frame⦄ ⦃mode : Mode⦄ ⦃c : Char⦄, NameDue mode → endsValue c = true →
    (text ++ [c]).foldlM State.step ⟨mode, f :: stack⟩
      = State.afterValue ⟨.separator, f' :: stack⟩ c

/-- After a member and a comma the next name is due. -/
theorem Joins.foldlM_joined {f f' : Frame} {text : List Char} (h : Joins f text f')
    {stack : List Frame} (hcomma : State.comma (f' :: stack) = .ok ⟨.name, f' :: stack⟩)
    {mode : Mode} (hdue : NameDue mode) {texts : List (List Char)} (hne : texts ≠ [])
    (rest : List Char) :
  (joined (text :: texts) ++ rest).foldlM State.step ⟨mode, f :: stack⟩
    = (joined texts ++ rest).foldlM State.step ⟨.name, f' :: stack⟩
  := by
  obtain ⟨next, texts, rfl⟩ := List.exists_cons_of_ne_nil hne
  have hread : (text ++ [',']).foldlM State.step ⟨mode, f :: stack⟩ = .ok ⟨.name, f' :: stack⟩ := by
    rw [h hdue (by decide)]
    apply hcomma
  have hparts : joined (text :: next :: texts) ++ rest
      = (text ++ [',']) ++ (joined (next :: texts) ++ rest) := by
    simp [joined]
  rw [hparts, foldlM_step_append_of hread]

/-- The texts are read, one after the other, as members of the object that the reader is in. -/
inductive Members : Frame → List (List Char) → Frame → Prop
  | nil (f : Frame) : Members f [] f
  | cons {f f' f'' : Frame} {text : List Char} {texts : List (List Char)} (h : Joins f text f')
      (hcomma : ∀ stack, State.comma (f' :: stack) = .ok ⟨.name, f' :: stack⟩)
      (rest : Members f' texts f'') :
    Members f (text :: texts) f''

/-- After the members of an object, of which there are some, its brace is closed. -/
theorem Members.foldlM {f f' : Frame} {texts : List (List Char)} (h : Members f texts f')
    (hne : texts ≠ []) (stack : List Frame) :
  ∀ {mode : Mode}, NameDue mode →
    (joined texts ++ ['\x7d']).foldlM State.step ⟨mode, f :: stack⟩
      = State.closeObject (f' :: stack)
  := by
  induction h with
  | nil => contradiction
  | cons hfirst hcomma hrest ih =>
      intro mode hdue
      cases hrest with
      | nil =>
          rw [joined, hfirst hdue (by decide)]
          rfl
      | cons hsecond hcomma' hrest =>
          rw [hfirst.foldlM_joined (hcomma stack) hdue (List.cons_ne_nil _ _)]
          apply ih (List.cons_ne_nil _ _) .further

/-- After the members of an object its brace is closed. -/
theorem Members.closes {f f' : Frame} {texts : List (List Char)} (h : Members f texts f')
    (stack : List Frame) :
  (joined texts ++ ['\x7d']).foldlM State.step ⟨.nameOrEnd, f :: stack⟩
    = State.closeObject (f' :: stack)
  := by
  cases texts with
  | nil =>
      cases h
      apply foldlM_step_singleton
  | cons text texts => apply h.foldlM (List.cons_ne_nil _ _) stack .first

/-! ### Lists -/

theorem items_of_forall₂ {item : Shape} {texts : List (List Char)} {vs : List Value}
    (h : List.Forall₂ (Stands (.kept item)) texts vs) :
  ∀ read : List Value, Items (.items item read) texts (.items item (vs.reverse ++ read))
  := by
  induction h with
  | nil => exact fun read => .nil _
  | @cons text v texts vs hfirst hrest ih =>
      intro read
      apply Items.cons (fun _ => rfl) (fun _ => rfl) hfirst
      rw [List.reverse_cons, List.append_assoc]
      apply ih

/-- What is written for a list stands for it. -/
theorem closed_writeArray {want : Want} {item : Shape} {texts : List (List Char)} {vs : List Value}
    (hopen : ∀ stack, State.openArray stack want = .ok ⟨.itemOrEnd, .items item [] :: stack⟩)
    (h : List.Forall₂ (Stands (.kept item)) texts vs) :
  Closed want (writeArray texts) (.list vs)
  := by
  intro stack mode hdue
  have hstart : State.step ⟨mode, stack⟩ '[' = .ok ⟨.itemOrEnd, .items item [] :: stack⟩ :=
    (hdue.step rfl (by decide)).trans (hopen stack)
  rw [writeArray, List.cons_append, foldlM_step_cons hstart, (items_of_forall₂ h []).closes]
  simp [State.closeArray]

/-! ### Records -/

/-- The name of a member that was not found before. -/
theorem State.named_of_lookup {all : List (String × Shape)} {found : List (String × Value)}
    {before : Option String} {name : String} {shape : Shape} (hname : all.lookup name = some shape)
    (hfresh : found.lookup name = none) {outer : List Frame} :
  named (.members all found before :: outer) name
    = .ok ⟨.colon (.kept shape), .members all found (some name) :: outer⟩
  := by
  simp [named, hname, hfresh]

/-- A member that was not found before is found. -/
theorem joins_member {all : List (String × Shape)} {found : List (String × Value)} {name : String}
    {shape : Shape} {text : List Char} {v : Value} (hname : all.lookup name = some shape)
    (hfresh : found.lookup name = none) (h : Stands (.kept shape) text v) :
  Joins (.members all found none) (quote name.toList ++ ':' :: text)
    (.members all ((name, v) :: found) none)
  := by
  intro stack mode c hdue hc
  have hquote : (quote name.toList).foldlM State.step ⟨mode, .members all found none :: stack⟩
      = .ok ⟨.colon (.kept shape), .members all found (some name) :: stack⟩ := by
    rw [foldlM_name_of_mem_quoted hdue _ (quote_mem_quoted name)]
    apply State.named_of_lookup hname hfresh
  rw [List.append_assoc, foldlM_step_append_of hquote, List.cons_append]
  apply h .value hc

/-- An object of members stands for the record of what they are. -/
theorem closed_object {want : Want} {all : List (String × Shape)} {texts : List (List Char)}
    {found : List (String × Value)} {vs : List (String × Value)}
    (hopen : ∀ stack, State.openObject stack want = .ok ⟨.nameOrEnd, .members all [] none :: stack⟩)
    (h : Members (.members all [] none) texts (.members all found none))
    (hcollect : State.collect found all = .ok vs) :
  Closed want ('\x7b' :: joined texts ++ ['\x7d']) (.record vs)
  := by
  intro stack mode hdue
  have hstart : State.step ⟨mode, stack⟩ '\x7b'
      = .ok ⟨.nameOrEnd, .members all [] none :: stack⟩ :=
    (hdue.step rfl (by decide)).trans (hopen stack)
  have hclose : State.closeObject (.members all found none :: stack)
      = .ok (State.deliver stack (.record vs)) := by
    simp only [State.closeObject, hcollect]
    rfl
  rw [List.cons_append, foldlM_step_cons hstart, h.closes, hclose]

/-- The members of an object, in the order of a shape, and what they stand for: members that may be
absent can be left out. -/
inductive Writes :
    List (String × Shape) → List (String × List Char) → List (String × Value) → Prop
  | nil : Writes [] [] []
  | written {name : String} {shape : Shape} {text : List Char} {v : Value}
      {shapes : List (String × Shape)} {members : List (String × List Char)}
      {vs : List (String × Value)} (h : Stands (.kept shape) text v)
      (rest : Writes shapes members vs) :
    Writes ((name, shape) :: shapes) ((name, text) :: members) ((name, v) :: vs)
  | absent {name : String} {shape : Shape} {v : Value} {shapes : List (String × Shape)}
      {members : List (String × List Char)} {vs : List (String × Value)} (h : shape.absent = .ok v)
      (rest : Writes shapes members vs) :
    Writes ((name, shape) :: shapes) members ((name, v) :: vs)

theorem lookup_cons_of_ne {α : Type} {name other : String} (h : other ≠ name) (a : α)
    (l : List (String × α)) :
  ((name, a) :: l).lookup other = l.lookup other
  := by
  rw [List.lookup_cons, beq_false_of_ne h]

theorem lookup_of_mem {α : Type} {l : List (String × α)} (hnodup : (l.map Prod.fst).Nodup)
    {name : String} {a : α} (h : (name, a) ∈ l) :
  l.lookup name = some a
  := by
  induction l with
  | nil => cases h
  | cons p l ih =>
      obtain ⟨hfirst, hrest⟩ := List.nodup_cons.mp hnodup
      obtain rfl | hmem := List.mem_cons.mp h
      · apply List.lookup_cons_self
      · have hne : name ≠ p.1 := by
          intro heq
          apply hfirst
          exact List.mem_map.mpr ⟨(name, a), hmem, heq⟩
        rw [lookup_cons_of_ne hne, ih hrest hmem]

/-- Members that were not found before are found, and nothing else is. -/
theorem Writes.exists_members {all shapes : List (String × Shape)}
    {members : List (String × List Char)} {vs : List (String × Value)}
    (h : Writes shapes members vs) (hall : ∀ p ∈ shapes, all.lookup p.1 = some p.2)
    (hnodup : (shapes.map Prod.fst).Nodup) :
  ∀ {found : List (String × Value)}, (∀ p ∈ shapes, found.lookup p.1 = none) →
    ∃ found', Members (.members all found none)
        (members.map fun (name, text) => quote name.toList ++ ':' :: text) (.members all found' none)
      ∧ (∀ name ∉ shapes.map Prod.fst, found'.lookup name = found.lookup name)
      ∧ State.collect found' shapes = .ok vs
  := by
  induction h with
  | nil =>
      intro found hfresh
      exact ⟨found, .nil _, fun _ _ => rfl, rfl⟩
  | @written name shape text v shapes members vs h rest ih =>
      intro found hfresh
      obtain ⟨hname, hnodup⟩ := List.nodup_cons.mp hnodup
      have hfresh' : ∀ p ∈ shapes, ((name, v) :: found).lookup p.1 = none := by
        intro p hp
        rw [lookup_cons_of_ne (ne_of_mem_of_not_mem (List.mem_map_of_mem hp) hname)]
        apply hfresh p (List.mem_cons_of_mem _ hp)
      obtain ⟨found', hread, hkeeps, hcollect⟩ :=
        ih (fun p hp => hall p (List.mem_cons_of_mem _ hp)) hnodup hfresh'
      have hmember := joins_member (hall _ List.mem_cons_self) (hfresh _ List.mem_cons_self) h
      refine ⟨found', .cons hmember (fun _ => rfl) hread, ?_, ?_⟩
      · intro other hother
        obtain ⟨hne, hother⟩ := List.ne_and_not_mem_of_not_mem_cons hother
        rw [hkeeps other hother, lookup_cons_of_ne hne]
      · have hfound : found'.lookup name = some v := by
          rw [hkeeps name hname, List.lookup_cons_self]
        rw [State.collect, hfound, hcollect]
        rfl
  | @absent name shape v shapes members vs h rest ih =>
      intro found hfresh
      obtain ⟨hname, hnodup⟩ := List.nodup_cons.mp hnodup
      obtain ⟨found', hread, hkeeps, hcollect⟩ := ih (fun p hp => hall p (List.mem_cons_of_mem _ hp))
        hnodup (fun p hp => hfresh p (List.mem_cons_of_mem _ hp))
      refine ⟨found', hread, ?_, ?_⟩
      · intro other hother
        apply hkeeps other (List.not_mem_of_not_mem_cons hother)
      · have hfound : found'.lookup name = none := by
          rw [hkeeps name hname, hfresh _ List.mem_cons_self]
        rw [State.collect, hfound, hcollect]
        change (shape.absent >>= fun v => .ok ((name, v) :: vs)) = _
        rw [h]
        rfl

/-- What is written for members in the order of a shape stands for the record of what they stand
for. -/
theorem closed_writeObject {want : Want} {all : List (String × Shape)}
    {members : List (String × List Char)} {vs : List (String × Value)}
    (hopen : ∀ stack, State.openObject stack want = .ok ⟨.nameOrEnd, .members all [] none :: stack⟩)
    (hnodup : (all.map Prod.fst).Nodup) (h : Writes all members vs) :
  Closed want (writeObject members) (.record vs)
  := by
  have hfresh : ∀ p ∈ all, ([] : List (String × Value)).lookup p.1 = none := fun _ _ => rfl
  obtain ⟨found, hread, -, hcollect⟩ :=
    h.exists_members (fun p hp => lookup_of_mem hnodup hp) hnodup hfresh
  exact closed_object hopen hread hcollect

end FeedClient.Json
