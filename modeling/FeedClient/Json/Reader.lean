import FeedClient.Json.Numeral
import FeedClient.Json.Quoted

/-!
# Reading JSON by shape

A shape says what a JSON text has to look like: texts, integers, lists and records, some of them
optional. The reader goes over the text once, character by character, with a stack of the lists and
records it is inside of. A record is an object with its members in any order, or an array of them in
their order. Members of other names are passed over; they have to be JSON, and that is all.

What the reader does with `s ++ t` is what it does with `s` and then with `t`: reading is a fold.
-/

namespace FeedClient.Json

/-- What a JSON value has to look like. -/
inductive Shape
  | text
  | integer
  /-- Null stands for nothing, and so does a member that is not there. -/
  | optional (inner : Shape)
  | list (item : Shape)
  | record (members : List (String × Shape))

/-- A value that was read by its shape. The members of a record are in the order of the shape. -/
inductive Value
  | nothing
  | text (s : String)
  | integer (n : Int64)
  | list (items : List Value)
  | record (members : List (String × Value))
deriving Repr

/-- A value that has no parts. -/
inductive Scalar
  | null
  | boolean
  | text (s : String)
  | number (n : Numeral)
deriving DecidableEq, Repr

/-- Takes a value without parts for a value of the shape. -/
def Shape.accept : Shape → Scalar → Except Fault Value
  | text, .text s => .ok (.text s)
  | integer, .number n =>
    match n.toInt64? with
    | some i => .ok (.integer i)
    | none => .error .mismatched
  | optional _, .null => .ok .nothing
  | optional inner, s => inner.accept s
  | _, _ => .error .mismatched

/-- The value of a member that is not there. -/
def Shape.absent : Shape → Except Fault Value
  | optional _ => .ok .nothing
  | _ => .error .mismatched

/-- What becomes of the value that is read next. -/
inductive Want
  | kept (shape : Shape)
  | skipped

/-- Whether strings are read for their text. -/
def Want.strict : Want → Bool
  | kept _ => true
  | skipped => false

/-- The value that a scalar is taken for. A number that is kept has to be finite. -/
def Want.accept : Want → Scalar → Except Fault Value
  | skipped, _ => .ok .nothing
  | kept shape, .number n => if n.isInfinite then .error .malformed else shape.accept (.number n)
  | kept shape, s => shape.accept s

/-- A list or record that the reader is inside of. -/
inductive Frame
  /-- A list, and the items read so far, the last one first. -/
  | items (item : Shape) (read : List Value)
  /-- A record written as an array: the members that are due, and those read, the last one first. -/
  | positions (due : List (String × Shape)) (read : List (String × Value))
  /-- A record written as an object: all its members, those found so far, and the name of the one
  being read. -/
  | members (all : List (String × Shape)) (found : List (String × Value)) (name : Option String)
  | skippedItems
  | skippedMembers

/-- What is read next, or is being read. -/
inductive Mode
  /-- A value is due. -/
  | value (want : Want)
  /-- After an opening bracket: a first value or the closing bracket. -/
  | itemOrEnd
  /-- After a value inside a list or record: a comma or the end. -/
  | separator
  /-- After an opening brace: a first name or the closing brace. -/
  | nameOrEnd
  /-- After a comma inside an object. -/
  | name
  /-- After a name: a colon and the value of the member. -/
  | colon (want : Want)
  | inName (place : Quoted.Place) (text : List Char)
  | inText (want : Want) (place : Quoted.Place) (text : List Char)
  | inNumber (want : Want) (place : Numeral.Place) (n : Numeral)
  /-- Among the letters of a word, those that are due and the scalar that it stands for. -/
  | inWord (want : Want) (due : List Char) (scalar : Scalar)
  /-- The whole value has been read. -/
  | finished (value : Value)

/-- How far the reader has come. -/
structure State where
  mode : Mode
  stack : List Frame

/-- Whether JSON takes a character for white space between tokens. -/
def isSpace (c : Char) : Bool :=
  c = ' ' || c = '\n' || c = '\t' || c = '\r'

namespace State

/-- Hands a value that has been read to the list or record it is in. -/
def deliver (stack : List Frame) (v : Value) : State :=
  match stack with
  | [] => ⟨.finished v, []⟩
  | .items item read :: outer => ⟨.separator, .items item (v :: read) :: outer⟩
  | .positions ((name, _) :: due) read :: outer =>
    ⟨.separator, .positions due ((name, v) :: read) :: outer⟩
  | .members all found (some name) :: outer =>
    ⟨.separator, .members all ((name, v) :: found) none :: outer⟩
  | _ => ⟨.separator, stack⟩

/-- What the next item of the array that the reader is in is read for; none when no further item
may follow. -/
def nextItem : List Frame → Option Want
  | .items item _ :: _ => some (.kept item)
  | .positions ((_, shape) :: _) _ :: _ => some (.kept shape)
  | .skippedItems :: _ => some .skipped
  | _ => none

/-- The members of a record that were not written. -/
def absentMembers : List (String × Shape) → Except Fault (List (String × Value))
  | [] => .ok []
  | (name, shape) :: rest => do
    let v ← shape.absent
    let vs ← absentMembers rest
    .ok ((name, v) :: vs)

/-- The members of a record in their order, given those that were found in an object. -/
def collect (found : List (String × Value)) :
    List (String × Shape) → Except Fault (List (String × Value))
  | [] => .ok []
  | (name, shape) :: rest => do
    let v ← match found.lookup name with
      | some v => .ok v
      | none => shape.absent
    let vs ← collect found rest
    .ok ((name, v) :: vs)

/-- A closing bracket. -/
def closeArray : List Frame → Except Fault State
  | .items _ read :: outer => .ok (deliver outer (.list read.reverse))
  | .positions due read :: outer => do
    let rest ← absentMembers due
    .ok (deliver outer (.record (read.reverse ++ rest)))
  | .skippedItems :: outer => .ok (deliver outer .nothing)
  | _ => .error .malformed

/-- A closing brace. -/
def closeObject : List Frame → Except Fault State
  | .members all found _ :: outer => do
    let members ← collect found all
    .ok (deliver outer (.record members))
  | .skippedMembers :: outer => .ok (deliver outer .nothing)
  | _ => .error .malformed

/-- A comma inside a list or record. -/
def comma (stack : List Frame) : Except Fault State :=
  match stack with
  | .members .. :: _ => .ok ⟨.name, stack⟩
  | .skippedMembers :: _ => .ok ⟨.name, stack⟩
  | _ =>
    match nextItem stack with
    | some want => .ok ⟨.value want, stack⟩
    | none => .error .malformed

/-- The name of a member has been read. A name that was found before is refused. -/
def named (stack : List Frame) (name : String) : Except Fault State :=
  match stack with
  | .members all found _ :: outer =>
    match all.lookup name with
    | some shape =>
      if (found.lookup name).isSome then .error .mismatched
      else .ok ⟨.colon (.kept shape), .members all found (some name) :: outer⟩
    | none => .ok ⟨.colon .skipped, .members all found none :: outer⟩
  | _ => .ok ⟨.colon .skipped, stack⟩

/-- An opening bracket. -/
def openArray (stack : List Frame) : Want → Except Fault State
  | .skipped => .ok ⟨.itemOrEnd, .skippedItems :: stack⟩
  | .kept (.list item) | .kept (.optional (.list item)) =>
    .ok ⟨.itemOrEnd, .items item [] :: stack⟩
  | .kept (.record members) | .kept (.optional (.record members)) =>
    .ok ⟨.itemOrEnd, .positions members [] :: stack⟩
  | .kept _ => .error .mismatched

/-- An opening brace. -/
def openObject (stack : List Frame) : Want → Except Fault State
  | .skipped => .ok ⟨.nameOrEnd, .skippedMembers :: stack⟩
  | .kept (.record members) | .kept (.optional (.record members)) =>
    .ok ⟨.nameOrEnd, .members members [] none :: stack⟩
  | .kept _ => .error .mismatched

/-- The first character of a value. -/
def startValue (want : Want) (stack : List Frame) (c : Char) : Except Fault State :=
  if c = '"' then .ok ⟨.inText want .plain [], stack⟩
  else if c = '[' then openArray stack want
  else if c = '\x7b' then openObject stack want
  else if c = '-' then .ok ⟨.inNumber want .sign { negative := true }, stack⟩
  else if c = '0' then .ok ⟨.inNumber want .zero { negative := false }, stack⟩
  else if isDigit c then
    .ok ⟨.inNumber want .integer (Numeral.addDigit { negative := false } false c), stack⟩
  else if c = 'n' then .ok ⟨.inWord want ['u', 'l', 'l'] .null, stack⟩
  else if c = 't' then .ok ⟨.inWord want ['r', 'u', 'e'] .boolean, stack⟩
  else if c = 'f' then .ok ⟨.inWord want ['a', 'l', 's', 'e'] .boolean, stack⟩
  else .error .malformed

/-- A character after a value: white space, a comma or an end. -/
def afterValue (s : State) (c : Char) : Except Fault State :=
  if isSpace c then .ok s
  else
    match s.mode with
    | .separator =>
      if c = ',' then comma s.stack
      else if c = ']' then closeArray s.stack
      else if c = '\x7d' then closeObject s.stack
      else .error .malformed
    | _ => .error .malformed

/-- Reads one character. -/
def step (s : State) (c : Char) : Except Fault State :=
  match s.mode with
  | .value want => if isSpace c then .ok s else startValue want s.stack c
  | .itemOrEnd =>
    if isSpace c then .ok s
    else if c = ']' then closeArray s.stack
    else
      match nextItem s.stack with
      | some want => startValue want s.stack c
      | none => .error .malformed
  | .nameOrEnd =>
    if isSpace c then .ok s
    else if c = '"' then .ok ⟨.inName .plain [], s.stack⟩
    else if c = '\x7d' then closeObject s.stack
    else .error .malformed
  | .name =>
    if isSpace c then .ok s
    else if c = '"' then .ok ⟨.inName .plain [], s.stack⟩
    else .error .malformed
  | .colon want =>
    if isSpace c then .ok s
    else if c = ':' then .ok ⟨.value want, s.stack⟩
    else .error .malformed
  | .inName place text => do
    let strict := match s.stack with
      | .members .. :: _ => true
      | _ => false
    match ← Quoted.step strict place text c with
    | .more place text => .ok ⟨.inName place text, s.stack⟩
    | .closed => named s.stack (String.ofList text.reverse)
  | .inText want place text => do
    match ← Quoted.step want.strict place text c with
    | .more place text => .ok ⟨.inText want place text, s.stack⟩
    | .closed =>
      let v ← want.accept (.text (String.ofList text.reverse))
      .ok (deliver s.stack v)
  | .inNumber want place n => do
    match ← n.step place c with
    | .more place n => .ok ⟨.inNumber want place n, s.stack⟩
    | .ended =>
      let v ← want.accept (.number n)
      (deliver s.stack v).afterValue c
  | .inWord want due scalar =>
    match due with
    | [] => .error .malformed
    | d :: due =>
      if c ≠ d then .error .malformed
      else if due.isEmpty then do
        let v ← want.accept scalar
        .ok (deliver s.stack v)
      else .ok ⟨.inWord want due scalar, s.stack⟩
  | .separator | .finished _ => s.afterValue c

/-- The end of the text. A number may end here, everything else has to be complete before; an
unfinished number that is passed over is malformed. -/
def finish (s : State) : Except Fault Value :=
  match s.mode with
  | .finished v => .ok v
  | .inNumber want place n =>
    if place.isEnd then do
      let v ← want.accept (.number n)
      match (deliver s.stack v).mode with
      | .finished v => .ok v
      | _ => .error .truncated
    else
      match want with
      | .kept _ => .error .truncated
      | .skipped => .error .malformed
  | _ => .error .truncated

/-- The reader before the first character of a value of the shape. -/
def start (shape : Shape) : State :=
  ⟨.value (.kept shape), []⟩

end State

/-- Reads a text as one JSON value of the shape, with white space around it. -/
def read (shape : Shape) (s : List Char) : Except Fault Value := do
  let state ← s.foldlM State.step (State.start shape)
  state.finish

/-- Reading goes over the parts of a text one after the other. -/
theorem foldlM_step_append (state : State) (s t : List Char) :
    (s ++ t).foldlM State.step state = s.foldlM State.step state >>= t.foldlM State.step
  :=
  List.foldlM_append

end FeedClient.Json
