import FeedClient.Prompt.Likeness

/-!
# Prompts

On a terminal the user answers by keys. A choice shows options with a cursor on one of them; typing
narrows the options down to those that fit, the best first. A line is edited at its end. A prompt
is over when a key answers it or cancels it.
-/

namespace FeedClient

/-- How a question to the user is answered. -/
inductive Prompted (α : Type)
  | given (a : α)
  | cancelled
  /-- There is no user to ask. -/
  | unavailable
deriving DecidableEq, Repr

/-- A key of the terminal. -/
inductive Key
  | character (c : Char)
  | enter
  | escape
  | up
  | down
  | backspace
deriving DecidableEq, Repr

namespace Prompt

/-- What a key does to a prompt. -/
inductive Pressed (σ α : Type)
  | more (prompt : σ)
  | given (a : α)
  | cancelled

/-- A choice among options. -/
structure Choice (count : Nat) where
  option : Fin count → String
  typed : List Char
  /-- The options that fit, in the order in which they are shown. -/
  listed : List (Fin count)
  cursor : Nat

namespace Choice

/-- A choice before the first key. -/
def start {count : Nat} (option : Fin count → String) : Choice count :=
  ⟨option, [], List.finRange count, 0⟩

/-- Puts an option behind those that fit as well as it does, and before the others. -/
def rank {count : Nat} (score : Int) (i : Fin count) :
    List (Int × Fin count) → List (Int × Fin count)
  | [] => [(score, i)]
  | (score', i') :: rest =>
    if score' < score then (score, i) :: (score', i') :: rest
    else (score', i') :: rank score i rest

/-- The options that fit what was typed, the best first. -/
def fitting {count : Nat} (option : Fin count → String) (typed : List Char) : List (Fin count) :=
  let ranked := (List.finRange count).foldl (fun out i =>
    match score? typed (option i) with
    | some score => rank score i out
    | none => out) []
  ranked.map Prod.snd

/-- Goes on with other typed characters. The cursor goes to the first option when others are
shown. -/
def narrow {count : Nat} (p : Choice count) (typed : List Char) : Choice count :=
  let listed := fitting p.option typed
  { p with typed, listed, cursor := if listed = p.listed then p.cursor else 0 }

/-- What a key does. The options go round: after the last comes the first. -/
def press {count : Nat} (p : Choice count) : Key → Pressed (Choice count) (Fin count)
  | .character c => .more (p.narrow (p.typed ++ [c]))
  | .backspace => .more (p.narrow p.typed.dropLast)
  | .up =>
    .more { p with cursor := if p.cursor = 0 then p.listed.length - 1 else p.cursor - 1 }
  | .down => .more { p with cursor := if p.cursor + 1 < p.listed.length then p.cursor + 1 else 0 }
  | .escape => .cancelled
  | .enter =>
    match p.listed[p.cursor]? with
    | some i => .given i
    | none => .more p

end Choice

/-- A line that is being edited. -/
structure Line where
  text : List Char
deriving DecidableEq, Repr

/-- What a key does. -/
def Line.press (p : Line) : Key → Pressed Line String
  | .character c => .more ⟨p.text ++ [c]⟩
  | .backspace => .more ⟨p.text.dropLast⟩
  | .up | .down => .more p
  | .escape => .cancelled
  | .enter => .given (String.ofList p.text)

/-- Presses keys until the prompt is over, and gives the keys that are left. A prompt that is still
open then is cancelled. -/
def answer {σ α : Type} (press : σ → Key → Pressed σ α) : σ → List Key → Prompted α × List Key
  | _, [] => (.cancelled, [])
  | prompt, key :: rest =>
    match press prompt key with
    | .more prompt => answer press prompt rest
    | .given a => (.given a, rest)
    | .cancelled => (.cancelled, rest)

end Prompt

end FeedClient
