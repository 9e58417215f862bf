/-!
# How well a label fits what was typed

A label fits when the typed characters occur in it in their order, in upper or lower case. Of the
ways to find them, the one with the highest score counts: characters score more where a word starts
and one right after the other, and less after a gap.
-/

namespace FeedClient.Prompt

/-- The best scores for what was typed up to some character, at one place of the label. -/
structure Cell where
  /-- With the character found at this place. -/
  found : Option Int
  /-- With the character found before this place. -/
  passed : Option Int

namespace Cell

/-- The better of two scores. -/
def better : Option Int → Option Int → Option Int
  | some a, some b => some (max a b)
  | a, none => a
  | none, b => b

/-- Whether a character separates words: blanks, slashes and brackets do. -/
def separates (c : Char) : Bool :=
  " /\\|()[]\x7b\x7d".toList.contains c

/-- Whether a character separates parts of words: other ASCII marks do. -/
def divides (c : Char) : Bool :=
  '!' ≤ c && c ≤ '~' && !c.isAlphanum && !separates c

/-- What a character scores for where it stands; the first one of the label scores twice what the
first one of another word does. -/
def placeBonus (before : Option Char) (c : Char) : Int :=
  match before with
  | none => 16
  | some b =>
    if separates b then 8
    else if divides b then 7
    else if c.isUpper && !b.isUpper then 6
    else 0

/-- What a character scores that is found; upper and lower case are worth less for each other. -/
def matchScore (c typed : Char) : Int :=
  if c = typed then 16 else 14

/-- The place after another one: `diagonal` is the cell of the character typed before, at the place
before. A character right after the one before it scores at least four for that, and a gap of `n`
characters costs `n + 3`. -/
def next (diagonal left : Cell) (before : Option Char) (c typed : Char) : Cell :=
  let place := placeBonus before c
  { found :=
      if c.toLower = typed.toLower then
        (better (diagonal.found.map (· + max place 4)) (diagonal.passed.map (· + place))).map
          (· + matchScore c typed)
      else none
    passed := better (left.found.map (· - 4)) (left.passed.map (· - 1)) }

/-- Before anything was typed. -/
def outset : Cell :=
  ⟨none, some 0⟩

/-- A place where nothing has been found. -/
def blank : Cell :=
  ⟨none, none⟩

end Cell

/-- The cells of one typed character; `diagonal`, `left` and `before` belong to the place before. -/
def row (typed : Char) :
    (diagonal left : Cell) → (before : Option Char) → List (Cell × Char) → List (Cell × Char)
  | _, _, _, [] => []
  | diagonal, left, before, (above, c) :: rest =>
    let cell := Cell.next diagonal left before c typed
    (cell, c) :: row typed above cell (some c) rest

/-- The score of a label; none when it does not fit. -/
def score? (typed : List Char) (label : String) : Option Int :=
  match typed with
  | [] => some 0
  | c :: rest =>
    let start := label.toList.map fun c => (Cell.outset, c)
    let rows := rest.foldl (fun cells c => row c .blank .blank none cells)
      (row c .outset .blank none start)
    rows.foldl (fun best cell => Cell.better best cell.1.found) none

end FeedClient.Prompt
