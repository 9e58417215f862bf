/-!
# Blanks, newlines and comments

A comment goes from a number sign to the end of its line. A line ends with a line feed, which may
have a carriage return before it. Control characters other than the tabulator and those of newlines
stand neither in comments nor in strings.
-/

namespace FeedClient.Toml

/-- Whether a character is white space inside a line. -/
def isBlank (c : Char) : Bool :=
  c = ' ' || c = '\t'

/-- Whether a character may stand in a comment or a string. -/
def isText (c : Char) : Bool :=
  c = '\t' || (' ' ≤ c && c ≠ '\x7f')

/-- Whether a character is part of a newline, with the text that comes after it. -/
def isNewline (c : Char) (rest : List Char) : Bool :=
  c = '\n' || (c = '\r' && rest.head? = some '\n')

/-- What comes after the blanks. -/
def skipBlanks (s : List Char) : List Char :=
  s.dropWhile isBlank

/-- Goes over blanks, newlines and comments. -/
def skipLines (inComment : Bool) : List Char → Option (List Char)
  | [] => some []
  | c :: rest =>
    if isNewline c rest then skipLines false rest
    else if inComment then if isText c then skipLines true rest else none
    else if isBlank c then skipLines false rest
    else if c = '#' then skipLines true rest
    else some (c :: rest)

/-- Goes over a newline, if there is one. -/
def newline? : List Char → Option (List Char)
  | '\n' :: rest | '\r' :: '\n' :: rest => some rest
  | _ => none

/-- The next line, when nothing but blanks and a comment is left of this one. -/
def endLine (s : List Char) : Option (List Char) :=
  match skipBlanks s with
  | [] => some []
  | '#' :: rest =>
    match rest.dropWhile isText with
    | [] => some []
    | rest => newline? rest
  | rest => newline? rest

end FeedClient.Toml
