import FeedClient.Prompt

/-!
# Keys of a terminal

A terminal sends a character for most keys, and for the arrow keys an escape, a bracket and a
letter. Control characters are keys that are held down with the control key; most of them, the
tabulator among them, do nothing in a prompt.
-/

namespace FeedClient.Key

/-- The key of a character that does something in a prompt. -/
def ofChar? (c : Char) : Option Key :=
  if c = '\n' || c = '\r' then some enter
  else if c = '\x08' || c = '\x7f' then some backspace
  else if c = '\x03' || c = '\x07' || c = '\x1b' then some escape
  else if c = '\x10' then some up
  else if c = '\x0e' then some down
  else if c < ' ' then none
  else some (character c)

/-- The keys that characters of a terminal stand for. -/
def ofChars : List Char → List Key
  | [] => []
  | '\x1b' :: '[' :: 'A' :: rest => up :: ofChars rest
  | '\x1b' :: '[' :: 'B' :: rest => down :: ofChars rest
  | '\x1b' :: '[' :: _ :: rest => ofChars rest
  | c :: rest => (ofChar? c).toList ++ ofChars rest

end FeedClient.Key
