/-!
# Terminal styling

A style is a pair of ANSI escape sequences that is written around a text. Colours of the foreground
end with the sequence for the default colour, everything else with the sequence that resets all.
-/

namespace FeedClient.Text

/-- A way to show a text on the terminal. -/
inductive Style
  | bold
  | dimmed
  | brightCyan
  | brightGreen
  | brightRed
  | yellow
  | blue
  /-- Black letters on a bright green ground. -/
  | highlighted
deriving DecidableEq, Repr

/-- The parameters of the sequence that starts a style and of the one that ends it. -/
def Style.codes : Style → String × String
  | bold => ("1", "0")
  | dimmed => ("2", "0")
  | brightCyan => ("96", "39")
  | brightGreen => ("92", "39")
  | brightRed => ("91", "39")
  | yellow => ("33", "39")
  | blue => ("34", "39")
  | highlighted => ("30;102", "0")

/-- The escape sequence with the given parameters. -/
def escape (codes : String) : String :=
  "\x1b[" ++ codes ++ "m"

/-- A text shown in a style. -/
def Style.apply (style : Style) (s : String) : String :=
  escape style.codes.1 ++ s ++ escape style.codes.2

end FeedClient.Text
