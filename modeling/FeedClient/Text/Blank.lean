/-!
# Blank characters

`isBlank` is the Unicode property White_Space. Trimming takes the blank characters off the ends of
a text and leaves those inside it.
-/

namespace FeedClient.Text

/-- The characters with the Unicode property White_Space. -/
def isBlank (c : Char) : Bool :=
  let n := c.toNat
  (0x09 ≤ n && n ≤ 0x0D) || n == 0x20 || n == 0x85 || n == 0xA0 || n == 0x1680
    || (0x2000 ≤ n && n ≤ 0x200A) || n == 0x2028 || n == 0x2029 || n == 0x202F || n == 0x205F
    || n == 0x3000

/-- What is left of a text when the blank characters at its start are taken off. -/
def trimLeft (s : List Char) : List Char :=
  s.dropWhile isBlank

/-- What is left of a text when the blank characters at both ends are taken off. -/
def trim (s : List Char) : List Char :=
  (trimLeft (trimLeft s).reverse).reverse

@[simp] theorem trimLeft_nil : trimLeft [] = [] := rfl

theorem trimLeft_cons_of_blank {c : Char} (h : isBlank c = true) (s : List Char) :
    trimLeft (c :: s) = trimLeft s
  := by
  simp [trimLeft, h]

theorem trimLeft_cons_of_not_blank {c : Char} (h : isBlank c = false) (s : List Char) :
    trimLeft (c :: s) = c :: s
  := by
  simp [trimLeft, h]

end FeedClient.Text
