import FeedClient.Json.Reader
import FeedClient.Json.Writer
import Mathlib.Computability.Language

/-!
# The grammar of JSON

The texts of JSON as languages: `l * m` is a text of `l` followed by one of `m`, `l + m` is a text of
either, `1` is the empty text, and `l∗` is any number of texts of `l`.

There is no one way to write a value. `quoted s` are the strings that stand for the text `s`, with
any choice of escapes; `array` and `object` put white space and commas between their parts.
`WellFormed` are the texts of all JSON values. It does not ask that the strings inside stand for a
text: the escape of a surrogate may be without its partner.
-/

open Computability

namespace FeedClient.Json

/-! ### White space and commas -/

/-- A text between two marks. -/
theorem mem_enclosed {l : Language Char} {first last : Char} {text : List Char} :
  text ∈ {[first]} * l * {[last]} ↔ ∃ inner ∈ l, text = first :: (inner ++ [last])
  := by
  constructor
  · rintro ⟨_, ⟨_, rfl, inner, hinner, rfl⟩, _, rfl, rfl⟩
    exact ⟨inner, hinner, rfl⟩
  · rintro ⟨inner, hinner, rfl⟩
    exact ⟨_, ⟨_, rfl, inner, hinner, rfl⟩, _, rfl, rfl⟩

/-- White space between tokens. -/
def spaces : Language Char :=
  {text | ∀ c ∈ text, isSpace c = true}

theorem nil_mem_spaces :
  [] ∈ spaces
  := by
  intro c hc
  cases hc

/-- The texts of a language with white space around them. -/
def padded (l : Language Char) : Language Char :=
  spaces * l * spaces

theorem mem_padded {l : Language Char} {text : List Char} :
  text ∈ padded l
    ↔ ∃ before ∈ spaces, ∃ inner ∈ l, ∃ behind ∈ spaces, text = before ++ (inner ++ behind)
  := by
  constructor
  · rintro ⟨_, ⟨before, hbefore, inner, hinner, rfl⟩, behind, hbehind, rfl⟩
    exact ⟨before, hbefore, inner, hinner, behind, hbehind, List.append_assoc ..⟩
  · rintro ⟨before, hbefore, inner, hinner, behind, hbehind, rfl⟩
    exact ⟨_, ⟨before, hbefore, inner, hinner, rfl⟩, behind, hbehind, List.append_assoc ..⟩

theorem mem_padded_of_mem {l : Language Char} {text : List Char} (h : text ∈ l) :
  text ∈ padded l
  := by
  apply mem_padded.mpr
  exact ⟨[], nil_mem_spaces, text, h, [], nil_mem_spaces, (List.append_nil text).symm⟩

/-- Parts with commas between them; without any part there is white space. -/
def separated : List (Language Char) → Language Char
  | [] => spaces
  | [l] => padded l
  | l :: rest => padded l * {[',']} * separated rest

/-- Parts with commas between them are white space, or texts that have been joined. -/
theorem exists_joined_of_mem_separated {ls : List (Language Char)} {text : List Char}
    (h : text ∈ separated ls) :
  ls = [] ∧ text ∈ spaces
    ∨ ∃ texts, List.Forall₂ (fun text l => text ∈ padded l) texts ls ∧ text = joined texts
  := by
  induction ls generalizing text with
  | nil => exact .inl ⟨rfl, h⟩
  | cons l ls ih =>
      right
      cases ls with
      | nil =>
          exact ⟨[text], .cons h .nil, rfl⟩
      | cons next ls =>
          obtain ⟨_, ⟨first, hfirst, _, rfl, rfl⟩, rest, hrest, rfl⟩ := h
          obtain ⟨hnil, -⟩ | ⟨texts, htexts, rfl⟩ := ih hrest
          · cases hnil
          · refine ⟨first :: texts, .cons hfirst htexts, ?_⟩
            cases htexts
            simp [joined]

/-- Texts that are joined are parts with commas between them. -/
theorem joined_mem_separated {ls : List (Language Char)} {texts : List (List Char)}
    (h : List.Forall₂ (fun text l => text ∈ padded l) texts ls) :
  joined texts ∈ separated ls
  := by
  induction h with
  | nil => exact nil_mem_spaces
  | @cons text l texts ls hfirst hrest ih =>
      cases hrest with
      | nil => exact hfirst
      | cons hsecond hrest => exact ⟨_, ⟨text, hfirst, _, rfl, rfl⟩, _, ih, by simp [joined]⟩

/-- The arrays of the given items. -/
def array (items : List (Language Char)) : Language Char :=
  {['[']} * separated items * {[']']}

/-- A member of an object, given the ways to write its name and its value. -/
def member (name value : Language Char) : Language Char :=
  name * spaces * {[':']} * spaces * value

theorem mem_member {name value : Language Char} {text : List Char} :
  text ∈ member name value
    ↔ ∃ n ∈ name, ∃ before ∈ spaces, ∃ behind ∈ spaces, ∃ v ∈ value,
      text = n ++ (before ++ ':' :: (behind ++ v))
  := by
  constructor
  · rintro ⟨_, ⟨_, ⟨_, ⟨n, hn, before, hbefore, rfl⟩, _, rfl, rfl⟩, behind, hbehind, rfl⟩, v, hv,
      rfl⟩
    refine ⟨n, hn, before, hbefore, behind, hbehind, v, hv, ?_⟩
    simp
  · rintro ⟨n, hn, before, hbefore, behind, hbehind, v, hv, rfl⟩
    refine ⟨_, ⟨_, ⟨_, ⟨n, hn, before, hbefore, rfl⟩, _, rfl, rfl⟩, behind, hbehind, rfl⟩, v, hv,
      ?_⟩
    simp

/-- The objects of the given members. -/
def object (members : List (Language Char)) : Language Char :=
  {['\x7b']} * separated members * {['\x7d']}

/-! ### Strings -/

/-- The escapes of a unit of 16 bits, by four hexadecimal digits. -/
def unitEscapes (unit : Nat) : Language Char :=
  {text | ∃ a b c d, text = ['\\', 'u', a, b, c, d] ∧ hexNumber? [a, b, c, d] = some unit}

/-- The leading surrogate of a character beyond 16 bits. -/
def leadOf (c : Char) : Nat :=
  0xD800 + (c.toNat - 0x10000) / 0x400

/-- The trailing surrogate of a character beyond 16 bits. -/
def trailOf (c : Char) : Nat :=
  0xDC00 + (c.toNat - 0x10000) % 0x400

/-- The ways to write a character in a string. -/
inductive Spells (c : Char) : List Char → Prop
  | plain (hquote : c ≠ '"') (hescape : c ≠ '\\') (hcontrol : ¬ c.toNat < 0x20) : Spells c [c]
  | simple {letter : Char} (h : simpleEscape? letter = some c) : Spells c ['\\', letter]
  | unit {text : List Char} (h : text ∈ unitEscapes c.toNat) : Spells c text
  | surrogates {text : List Char} (hbeyond : 0x10000 ≤ c.toNat)
      (h : text ∈ unitEscapes (leadOf c) * unitEscapes (trailOf c)) : Spells c text

def spellings (c : Char) : Language Char :=
  {text | Spells c text}

/-- The ways to write a text between quotes. -/
def characters (s : List Char) : Language Char :=
  (s.map spellings).prod

/-- The strings that stand for a text. -/
def quoted (s : String) : Language Char :=
  {['"']} * characters s.toList * {['"']}

/-- A character in a string, or the escape of any unit, which need not be a character. -/
def stringParts : Language Char :=
  {text | (∃ c, Spells c text) ∨ ∃ unit, text ∈ unitEscapes unit}

/-- All strings. -/
def strings : Language Char :=
  {['"']} * stringParts∗ * {['"']}

/-! ### Numbers -/

/-- Digits, at least one. -/
def digits : Language Char :=
  {text | text ≠ [] ∧ ∀ c ∈ text, isDigit c = true}

/-- The digits before the point: no zero leads others. -/
def wholeParts : Language Char :=
  {text | text = ['0'] ∨ text ∈ digits ∧ text.head? ≠ some '0'}

/-- The point and the digits after it. -/
def fractions : Language Char :=
  {['.']} * digits

theorem mem_fractions {text : List Char} :
  text ∈ fractions ↔ ∃ inner ∈ digits, text = '.' :: inner
  := by
  constructor
  · rintro ⟨_, rfl, inner, hinner, rfl⟩
    exact ⟨inner, hinner, rfl⟩
  · rintro ⟨inner, hinner, rfl⟩
    exact ⟨_, rfl, inner, hinner, rfl⟩

/-- The power of ten behind a number. -/
def exponents : Language Char :=
  ({['e']} + {['E']}) * (1 + {['+']} + {['-']}) * digits

theorem mem_exponents {text : List Char} :
  text ∈ exponents
    ↔ ∃ mark, (mark = 'e' ∨ mark = 'E') ∧ ∃ sign, (sign = [] ∨ sign = ['+'] ∨ sign = ['-'])
      ∧ ∃ inner ∈ digits, text = mark :: (sign ++ inner)
  := by
  constructor
  · rintro ⟨_, ⟨_, hmark, sign, hsign, rfl⟩, inner, hinner, rfl⟩
    have hsign' : sign = [] ∨ sign = ['+'] ∨ sign = ['-'] := or_assoc.mp hsign
    obtain rfl | rfl := hmark
    · exact ⟨'e', .inl rfl, sign, hsign', inner, hinner, rfl⟩
    · exact ⟨'E', .inr rfl, sign, hsign', inner, hinner, rfl⟩
  · rintro ⟨mark, hmark, sign, hsign, inner, hinner, rfl⟩
    refine ⟨_, ⟨[mark], ?_, sign, or_assoc.mpr hsign, rfl⟩, inner, hinner, rfl⟩
    obtain rfl | rfl := hmark
    · exact .inl rfl
    · exact .inr rfl

/-- All numbers. -/
def numbers : Language Char :=
  (1 + {['-']}) * wholeParts * (1 + fractions) * (1 + exponents)

theorem mem_numbers {text : List Char} :
  text ∈ numbers
    ↔ ∃ sign, (sign = [] ∨ sign = ['-']) ∧ ∃ whole ∈ wholeParts,
      ∃ fraction, (fraction = [] ∨ fraction ∈ fractions) ∧
      ∃ exponent, (exponent = [] ∨ exponent ∈ exponents) ∧
        text = sign ++ (whole ++ (fraction ++ exponent))
  := by
  constructor
  · rintro ⟨_, ⟨_, ⟨sign, hsign, whole, hwhole, rfl⟩, fraction, hfraction, rfl⟩, exponent, hexponent,
      rfl⟩
    refine ⟨sign, hsign, whole, hwhole, fraction, hfraction, exponent, hexponent, ?_⟩
    simp
  · rintro ⟨sign, hsign, whole, hwhole, fraction, hfraction, exponent, hexponent, rfl⟩
    refine ⟨_, ⟨_, ⟨sign, hsign, whole, hwhole, rfl⟩, fraction, hfraction, rfl⟩, exponent, hexponent,
      ?_⟩
    simp

/-! ### Values -/

/-- The texts of values of any shape. -/
inductive WellFormed : List Char → Prop
  | null : WellFormed ['n', 'u', 'l', 'l']
  | true : WellFormed ['t', 'r', 'u', 'e']
  | false : WellFormed ['f', 'a', 'l', 's', 'e']
  | number {text : List Char} (h : text ∈ numbers) : WellFormed text
  | string {text : List Char} (h : text ∈ strings) : WellFormed text
  | array {items : List (List Char)} {text : List Char} (hitems : ∀ item ∈ items, WellFormed item)
      (h : text ∈ array (items.map fun item => {item})) : WellFormed text
  | object {members : List (List Char × List Char)} {text : List Char}
      (hnames : ∀ m ∈ members, m.1 ∈ strings) (hvalues : ∀ m ∈ members, WellFormed m.2)
      (h : text ∈ object (members.map fun m => member {m.1} {m.2})) : WellFormed text

end FeedClient.Json
