import FeedClient.Proofs.Json.Grammar

/-!
# Texts inside quotes

`Quoted.Inside` follows the reader over characters that do not close a string. However a character is
written, it is read as this character, and so is a text. Where a string is passed over, there may
also be surrogates without their partners. What is written for a text is one of the ways to write
it.
-/

open Computability

namespace FeedClient.Json

/-! ### Hexadecimal digits -/

/-- A hexadecimal digit takes up one byte. -/
theorem utf8Size_of_hexValue? {c : Char} {n : Nat} (h : hexValue? c = some n) :
  c.utf8Size = 1
  := by
  have hle : c ≤ 'f' := by
    simp only [hexValue?] at h
    split at h
    · next hdigit => exact Char.le_trans hdigit.2 (by decide)
    · split at h
      · next hlower => exact hlower.2
      · split at h
        · next hupper => exact Char.le_trans hupper.2 (by decide)
        · cases h
  apply Char.utf8Size_eq_one_iff.mpr
  apply UInt32.le_trans hle
  decide

namespace Quoted

/-- Characters that do not close a string: where the reader stands before and after them, and what it
has read of the text by then. -/
inductive Inside (strict : Bool) : Place → List Char → List Char → Place → List Char → Prop
  | nil (place : Place) (text : List Char) : Inside strict place text [] place text
  | cons {place place' place'' : Place} {text text' text'' s : List Char} {c : Char}
      (h : step strict place text c = .ok (.more place' text'))
      (rest : Inside strict place' text' s place'' text'') :
    Inside strict place text (c :: s) place'' text''

theorem Inside.append {strict : Bool} {place place' place'' : Place}
    {text text' text'' s t : List Char} (h : Inside strict place text s place' text')
    (h' : Inside strict place' text' t place'' text'') :
  Inside strict place text (s ++ t) place'' text''
  := by
  induction h with
  | nil place text => apply h'
  | cons hstep rest ih => exact .cons hstep (ih h')

/-- Most characters stand for themselves. -/
theorem inside_plain {strict : Bool} {c : Char} (hquote : c ≠ '"') (hescape : c ≠ '\\')
    (hcontrol : ¬ c.toNat < 0x20) (text : List Char) :
  Inside strict .plain text [c] .plain (c :: text)
  := by
  apply Inside.cons _ (.nil _ _)
  rw [step, if_neg hquote, if_neg hescape, if_neg hcontrol]

/-- A backslash and a letter stand for a character. -/
theorem inside_simpleEscape {strict : Bool} {c d : Char} (h : simpleEscape? c = some d)
    (text : List Char) :
  Inside strict .plain text ['\\', c] .plain (d :: text)
  := by
  apply Inside.cons rfl
  apply Inside.cons _ (.nil _ _)
  have hunit : c ≠ 'u' := by
    rintro rfl
    cases h
  rw [step, if_neg hunit, h]

theorem exists_hexValue?_of_hexNumber? {a b c d : Char} {unit : Nat}
    (h : hexNumber? [a, b, c, d] = some unit) :
  ∃ i j k l, hexValue? a = some i ∧ hexValue? b = some j ∧ hexValue? c = some k
    ∧ hexValue? d = some l
  := by
  simp only [hexNumber?, List.foldlM_cons, List.foldlM_nil, Option.bind_eq_bind,
    Option.bind_eq_some_iff, Option.map_eq_some_iff] at h
  obtain ⟨-, ⟨i, hi, -⟩, -, ⟨j, hj, -⟩, -, ⟨k, hk, -⟩, -, ⟨l, hl, -⟩, -⟩ := h
  use i, j, k, l

/-- Digits are collected until they take up four bytes. -/
theorem step_unit_of_lt {strict : Bool} {lead : Option Nat} {digits : List Char} {c : Char}
    (h : byteLength (c :: digits) < 4) (text : List Char) :
  step strict (.unit lead digits) text c = .ok (.more (.unit lead (c :: digits)) text)
  := by
  rw [step]
  exact if_pos h

/-- The unit that four hexadecimal digits make up ends with them. -/
theorem inside_unitDigits {strict : Bool} {lead : Option Nat} {a b c d : Char} {unit : Nat}
    {place : Place} {text text' : List Char} (h : hexNumber? [a, b, c, d] = some unit)
    (hend : endUnit strict text lead unit = .ok (.more place text')) :
  Inside strict (.unit lead []) text [a, b, c, d] place text'
  := by
  obtain ⟨i, j, k, l, ha, hb, hc, hd⟩ := exists_hexValue?_of_hexNumber? h
  have ha' := utf8Size_of_hexValue? ha
  have hb' := utf8Size_of_hexValue? hb
  have hc' := utf8Size_of_hexValue? hc
  have hd' := utf8Size_of_hexValue? hd
  have hlast : step strict (.unit lead [c, b, a]) text d = .ok (.more place text') := by
    have hlength : ¬ byteLength [d, c, b, a] < 4 := by
      simp [byteLength, ha', hb', hc', hd']
    rw [step]
    simp only [if_neg hlength, List.reverse_cons, List.reverse_nil, List.nil_append,
      List.cons_append, h]
    apply hend
  apply Inside.cons (step_unit_of_lt _ text)
  apply Inside.cons (step_unit_of_lt _ text)
  apply Inside.cons (step_unit_of_lt _ text)
  apply Inside.cons hlast (.nil _ _)
  all_goals simp [byteLength, ha', hb', hc']

/-- Four hexadecimal digits stand for the character with their number, unless it is a surrogate. -/
theorem inside_unit {a b c d : Char} {unit : Nat} (h : hexNumber? [a, b, c, d] = some unit)
    (hlead : isLead unit = false) (htrail : isTrail unit = false) (text : List Char) :
  Inside true .plain text ['\\', 'u', a, b, c, d] .plain (Char.ofNat unit :: text)
  := by
  have hend : endUnit true text none unit = .ok (.more .plain (Char.ofNat unit :: text)) := by
    simp only [endUnit, htrail, hlead]
    rfl
  apply Inside.cons rfl
  apply Inside.cons rfl
  apply inside_unitDigits h hend

/-! ### The ways to write a text -/

theorem isLead_toNat (c : Char) :
  isLead c.toNat = false
  := by
  have hvalid : c.toNat.isValidChar := c.valid
  simp only [Nat.isValidChar] at hvalid
  simp only [isLead, Bool.and_eq_false_iff, decide_eq_false_iff_not]
  omega

theorem isTrail_toNat (c : Char) :
  isTrail c.toNat = false
  := by
  have hvalid : c.toNat.isValidChar := c.valid
  simp only [Nat.isValidChar] at hvalid
  simp only [isTrail, Bool.and_eq_false_iff, decide_eq_false_iff_not]
  omega

section

variable {c : Char} (hbeyond : 0x10000 ≤ c.toNat)
include hbeyond

theorem isLead_leadOf :
  isLead (leadOf c) = true ∧ isTrail (leadOf c) = false
  := by
  have hvalid : c.toNat.isValidChar := c.valid
  have hbounds : 0xD800 ≤ leadOf c ∧ leadOf c < 0xDC00 := by
    simp only [Nat.isValidChar] at hvalid
    rw [leadOf]
    omega
  simp [isLead, isTrail, hbounds]

theorem joinSurrogates_leadOf_trailOf :
  joinSurrogates (leadOf c) (trailOf c) = c
  := by
  have hparts : 0x10000 + (leadOf c - 0xD800) * 0x400 + (trailOf c - 0xDC00) = c.toNat := by
    rw [leadOf, trailOf]
    omega
  rw [joinSurrogates, hparts, Char.ofNat_toNat]

end

theorem isTrail_trailOf (c : Char) :
  isTrail (trailOf c) = true
  := by
  have hbounds : 0xDC00 ≤ trailOf c ∧ trailOf c < 0xE000 := by
    rw [trailOf]
    omega
  simp [isTrail, hbounds]

/-- Two surrogates, each by its escape, stand for the character they make. -/
theorem inside_surrogates {c : Char} (hbeyond : 0x10000 ≤ c.toNat) {written : List Char}
    (h : written ∈ unitEscapes (leadOf c) * unitEscapes (trailOf c)) (text : List Char) :
  Inside true .plain text written .plain (c :: text)
  := by
  obtain ⟨_, ⟨i, j, k, l, rfl, hlead⟩, _, ⟨i', j', k', l', rfl, htrail⟩, rfl⟩ := h
  obtain ⟨hleads, htrails⟩ := isLead_leadOf hbeyond
  have hfirst : endUnit true text none (leadOf c) = .ok (.more (.lead (leadOf c)) text) := by
    simp only [endUnit, hleads, htrails]
    rfl
  have hsecond : endUnit true text (some (leadOf c)) (trailOf c)
      = .ok (.more .plain (c :: text)) := by
    simp only [endUnit, isTrail_trailOf, joinSurrogates_leadOf_trailOf hbeyond]
    rfl
  have hopening : Inside true .plain text ['\\', 'u', i, j, k, l] (.lead (leadOf c)) text := by
    apply Inside.cons rfl
    apply Inside.cons rfl
    apply inside_unitDigits hlead hfirst
  apply hopening.append
  apply Inside.cons rfl
  apply Inside.cons rfl
  apply inside_unitDigits htrail hsecond

/-- However a character is written, it is read as itself. -/
theorem inside_of_spells {c : Char} {written : List Char} (h : Spells c written) (text : List Char) :
  Inside true .plain text written .plain (c :: text)
  := by
  cases h with
  | plain hquote hescape hcontrol => exact inside_plain hquote hescape hcontrol text
  | simple h => exact inside_simpleEscape h text
  | unit h =>
      obtain ⟨i, j, k, l, rfl, hunit⟩ := h
      have hinside := inside_unit hunit (isLead_toNat c) (isTrail_toNat c) text
      rw [Char.ofNat_toNat] at hinside
      apply hinside
  | surrogates hbeyond h => exact inside_surrogates hbeyond h text

/-- However a text is written, it is read as itself. -/
theorem inside_of_mem_characters {s written : List Char} (h : written ∈ characters s)
    (text : List Char) :
  Inside true .plain text written .plain (s.reverse ++ text)
  := by
  induction s generalizing written text with
  | nil =>
      cases h
      apply Inside.nil
  | cons c s ih =>
      rw [characters, List.map_cons, List.prod_cons] at h
      obtain ⟨first, hfirst, rest, hrest, rfl⟩ := h
      rw [List.reverse_cons, List.append_assoc]
      apply (inside_of_spells hfirst text).append
      apply ih hrest

/-- Where a string is passed over, the escape of any unit is. -/
theorem inside_of_mem_unitEscapes {unit : Nat} {written : List Char}
    (h : written ∈ unitEscapes unit) (text : List Char) :
  Inside false .plain text written .plain text
  := by
  obtain ⟨i, j, k, l, rfl, hunit⟩ := h
  apply Inside.cons rfl
  apply Inside.cons rfl
  exact inside_unitDigits hunit rfl

theorem exists_inside_of_mem_stringParts {written : List Char} (h : written ∈ stringParts)
    (text : List Char) :
  ∃ text', Inside false .plain text written .plain text'
  := by
  obtain ⟨c, hspells⟩ | ⟨unit, hunit⟩ := h
  · cases hspells with
    | plain hquote hescape hcontrol => exact ⟨_, inside_plain hquote hescape hcontrol text⟩
    | simple h => exact ⟨_, inside_simpleEscape h text⟩
    | unit h => exact ⟨_, inside_of_mem_unitEscapes h text⟩
    | surrogates hbeyond h =>
        obtain ⟨lead, hlead, trail, htrail, rfl⟩ := h
        use text
        apply (inside_of_mem_unitEscapes hlead text).append
        apply inside_of_mem_unitEscapes htrail
  · exact ⟨_, inside_of_mem_unitEscapes hunit text⟩

/-- Every string can be passed over. -/
theorem exists_inside_of_mem_kstar {written : List Char} (h : written ∈ stringParts∗) :
  ∀ text, ∃ text', Inside false .plain text written .plain text'
  := by
  obtain ⟨parts, rfl, hparts⟩ := Language.mem_kstar.mp h
  clear h
  induction parts with
  | nil => exact fun text => ⟨text, .nil _ _⟩
  | cons part parts ih =>
      intro text
      obtain ⟨hpart, hparts⟩ := List.forall_mem_cons.mp hparts
      obtain ⟨text', hfirst⟩ := exists_inside_of_mem_stringParts hpart text
      obtain ⟨text'', hrest⟩ := ih hparts text'
      exact ⟨text'', hfirst.append hrest⟩

/-! ### What is written -/

theorem hexNumber?_hexChar {n : Nat} (h : n < 0x20) :
  hexNumber? ['0', '0', hexChar (n / 16), hexChar (n % 16)] = some n
  := by
  revert n
  decide

/-- What is written for a character is one of the ways to write it. -/
theorem spells_escapeChar (c : Char) :
  Spells c (escapeChar c)
  := by
  rw [escapeChar]
  iterate 7
    split
    · next hc =>
        subst hc
        exact .simple rfl
  split
  · next hcontrol => exact .unit ⟨_, _, _, _, rfl, hexNumber?_hexChar hcontrol⟩
  · next hcontrol => exact .plain ‹_› ‹_› hcontrol

theorem flatMap_mem_characters (s : List Char) :
  s.flatMap escapeChar ∈ characters s
  := by
  induction s with
  | nil => exact rfl
  | cons c s ih =>
      rw [characters, List.map_cons, List.prod_cons, List.flatMap_cons]
      exact ⟨_, spells_escapeChar c, _, ih, rfl⟩

end Quoted

/-- What is written for a text is one of the ways to write it. -/
theorem quote_mem_quoted (s : String) :
  quote s.toList ∈ quoted s
  := by
  apply mem_enclosed.mpr
  exact ⟨_, Quoted.flatMap_mem_characters s.toList, rfl⟩

end FeedClient.Json
