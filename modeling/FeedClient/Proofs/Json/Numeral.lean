import FeedClient.Json.Writer
import FeedClient.Proofs.Json.Grammar
import Mathlib.Data.Nat.Basic

/-!
# Numbers that are written

`Numeral.Inside` follows the reader over characters that do not end a number. The digits that are
written for an integer are read as this integer, if its magnitude is at most the largest
significand, and no such number is beyond the binary64 numbers. Every number of the grammar is read
up to a place where it may end.
-/

namespace FeedClient

/-! ### Digits -/

theorem isDigit_digitChar {d : Nat} (h : d < 10) :
  isDigit d.digitChar = true
  := by
  revert d
  decide

theorem digitValue_digitChar {d : Nat} (h : d < 10) :
  digitValue d.digitChar = d
  := Nat.toNat_digitChar_sub_48_of_lt_ten h

theorem digitChar_ne_zero {d : Nat} (h : d < 10) :
  0 < d → d.digitChar ≠ '0'
  := by
  revert d
  decide

theorem ne_of_isDigit {c d : Char} (h : isDigit c = true) (hd : isDigit d = false) :
  c ≠ d
  := by
  rintro rfl
  rw [h] at hd
  cases hd

/-- What is written for a number other than zero starts with a digit other than zero. -/
theorem exists_toDigits_cons {n : Nat} (h : 0 < n) :
  ∃ c rest, Nat.toDigits 10 n = c :: rest ∧ isDigit c = true ∧ c ≠ '0'
  := by
  induction n using Nat.strongRecOn with
  | ind n ih =>
      rw [Nat.toDigits_eq_if (by decide)]
      split
      · next hlt => exact ⟨_, [], rfl, isDigit_digitChar hlt, digitChar_ne_zero hlt h⟩
      · next hge =>
          obtain ⟨c, rest, htext, hdigit, hne⟩ := ih (n / 10) (by omega) (by omega)
          rw [htext]
          exact ⟨c, _, rfl, hdigit, hne⟩

/-! ### Rounding -/

namespace Binary64

theorem divNearest_le (n d : Nat) :
  divNearest n d ≤ n / d + 1
  := by
  simp only [divNearest]
  split
  · apply Nat.le_succ
  · split
    · apply Nat.le_refl
    · have hmod : n / d % 2 < 2 := Nat.mod_lt _ (by decide)
      omega

/-- Rounding at most doubles a number. -/
theorem roundNat_le (n : Nat) :
  roundNat n ≤ 2 * n
  := by
  rcases Nat.eq_zero_or_pos n with rfl | hpos
  · decide
  · simp only [roundNat]
    generalize hexcess : n.log2 + 1 - 53 = excess
    have hpow : Nat.pow 2 excess ≤ n := by
      calc
        2 ^ excess ≤ 2 ^ n.log2 := Nat.pow_le_pow_right (by decide) (by omega)
        _ ≤ n := Nat.log2_self_le (by omega)
    calc
      divNearest n (Nat.pow 2 excess) * Nat.pow 2 excess
          ≤ (n / Nat.pow 2 excess + 1) * Nat.pow 2 excess := by
            apply Nat.mul_le_mul_right
            apply divNearest_le
      _ = n / Nat.pow 2 excess * Nat.pow 2 excess + Nat.pow 2 excess := by
            rw [Nat.add_mul, Nat.one_mul]
      _ ≤ n + n := Nat.add_le_add (Nat.div_mul_le_self n _) hpow
      _ = 2 * n := (Nat.two_mul n).symm

end Binary64

namespace Json.Numeral

/-! ### Integers -/

/-- Characters that do not end a number: where the reader stands before and after them, and what it
has read of the number by then. -/
inductive Inside : Place → Numeral → List Char → Place → Numeral → Prop
  | nil (place : Place) (n : Numeral) : Inside place n [] place n
  | cons {place place' place'' : Place} {n n' n'' : Numeral} {s : List Char} {c : Char}
      (h : n.step place c = .ok (.more place' n')) (rest : Inside place' n' s place'' n'') :
    Inside place n (c :: s) place'' n''

theorem Inside.append {place place' place'' : Place} {n n' n'' : Numeral} {s t : List Char}
    (h : Inside place n s place' n') (h' : Inside place' n' t place'' n'') :
  Inside place n (s ++ t) place'' n''
  := by
  induction h with
  | nil place n => apply h'
  | cons hstep rest ih => exact .cons hstep (ih h')

/-- A number that is an integer. -/
def ofNat (negative : Bool) (n : Nat) : Numeral :=
  { negative, significand := n }

theorem addDigit_ofNat {negative : Bool} {n : Nat} {c : Char}
    (h : n * 10 + digitValue c ≤ limit) :
  (ofNat negative n).addDigit false c = ofNat negative (n * 10 + digitValue c)
  := by
  simp [addDigit, ofNat, h]

theorem step_integer_of_isDigit (n : Numeral) {c : Char} (h : isDigit c = true) :
  n.step .integer c = .ok (.more .integer (n.addDigit false c))
  := if_pos h

/-- The digits of a number are read as this number. -/
theorem inside_toDigits (negative : Bool) {n : Nat} (h : n ≤ limit) :
  Inside .integer (ofNat negative 0) (Nat.toDigits 10 n) .integer (ofNat negative n)
  := by
  induction n using Nat.strongRecOn with
  | ind n ih =>
      have hdigit {d : Nat} (hd : d < 10) {m : Nat} (hm : m * 10 + d ≤ limit) :
          Inside .integer (ofNat negative m) [d.digitChar] .integer
            (ofNat negative (m * 10 + d)) := by
        apply Inside.cons _ (.nil _ _)
        rw [step_integer_of_isDigit _ (isDigit_digitChar hd), addDigit_ofNat]
        · rw [digitValue_digitChar hd]
        · rw [digitValue_digitChar hd]
          apply hm
      rw [Nat.toDigits_eq_if (by decide)]
      split
      · next hlt =>
          have hlast := hdigit hlt (m := 0) (by omega)
          rw [Nat.zero_mul, Nat.zero_add] at hlast
          apply hlast
      · next hge =>
          have hlast := hdigit (Nat.mod_lt n (by decide : 10 > 0)) (m := n / 10) (by omega)
          rw [Nat.div_add_mod'] at hlast
          apply Inside.append _ hlast
          apply ih _ (by omega) (by omega)

/-- Behind its sign, the digits of a number are read as this number. -/
theorem exists_inside_toDigits (negative : Bool) {n : Nat} (h : n ≤ limit) :
  ∃ place, place.isEnd = true
    ∧ Inside .sign (ofNat negative 0) (Nat.toDigits 10 n) place (ofNat negative n)
  := by
  rcases Nat.eq_zero_or_pos n with rfl | hpos
  · exact ⟨.zero, rfl, .cons rfl (.nil _ _)⟩
  · obtain ⟨c, rest, htext, hdigit, hne⟩ := exists_toDigits_cons hpos
    have hinside := inside_toDigits negative h
    rw [htext] at hinside ⊢
    cases hinside with
    | cons hstep hrest =>
        refine ⟨.integer, rfl, .cons ?_ hrest⟩
        rw [step, if_neg hne, if_pos hdigit, ← hstep, step_integer_of_isDigit _ hdigit]

/-- Powers of two that are large enough are further apart than twice the largest significand. -/
theorem double_limit_lt {k m : Nat} (hlarge : 65 ≤ k) (hlt : k < m) :
  2 * limit < Nat.pow 2 m - Nat.pow 2 k
  := by
  have hlimit : 2 * limit < 2 ^ 65 := by decide
  have hlow : 2 ^ 65 ≤ 2 ^ k := Nat.pow_le_pow_right (by decide) hlarge
  have hhigh : 2 ^ (k + 1) ≤ 2 ^ m := Nat.pow_le_pow_right (by decide) hlt
  rw [Nat.pow_succ] at hhigh
  simp only [Nat.pow_eq]
  omega

/-- Integers are not beyond the binary64 numbers. -/
theorem isInfinite_ofNat (negative : Bool) {n : Nat} (h : n ≤ limit) :
  (ofNat negative n).isInfinite = false
  := by
  have hround := Binary64.roundNat_le n
  have hpower : Binary64.roundNat (Nat.pow 10 0) = 1 := by decide
  have hfits : Binary64.overflows (Binary64.roundNat n) = false := by
    have hle : Binary64.roundNat n ≤ 2 * limit := by omega
    rw [Binary64.overflows, decide_eq_false_iff_not]
    apply Nat.not_le_of_lt
    apply Nat.lt_of_le_of_lt hle
    apply double_limit_lt <;> decide
  have hexponent : (ofNat negative n).exponent = 0 := by
    simp [exponent, ofNat]
  have hsignificand : (ofNat negative n).significand = n := rfl
  simp only [isInfinite, hexponent, hsignificand, Int.toNat_zero, hpower, Nat.mul_one, hfits]
  simp

/-- The integer that a number stands for. -/
theorem toInt64?_ofNat (i : Int64) :
  (ofNat (i.toInt < 0) i.toInt.natAbs).toInt64? = some i
  := by
  have hfits : int64? i.toInt = some i := by
    have hlow := Int64.le_toInt i
    have hhigh := Int64.toInt_lt i
    rw [int64?, if_pos, Int64.ofInt_toInt]
    simp only [depthInt64, greatestInt64]
    grind
  by_cases hnegative : i.toInt < 0
  · have hvalue : -(i.toInt.natAbs : Int) = i.toInt := by omega
    have hpos : i.toInt.natAbs ≠ 0 := by omega
    simp only [toInt64?, ofNat, hnegative, hvalue, hpos, hfits]
    rfl
  · have hvalue : (i.toInt.natAbs : Int) = i.toInt := by omega
    simp only [toInt64?, ofNat, hnegative, hvalue, hfits]
    rfl

/-! ### The ways to write a number -/

/-- Digits are read one after the other where one leads to the next. -/
theorem exists_inside_of_digits {place : Place}
    (hstep : ∀ (n : Numeral) {c : Char}, isDigit c = true →
      ∃ n', n.step place c = .ok (.more place n'))
    {text : List Char} (h : ∀ c ∈ text, isDigit c = true) :
  ∀ n, ∃ n', Inside place n text place n'
  := by
  induction text with
  | nil => exact fun n => ⟨n, .nil _ _⟩
  | cons c text ih =>
      intro n
      obtain ⟨hc, htext⟩ := List.forall_mem_cons.mp h
      obtain ⟨next, hnext⟩ := hstep n hc
      obtain ⟨n', hrest⟩ := ih htext next
      exact ⟨n', .cons hnext hrest⟩

/-- The first digit of several may lead elsewhere than the others. -/
theorem exists_inside_of_mem_digits (first place : Place)
    (hfirst : ∀ (n : Numeral) {c : Char}, isDigit c = true →
      ∃ n', n.step first c = .ok (.more place n'))
    (hstep : ∀ (n : Numeral) {c : Char}, isDigit c = true →
      ∃ n', n.step place c = .ok (.more place n'))
    {text : List Char} (h : text ∈ digits) (n : Numeral) :
  ∃ n', Inside first n text place n'
  := by
  obtain ⟨hne, hdigits⟩ := h
  obtain ⟨c, text, rfl⟩ := List.exists_cons_of_ne_nil hne
  obtain ⟨hc, htext⟩ := List.forall_mem_cons.mp hdigits
  obtain ⟨next, hnext⟩ := hfirst n hc
  obtain ⟨n', hrest⟩ := exists_inside_of_digits hstep htext next
  exact ⟨n', .cons hnext hrest⟩

theorem exists_inside_of_mem_wholeParts {text : List Char} (h : text ∈ wholeParts) (n : Numeral) :
  ∃ place n', (place = .zero ∨ place = .integer) ∧ Inside .sign n text place n'
  := by
  obtain rfl | ⟨⟨hne, hdigits⟩, hzero⟩ := h
  · exact ⟨.zero, n, .inl rfl, .cons rfl (.nil _ _)⟩
  · obtain ⟨c, text, rfl⟩ := List.exists_cons_of_ne_nil hne
    obtain ⟨hc, htext⟩ := List.forall_mem_cons.mp hdigits
    have hne : c ≠ '0' := by
      rintro rfl
      apply hzero rfl
    obtain ⟨n', hrest⟩ := exists_inside_of_digits (fun n c hc => ⟨_, step_integer_of_isDigit n hc⟩)
      htext (n.addDigit false c)
    refine ⟨.integer, n', .inr rfl, .cons ?_ hrest⟩
    rw [step, if_neg hne, if_pos hc]

theorem exists_inside_of_mem_fractions {place : Place} (hplace : place = .zero ∨ place = .integer)
    {text : List Char} (h : text ∈ fractions) (n : Numeral) :
  ∃ n', Inside place n text .fraction n'
  := by
  obtain ⟨text, htext, rfl⟩ := mem_fractions.mp h
  have hpoint : n.step place '.' = .ok (.more .point n.addPoint) := by
    obtain rfl | rfl := hplace <;> rfl
  obtain ⟨n', hrest⟩ := exists_inside_of_mem_digits .point .fraction
    (fun n c hc => ⟨_, if_pos hc⟩) (fun n c hc => ⟨_, if_pos hc⟩) htext n.addPoint
  exact ⟨n', .cons hpoint hrest⟩

theorem exists_inside_of_mem_exponents {place : Place} (hplace : place.isEnd = true)
    (hpower : place ≠ .power) {text : List Char} (h : text ∈ exponents) (n : Numeral) :
  ∃ n', Inside place n text .power n'
  := by
  obtain ⟨mark, hmark, sign, hsign, text, htext, rfl⟩ := mem_exponents.mp h
  have hfirst : ∃ next, n.step place mark = .ok (.more .mark next) := by
    obtain rfl | rfl := hmark
    all_goals
      cases place with
      | zero | integer | fraction => exact ⟨_, rfl⟩
      | power => contradiction
      | sign | point | mark | powerSign => cases hplace
  have hsigned : ∀ n, ∃ n', Inside .powerSign n text .power n' :=
    exists_inside_of_mem_digits .powerSign .power (fun n c hc => ⟨_, if_pos hc⟩)
      (fun n c hc => ⟨_, if_pos hc⟩) htext
  obtain ⟨next, hnext⟩ := hfirst
  have hrest : ∃ n', Inside .mark next (sign ++ text) .power n' := by
    obtain rfl | rfl | rfl := hsign
    · apply exists_inside_of_mem_digits .mark .power _ (fun n c hc => ⟨_, if_pos hc⟩) htext
      intro n c hc
      have hplus : c ≠ '+' := ne_of_isDigit hc rfl
      have hminus : c ≠ '-' := ne_of_isDigit hc rfl
      use { n with power := digitValue c }
      rw [step, if_neg hplus, if_neg hminus, if_pos hc]
    · obtain ⟨n', hpower⟩ := hsigned next
      exact ⟨n', .cons rfl hpower⟩
    · obtain ⟨n', hpower⟩ := hsigned { next with powerNegative := true }
      exact ⟨n', .cons rfl hpower⟩
  obtain ⟨n', hrest⟩ := hrest
  exact ⟨n', .cons hnext hrest⟩

/-- A number, behind its sign, is read up to a place where it may end. -/
theorem exists_inside_of_parts {whole fraction exponent : List Char} (hwhole : whole ∈ wholeParts)
    (hfraction : fraction = [] ∨ fraction ∈ fractions)
    (hexponent : exponent = [] ∨ exponent ∈ exponents) (n : Numeral) :
  ∃ place n', place.isEnd = true ∧ Inside .sign n (whole ++ (fraction ++ exponent)) place n'
  := by
  obtain ⟨place, n₁, hplace, hread⟩ := exists_inside_of_mem_wholeParts hwhole n
  have hnext : ∃ place' n₂, place'.isEnd = true ∧ place' ≠ .power
      ∧ Inside place n₁ fraction place' n₂ := by
    obtain rfl | hmem := hfraction
    · refine ⟨place, n₁, ?_, ?_, .nil _ _⟩
      all_goals obtain rfl | rfl := hplace <;> decide
    · obtain ⟨n₂, hread'⟩ := exists_inside_of_mem_fractions hplace hmem n₁
      exact ⟨.fraction, n₂, rfl, by decide, hread'⟩
  obtain ⟨place', n₂, hend, hpower, hread'⟩ := hnext
  obtain rfl | hmem := hexponent
  · exact ⟨place', n₂, hend, hread.append (hread'.append (.nil _ _))⟩
  · obtain ⟨n₃, hread''⟩ := exists_inside_of_mem_exponents hend hpower hmem n₂
    exact ⟨.power, n₃, rfl, hread.append (hread'.append hread'')⟩

end Json.Numeral

end FeedClient
