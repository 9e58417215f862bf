import FeedClient.Time.Stamp
import Mathlib.Data.Nat.Digits.Defs

/-!
# Which texts are timestamps

`Spells n` are the texts of an integer: copies of `0x`, then at most one sign, then hexadecimal
digits of either case, at least one. A text is read as a timestamp exactly when it is the text of an
integer of 64 bits, and it is read as this integer.
-/

namespace FeedClient.Stamp

/-! ### The grammar -/

/-- A hexadecimal digit of either case. -/
def IsDigit (c : Char) : Prop :=
  c ∈ "0123456789abcdefABCDEF".toList

instance : DecidablePred IsDigit :=
  fun c => inferInstanceAs (Decidable (c ∈ "0123456789abcdefABCDEF".toList))

/-- The place of a digit among the sixteen digits. -/
def valueOf (c : Char) : Nat :=
  "0123456789abcdef".toList.idxOf c.toLower

/-- The digits of a number, at least one. Any zeros may lead. -/
structure Numeral (n : Nat) (text : List Char) : Prop where
  ne_nil : text ≠ []
  digits : ∀ c ∈ text, IsDigit c
  value : Nat.ofDigits 16 (text.map valueOf).reverse = n

/-- The texts of an integer, with at most one sign. -/
inductive Signed : Int → List Char → Prop
  | plain {n : Nat} {text : List Char} (h : Numeral n text) : Signed n text
  | plus {n : Nat} {text : List Char} (h : Numeral n text) : Signed n ('+' :: text)
  | minus {n : Nat} {text : List Char} (h : Numeral n text) : Signed (-n) ('-' :: text)

/-- The texts of an integer, with any copies of `0x` in front of the sign. -/
inductive Spells (n : Int) : List Char → Prop
  | signed {text : List Char} (h : Signed n text) : Spells n text
  | marked {text : List Char} (h : Spells n text) : Spells n ('0' :: 'x' :: text)

/-- An integer in hexadecimal, with a sign if it is below zero. -/
def hexText (n : Int) : List Char :=
  if n < 0 then '-' :: Nat.toDigits 16 n.natAbs else Nat.toDigits 16 n.natAbs

/-- So many copies of `0x`. -/
def marks (copies : Nat) : List Char :=
  (List.replicate copies ['0', 'x']).flatten

/-! ### Digits -/

theorem digit?_of_isDigit {c : Char} (h : IsDigit c) :
  digit? c = some (valueOf c)
  := by
  have hall : "0123456789abcdefABCDEF".toList.all fun d => digit? d == some (valueOf d) := by
    decide
  apply beq_iff_eq.mp (List.all_eq_true.mp hall c h)

/-- The characters of a range of ten or fewer after a given one. -/
private theorem isDigit_of_range {c : Char} (first count : Nat)
    (hall : ∀ k < count, IsDigit (Char.ofNat (first + k))) (hfirst : first ≤ c.toNat)
    (hlast : c.toNat < first + count) :
  IsDigit c
  := by
  have hdigit := hall (c.toNat - first) (by omega)
  rw [Nat.add_sub_cancel' hfirst, Char.ofNat_toNat] at hdigit
  apply hdigit

theorem isDigit_of_digit? {c : Char} {d : Nat} (h : digit? c = some d) :
  IsDigit c
  := by
  rw [digit?] at h
  split at h
  · next hrange => apply isDigit_of_range 48 10 (by decide) hrange.1 (Nat.lt_succ_of_le hrange.2)
  · split at h
    · next hrange => apply isDigit_of_range 97 6 (by decide) hrange.1 (Nat.lt_succ_of_le hrange.2)
    · split at h
      · next hrange =>
          apply isDigit_of_range 65 6 (by decide) hrange.1 (Nat.lt_succ_of_le hrange.2)
      · cases h

theorem digit?_eq_none {c : Char} (h : ¬ IsDigit c) :
  digit? c = none
  := by
  rw [Option.eq_none_iff_forall_ne_some]
  intro d hd
  apply h (isDigit_of_digit? hd)

theorem ofDigits_map_cons (c : Char) (text : List Char) :
  Nat.ofDigits 16 ((c :: text).map valueOf).reverse
    = valueOf c * 16 ^ text.length + Nat.ofDigits 16 (text.map valueOf).reverse
  := by
  rw [List.map_cons, Nat.ofDigits_reverse_cons, List.length_map, Nat.mul_comm, Nat.add_comm]

/-- Digits are read behind a number as long as what they make up with it is within the limit. -/
theorem magnitude_eq_ok_iff {limit value n : Nat} (h : value ≤ limit) (excess : Fault)
    (text : List Char) :
  magnitude limit excess value text = .ok n
    ↔ (∀ c ∈ text, IsDigit c)
      ∧ value * 16 ^ text.length + Nat.ofDigits 16 (text.map valueOf).reverse = n ∧ n ≤ limit
  := by
  induction text generalizing value with
  | nil =>
      simp only [magnitude, List.length_nil, Nat.pow_zero, Nat.mul_one, List.map_nil,
        List.reverse_nil, Nat.ofDigits_nil, Nat.add_zero, Except.ok.injEq, List.not_mem_nil,
        false_imp_iff, implies_true, true_and]
      constructor
      · rintro rfl
        use rfl
      · rintro ⟨rfl, -⟩
        rfl
  | cons c text ih =>
      by_cases hdigit : IsDigit c
      · have hvalue : value * 16 ^ (c :: text).length
              + Nat.ofDigits 16 ((c :: text).map valueOf).reverse
            = (value * 16 + valueOf c) * 16 ^ text.length
              + Nat.ofDigits 16 (text.map valueOf).reverse := by
          rw [ofDigits_map_cons, List.length_cons, Nat.pow_succ', ← Nat.mul_assoc, Nat.add_mul,
            Nat.add_assoc]
        rw [hvalue, List.forall_mem_cons]
        simp only [magnitude, digit?_of_isDigit hdigit]
        split
        · next hle => rw [ih hle, and_iff_right hdigit]
        -- more digits do not make the number smaller
        · next hgt =>
            constructor
            · intro hfault
              cases hfault
            · rintro ⟨-, rfl, hle⟩
              have hgrows := Nat.le_mul_of_pos_right (value * 16 + valueOf c)
                (Nat.pow_pos (n := text.length) (show 0 < 16 by decide))
              omega
      · simp only [magnitude, digit?_eq_none hdigit]
        constructor
        · intro hfault
          cases hfault
        · rintro ⟨hall, -⟩
          apply absurd (hall c List.mem_cons_self) hdigit

/-- Digits are read as their number, if it is within the limit. -/
theorem digits_eq_ok_iff {whenEmpty : Fault} {limit n : Nat} {excess : Fault}
    {text : List Char} :
  digits whenEmpty limit excess text = .ok n ↔ Numeral n text ∧ n ≤ limit
  := by
  cases text with
  | nil =>
      constructor
      · intro hfault
        cases hfault
      · rintro ⟨hnumeral, -⟩
        apply absurd rfl hnumeral.ne_nil
  | cons c text =>
      rw [digits, magnitude_eq_ok_iff (Nat.zero_le limit), Nat.zero_mul, Nat.zero_add]
      · constructor
        · rintro ⟨hdigits, hvalue, hle⟩
          use ⟨List.cons_ne_nil c text, hdigits, hvalue⟩
        · rintro ⟨hnumeral, hle⟩
          use hnumeral.digits, hnumeral.value
      · intro hnil
        cases hnil

/-! ### Signs -/

theorem Numeral.ne_cons {n : Nat} {c : Char} {text : List Char} (hc : ¬ IsDigit c) :
  ¬ Numeral n (c :: text)
  := by
  intro h
  apply hc (h.digits c List.mem_cons_self)

theorem signed_minus_iff {n : Int} {text : List Char} :
  Signed n ('-' :: text) ↔ ∃ m : Nat, Numeral m text ∧ n = -m
  := by
  constructor
  · intro h
    cases h with
    | plain h => apply absurd h (Numeral.ne_cons (by decide))
    | minus h => exact ⟨_, h, rfl⟩
  · rintro ⟨m, h, rfl⟩
    apply Signed.minus h

theorem signed_plus_iff {n : Int} {text : List Char} :
  Signed n ('+' :: text) ↔ ∃ m : Nat, Numeral m text ∧ n = m
  := by
  constructor
  · intro h
    cases h with
    | plain h => apply absurd h (Numeral.ne_cons (by decide))
    | plus h => exact ⟨_, h, rfl⟩
  · rintro ⟨m, h, rfl⟩
    apply Signed.plus h

theorem signed_plain_iff {n : Int} {text : List Char} (hminus : ∀ rest, text ≠ '-' :: rest)
    (hplus : ∀ rest, text ≠ '+' :: rest) :
  Signed n text ↔ ∃ m : Nat, Numeral m text ∧ n = m
  := by
  constructor
  · intro h
    cases h with
    | plain h => exact ⟨_, h, rfl⟩
    | plus h => apply absurd rfl (hplus _)
    | minus h => apply absurd rfl (hminus _)
  · rintro ⟨m, h, rfl⟩
    apply Signed.plain h

/-- A number within a limit is kept under a sign that brings the limit into 64 bits. -/
private theorem map_digits_eq_ok_iff (sign : Int → Int) {whenEmpty : Fault} {limit : Nat}
    {excess : Fault} {text : List Char} {nanos : Int64}
    (hfits : ∀ n : Nat, n ≤ limit ↔ -2 ^ 63 ≤ sign n ∧ sign n < 2 ^ 63) :
  Except.map (fun n => Int64.ofInt (sign n)) (do let n ← digits whenEmpty limit excess text; pure ↑n)
      = .ok nanos
    ↔ ∃ n : Nat, Numeral n text ∧ nanos.toInt = sign n
  := by
  constructor
  · intro h
    cases hdigits : digits whenEmpty limit excess text with
    | error fault =>
        rw [hdigits] at h
        cases h
    | ok n =>
        rw [hdigits] at h
        obtain rfl := Except.ok.inj h
        obtain ⟨hnumeral, hle⟩ := digits_eq_ok_iff.mp hdigits
        use n, hnumeral
        apply Int64.toInt_ofInt_of_le
        · apply ((hfits n).mp hle).1
        · apply ((hfits n).mp hle).2
  · rintro ⟨n, hnumeral, hvalue⟩
    have hle : n ≤ limit := by
      apply (hfits n).mpr
      rw [← hvalue]
      use Int64.le_toInt nanos
      apply Int64.toInt_lt
    rw [digits_eq_ok_iff.mpr ⟨hnumeral, hle⟩, ← Int64.ofInt_toInt nanos, hvalue]
    rfl

private theorem le_greatestInt64_iff (n : Nat) :
  n ≤ greatestInt64 ↔ -2 ^ 63 ≤ (n : Int) ∧ (n : Int) < 2 ^ 63
  := by
  rw [greatestInt64]
  omega

/-- A sign and digits are read as their integer, if it has 64 bits. -/
theorem signed_eq_ok_iff {text : List Char} {nanos : Int64} :
  signed text = .ok nanos ↔ Signed nanos.toInt text
  := by
  rw [signed.eq_def]
  split
  · rw [signed_minus_iff]
    apply map_digits_eq_ok_iff fun n => -n
    intro n
    simp only [depthInt64]
    omega
  · rw [signed_plus_iff]
    apply map_digits_eq_ok_iff fun n => n
    apply le_greatestInt64_iff
  · next hminus hplus =>
      rw [signed_plain_iff hminus hplus]
      apply map_digits_eq_ok_iff fun n => n
      apply le_greatestInt64_iff

/-! ### Marks -/

/-- The marks in front of a text do not change its integer. -/
theorem spells_iff {n : Int} {text : List Char} :
  Spells n text ↔ Signed n (dropMarks text)
  := by
  fun_induction dropMarks text with
  | case1 rest ih =>
      rw [← ih]
      constructor
      · intro h
        cases h with
        | marked h => apply h
        -- the letter of the mark is no digit
        | signed h =>
            cases h with
            | plain h => apply absurd (h.digits 'x' (by simp)) (by decide)
      · apply Spells.marked
  | case2 text hmark =>
      constructor
      · intro h
        cases h with
        | signed h => apply h
        | marked h => apply absurd rfl (hmark _)
      · apply Spells.signed

theorem Spells.marks_append {n : Int} {text : List Char} (h : Spells n text) (copies : Nat) :
  Spells n (marks copies ++ text)
  := by
  induction copies with
  | zero => apply h
  | succ copies ih => apply Spells.marked ih

/-- The characters that stand in the texts of integers. -/
theorem Spells.mem {n : Int} {text : List Char} (h : Spells n text) {c : Char} (hc : c ∈ text) :
  IsDigit c ∨ c ∈ ['x', '+', '-']
  := by
  induction h with
  | signed h =>
      cases h with
      | plain h =>
          left
          apply h.digits c hc
      | plus h =>
          obtain rfl | hc := List.mem_cons.mp hc
          · decide
          · left
            apply h.digits c hc
      | minus h =>
          obtain rfl | hc := List.mem_cons.mp hc
          · decide
          · left
            apply h.digits c hc
  | marked h ih =>
      obtain rfl | hc := List.mem_cons.mp hc
      · decide
      · obtain rfl | hc := List.mem_cons.mp hc
        · decide
        · apply ih hc

/-- A text is read as a timestamp exactly when it is the text of an integer of 64 bits. -/
theorem parse_eq_ok_iff {s : String} {nanos : Int64} :
  parse s = .ok nanos ↔ Spells nanos.toInt s.toList
  := by
  rw [parse, signed_eq_ok_iff, spells_iff]

/-! ### Integers that are written -/

/-- The hexadecimal digits of a number make it up. -/
theorem numeral_toDigits (n : Nat) :
  Numeral n (Nat.toDigits 16 n)
  := by
  have hdigit : ∀ d < 16, IsDigit d.digitChar ∧ valueOf d.digitChar = d := by decide
  induction n using Nat.strongRecOn with
  | ind n ih =>
      rw [Nat.toDigits_eq_if (by decide)]
      split
      · next hlt =>
          constructor
          · apply List.cons_ne_nil
          · intro c hc
            rw [List.mem_singleton.mp hc]
            apply (hdigit n hlt).1
          · rw [List.map_singleton, List.reverse_singleton, Nat.ofDigits_singleton]
            apply (hdigit n hlt).2
      · next hge =>
          have hlast := hdigit (n % 16) (Nat.mod_lt n (by decide))
          have hrest := ih (n / 16) (Nat.div_lt_self (by omega) (by decide))
          constructor
          · apply List.append_ne_nil_of_left_ne_nil hrest.ne_nil
          · intro c hc
            obtain hc | hc := List.mem_append.mp hc
            · apply hrest.digits c hc
            · rw [List.mem_singleton.mp hc]
              apply hlast.1
          · rw [List.map_append, List.reverse_append, List.map_singleton, List.reverse_singleton,
              List.singleton_append, Nat.ofDigits_cons, hrest.value, hlast.2]
            apply Nat.mod_add_div

theorem signed_hexText (n : Int) :
  Signed n (hexText n)
  := by
  rw [hexText]
  split
  · next hneg =>
      have heq : -(n.natAbs : Int) = n := by omega
      have h := Signed.minus (numeral_toDigits n.natAbs)
      rw [heq] at h
      apply h
  · next hpos =>
      have heq : (n.natAbs : Int) = n := by omega
      have h := Signed.plain (numeral_toDigits n.natAbs)
      rw [heq] at h
      apply h

/-! ### Timestamps -/

/-- A text is read as an integer exactly when it is a text of it and the integer has 64 bits. -/
theorem parse_value_iff (s : String) (n : Int) :
  (∃ nanos, parse s = .ok nanos ∧ nanos.toInt = n)
    ↔ Spells n s.toList ∧ -2 ^ 63 ≤ n ∧ n ≤ 2 ^ 63 - 1
  := by
  constructor
  · rintro ⟨nanos, hparse, rfl⟩
    use parse_eq_ok_iff.mp hparse, Int64.le_toInt nanos
    apply Int.le_sub_one_of_lt (Int64.toInt_lt nanos)
  · rintro ⟨hspells, hlow, hhigh⟩
    have hvalue : (Int64.ofInt n).toInt = n :=
      Int64.toInt_ofInt_of_le hlow (Int.lt_of_le_sub_one hhigh)
    use Int64.ofInt n
    rw [parse_eq_ok_iff, hvalue]
    use hspells

/-- Every other text is at fault. -/
theorem parse_fault_iff (s : String) :
  (∃ fault, parse s = .error fault)
    ↔ ¬ ∃ n, Spells n s.toList ∧ -2 ^ 63 ≤ n ∧ n ≤ 2 ^ 63 - 1
  := by
  simp only [← parse_value_iff]
  cases parse s with
  | error fault => simp
  | ok nanos => simp

/-- The hexadecimal text of an integer of 64 bits is read as this integer behind any marks. -/
theorem parse_hexText (nanos : Int64) (copies : Nat) :
  parse (String.ofList (marks copies ++ hexText nanos.toInt)) = .ok nanos
  := by
  rw [parse_eq_ok_iff, String.toList_ofList]
  apply Spells.marks_append
  apply Spells.signed
  apply signed_hexText

/-- A text is read as a timestamp exactly when it is the text of an integer of 64 bits, and every
other text is at fault. So the hexadecimal text of any integer of 64 bits is read as this integer,
with any marks in front of it. -/
theorem parse_spelled :
  (∀ (s : String) (n : Int),
      (∃ nanos, parse s = .ok nanos ∧ nanos.toInt = n)
        ↔ Spells n s.toList ∧ -2 ^ 63 ≤ n ∧ n ≤ 2 ^ 63 - 1)
    ∧ (∀ s : String,
      (∃ fault, parse s = .error fault)
        ↔ ¬ ∃ n, Spells n s.toList ∧ -2 ^ 63 ≤ n ∧ n ≤ 2 ^ 63 - 1)
    ∧ ∀ (nanos : Int64) (copies : Nat),
      parse (String.ofList (marks copies ++ hexText nanos.toInt)) = .ok nanos
  := by
  use parse_value_iff, parse_fault_iff, parse_hexText

/-- A sign stands behind the marks, and is followed by a digit. -/
example :
  parse "-0x1" = .error .invalidDigit ∧ parse "0x-" = .error .invalidDigit
    ∧ parse "0x0x-00aB" = .ok (-171)
  := by
  decide

end FeedClient.Stamp
