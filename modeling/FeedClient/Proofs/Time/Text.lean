import FeedClient.Proofs.Time.Calendar
import FeedClient.Toml.Scalar
import Mathlib.Data.List.DropRight
import Mathlib.Data.List.Forall2
import Mathlib.Data.String.Basic

/-!
# Moments as texts

The text of a moment has a fixed place for each part, so it can be read back: `Moment.read?` accepts
exactly the texts of the moments of the calendar whose years have four digits. As the greatest part
stands first and each has leading zeros, the texts are ordered as the moments are.
-/

namespace FeedClient

/-! ### Digits -/

theorem isDigit_ofNat {d : Nat} (h : d < 10) :
  isDigit (Char.ofNat (48 + d)) = true
  := by
  revert d
  decide

theorem digitValue_ofNat {d : Nat} (h : d < 10) :
  digitValue (Char.ofNat (48 + d)) = d
  := by
  revert d
  decide

theorem isDigit_iff {c : Char} :
  isDigit c = true ↔ 48 ≤ c.toNat ∧ c.toNat ≤ 57
  := by
  rw [isDigit, Bool.and_eq_true, decide_eq_true_eq, decide_eq_true_eq, Char.le_def, Char.le_def,
    UInt32.le_iff_toNat_le, UInt32.le_iff_toNat_le]
  rfl

theorem ofNat_digitValue {c : Char} (h : isDigit c = true) :
  Char.ofNat (48 + digitValue c) = c
  := by
  rw [isDigit_iff] at h
  rw [digitValue, Nat.add_sub_cancel' h.1, Char.ofNat_toNat]

theorem digitValue_lt {c : Char} (h : isDigit c = true) :
  digitValue c < 10
  := by
  rw [isDigit_iff] at h
  rw [digitValue]
  omega

theorem ofNat_lt_ofNat_iff {d e : Nat} (hd : d < 10) (he : e < 10) :
  Char.ofNat (48 + d) < Char.ofNat (48 + e) ↔ d < e
  := by
  revert d
  revert e
  decide

theorem ofNat_inj_of_lt {d e : Nat} (hd : d < 10) (he : e < 10) :
  Char.ofNat (48 + d) = Char.ofNat (48 + e) ↔ d = e
  := by
  constructor
  · intro h
    rw [← digitValue_ofNat hd, h, digitValue_ofNat he]
  · rintro rfl
    rfl

theorem natOfDigits_concat (s : List Char) (c : Char) :
  natOfDigits (s ++ [c]) = natOfDigits s * 10 + digitValue c
  := by
  rw [natOfDigits, List.foldl_append]
  rfl

namespace Moment

/-! ### Numbers of a fixed width -/

theorem length_digits (width n : Nat) :
  (digits width n).length = width
  := by
  induction width generalizing n with
  | zero => rfl
  | succ width ih =>
      rw [digits, List.length_append, ih]
      rfl

theorem all_isDigit_digits (width n : Nat) :
  (digits width n).all isDigit = true
  := by
  induction width generalizing n with
  | zero => rfl
  | succ width ih =>
      have hlast := isDigit_ofNat (Nat.mod_lt n (by decide))
      rw [digits, List.all_append, ih, List.all_cons, hlast]
      rfl

theorem natOfDigits_digits {width n : Nat} (h : n < 10 ^ width) :
  natOfDigits (digits width n) = n
  := by
  induction width generalizing n with
  | zero =>
      rw [Nat.pow_zero, Nat.lt_one_iff] at h
      rw [h]
      rfl
  | succ width ih =>
      have hfirst : n / 10 < 10 ^ width := by omega
      rw [digits, natOfDigits_concat, ih hfirst, digitValue_ofNat (Nat.mod_lt n (by decide))]
      omega

theorem natOfDigits_lt {s : List Char} (h : s.all isDigit = true) :
  natOfDigits s < 10 ^ s.length
  := by
  induction s using List.reverseRecOn with
  | nil => decide
  | append_singleton s c ih =>
      rw [List.all_append, Bool.and_eq_true, List.all_cons, List.all_nil, Bool.and_true] at h
      have hfirst := ih h.1
      have hlast := digitValue_lt h.2
      rw [natOfDigits_concat, List.length_append, List.length_singleton]
      omega

/-- Digits are those of the number that they make up. -/
theorem digits_natOfDigits {s : List Char} (h : s.all isDigit = true) :
  digits s.length (natOfDigits s) = s
  := by
  induction s using List.reverseRecOn with
  | nil => rfl
  | append_singleton s c ih =>
      rw [List.all_append, Bool.and_eq_true, List.all_cons, List.all_nil, Bool.and_true] at h
      have hlt := digitValue_lt h.2
      have hquotient : (natOfDigits s * 10 + digitValue c) / 10 = natOfDigits s := by omega
      have hremainder : (natOfDigits s * 10 + digitValue c) % 10 = digitValue c := by omega
      rw [natOfDigits_concat, List.length_append, List.length_singleton, digits, hquotient,
        hremainder, ih h.1, ofNat_digitValue h.2]

/-- A number of a fixed width is read exactly where its digits stand. -/
theorem fixed?_eq_some_iff {width n : Nat} {s rest : List Char} :
  Toml.fixed? width s = some (n, rest) ↔ n < 10 ^ width ∧ s = digits width n ++ rest
  := by
  rw [Toml.fixed?]
  constructor
  · intro h
    obtain ⟨hcond, heq⟩ := Option.ite_none_right_eq_some.mp h
    simp only [Bool.and_eq_true, decide_eq_true_eq] at hcond
    obtain ⟨hlength, hall⟩ := hcond
    have hlt := natOfDigits_lt hall
    have hdigits := digits_natOfDigits hall
    cases heq
    rw [hlength] at hdigits hlt
    use hlt
    rw [hdigits, List.take_append_drop]
  · rintro ⟨hlt, rfl⟩
    have hlength := length_digits width n
    rw [List.take_left' hlength, List.drop_left' hlength]
    simp only [hlength, all_isDigit_digits, natOfDigits_digits hlt]
    rfl

theorem after?_eq_some_iff {mark : Char} {s rest : List Char} :
  Toml.after? mark s = some rest ↔ s = mark :: rest
  := by
  cases s with
  | nil => simp [Toml.after?]
  | cons c s =>
      rw [Toml.after?, Option.ite_none_right_eq_some, List.cons.injEq, Option.some.injEq]

/-- Numbers of a fixed width are ordered as their digits are. -/
theorem digits_append_lt_iff {width a b : Nat} {s t : List Char} (ha : a < 10 ^ width)
    (hb : b < 10 ^ width) :
  digits width a ++ s < digits width b ++ t ↔ a < b ∨ a = b ∧ s < t
  := by
  induction width generalizing a b s t with
  | zero =>
      rw [Nat.pow_zero, Nat.lt_one_iff] at ha hb
      simp [ha, hb, digits]
  | succ width ih =>
      have hlasta : a % 10 < 10 := Nat.mod_lt a (by decide)
      have hlastb : b % 10 < 10 := Nat.mod_lt b (by decide)
      rw [digits, digits, List.append_assoc, List.append_assoc, List.singleton_append,
        List.singleton_append, ih (by omega) (by omega), List.cons_lt_cons_iff,
        ofNat_lt_ofNat_iff hlasta hlastb, ofNat_inj_of_lt hlasta hlastb]
      -- the last digits decide only between numbers with the same tens
      by_cases hrest : s < t
      · simp only [hrest, and_true]
        omega
      · simp only [hrest, and_false, or_false]
        omega

/-! ### Numbers behind marks -/

/-- Numbers of the given widths, each behind its mark. -/
def written : List (Char × Nat) → List Nat → List Char
  | (mark, width) :: layout, n :: values => mark :: (digits width n ++ written layout values)
  | _, _ => []

/-- Reads numbers of the given widths, each behind its mark, and nothing else. -/
def values? : List (Char × Nat) → List Char → Option (List Nat)
  | [], [] => some []
  | [], _ :: _ => none
  | (mark, width) :: layout, s => do
    let (n, s) ← Toml.fixed? width (← Toml.after? mark s)
    return n :: (← values? layout s)

/-- Numbers that the given widths are enough for. -/
def Fits (layout : List (Char × Nat)) (values : List Nat) : Prop :=
  List.Forall₂ (fun place n => n < 10 ^ place.2) layout values

/-- Numbers are read exactly where they are written. -/
theorem values?_eq_some_iff {layout : List (Char × Nat)} {s : List Char} {values : List Nat} :
  values? layout s = some values ↔ Fits layout values ∧ s = written layout values
  := by
  induction layout generalizing s values with
  | nil =>
      rw [Fits, List.forall₂_nil_left_iff]
      cases s with
      | nil => simp [values?, written, eq_comm]
      | cons c s => simp [values?, written]
  | cons place layout ih =>
      obtain ⟨mark, width⟩ := place
      simp only [values?, Option.bind_eq_bind, Option.bind_eq_some_iff, after?_eq_some_iff,
        fixed?_eq_some_iff, Prod.exists, ih, Option.pure_def, Option.some.injEq]
      constructor
      · rintro ⟨s, rfl, n, s', ⟨hlt, rfl⟩, values, ⟨hfits, rfl⟩, rfl⟩
        use List.Forall₂.cons hlt hfits
        rfl
      · rintro ⟨h, rfl⟩
        obtain ⟨n, values, hlt, hfits, rfl⟩ := List.forall₂_cons_left_iff.mp h
        use digits width n ++ written layout values, rfl, n, written layout values, ⟨hlt, rfl⟩,
          values, ⟨hfits, rfl⟩

/-- Numbers are ordered as what is written for them. -/
theorem written_lt_iff {layout : List (Char × Nat)} {values values' : List Nat}
    (h : Fits layout values) (h' : Fits layout values') :
  written layout values < written layout values' ↔ values < values'
  := by
  induction h generalizing values' with
  | nil =>
      rw [List.forall₂_nil_left_iff.mp h']
      simp
  | cons hlt hfits ih =>
      obtain ⟨n, values, hlt', hfits', rfl⟩ := List.forall₂_cons_left_iff.mp h'
      simp only [written, List.cons_lt_cons_iff, digits_append_lt_iff hlt hlt', ih hfits',
        lt_irrefl, false_or, true_and]

/-! ### The text of a moment -/

/-- The marks and the widths of the parts behind the year. -/
def layout : List (Char × Nat) :=
  [('-', 2), ('-', 2), (' ', 2), (':', 2), (':', 2), ('.', 3)]

/-- The parts behind the year. -/
def values (m : Moment) : List Nat :=
  [m.month, m.day, m.hour, m.minute, m.second, m.milli]

theorem toList_preciseText {m : Moment} (h : 0 ≤ m.year ∧ m.year ≤ 9999) :
  m.preciseText.toList = digits 4 m.year.natAbs ++ written layout m.values
  := by
  simp only [preciseText, String.toList_ofList, chars, yearChars, if_pos h, List.append_assoc,
    List.cons_append, layout, values, written, List.append_nil]

theorem preciseText_eq (m : Moment) :
  m.preciseText = m.text ++ "." ++ String.ofList (digits 3 m.milli)
  := by
  rw [← String.toList_inj, String.toList_append, String.toList_append, preciseText, text]
  simp only [String.toList_ofList, List.append_assoc]
  rfl

theorem length_text {m : Moment} (h : 0 ≤ m.year ∧ m.year ≤ 9999) :
  m.text.length = 19
  := by
  rw [text, String.length_ofList, chars, yearChars, if_pos h]
  simp only [List.length_append, List.length_cons, length_digits]

theorem Valid.fits {m : Moment} (h : m.Valid) :
  Fits layout m.values
  := by
  obtain ⟨hdate, hhour, hminute, hsecond, hmilli⟩ := h
  have hmonth := hdate.month_le
  have hday := hdate.day_lt
  simp only [Fits, layout, values, List.forall₂_cons, List.Forall₂.nil, and_true]
  omega

/-- Moments with years of four digits are ordered as their texts are. -/
theorem Valid.preciseText_lt_iff {m m' : Moment} (h : m.Valid) (h' : m'.Valid)
    (hyear : 0 ≤ m.year ∧ m.year ≤ 9999) (hyear' : 0 ≤ m'.year ∧ m'.year ≤ 9999) :
  m.preciseText < m'.preciseText ↔ m.parts < m'.parts
  := by
  have hlt : m.year.natAbs < 10 ^ 4 := by omega
  have hlt' : m'.year.natAbs < 10 ^ 4 := by omega
  have hyears : (m.year.natAbs < m'.year.natAbs ↔ m.year < m'.year)
      ∧ (m.year.natAbs = m'.year.natAbs ↔ m.year = m'.year) := by
    omega
  rw [String.lt_iff_toList_lt, toList_preciseText hyear, toList_preciseText hyear',
    digits_append_lt_iff hlt hlt', written_lt_iff h.fits h'.fits, hyears.1, hyears.2]
  simp only [parts, values, List.cons_lt_cons_iff, Int.ofNat_lt, Int.natCast_inj, List.not_lt_nil]

/-! ### Reading a moment back -/

instance (year : Int) (month day : Nat) : Decidable (IsDate year month day) :=
  decidable_of_iff' _ (isDate_iff year month day)

instance (m : Moment) : Decidable m.Valid :=
  decidable_of_iff' _ (valid_iff m)

/-- Reads `YYYY-MM-DD HH:MM:SS.mmm`: a date of the calendar, a time of day and nothing else. -/
def read? (text : String) : Option Moment := do
  let (year, s) ← Toml.fixed? 4 text.toList
  match ← values? layout s with
  | [month, day, hour, minute, second, milli] =>
    let m : Moment := { year, month, day, hour, minute, second, milli }
    if m.Valid then some m else none
  | _ => none

/-- The texts that are read are those of the moments of the calendar whose years have four digits. -/
theorem read?_eq_some_iff {text : String} {m : Moment} :
  read? text = some m ↔ m.Valid ∧ (0 ≤ m.year ∧ m.year ≤ 9999) ∧ text = m.preciseText
  := by
  simp only [read?, Option.bind_eq_bind, Option.bind_eq_some_iff, fixed?_eq_some_iff, Prod.exists,
    values?_eq_some_iff]
  constructor
  · rintro ⟨year, s, ⟨hyear, htext⟩, values, ⟨hfits, rfl⟩, hread⟩
    split at hread
    · next month day hour minute second milli =>
        obtain ⟨hvalid, heq⟩ := Option.ite_none_right_eq_some.mp hread
        cases heq
        have hyears : 0 ≤ (year : Int) ∧ (year : Int) ≤ 9999 := by omega
        use hvalid, hyears
        rw [← String.toList_inj, toList_preciseText hyears, htext]
        rfl
    · contradiction
  · rintro ⟨hvalid, hyears, rfl⟩
    use m.year.natAbs, written layout m.values, ⟨by omega, toList_preciseText hyears⟩
    use m.values, ⟨hvalid.fits, rfl⟩
    have hyear : (m.year.natAbs : Int) = m.year := Int.natAbs_of_nonneg hyears.1
    rw [values]
    dsimp only
    rw [hyear, if_pos hvalid]

/-- The year 1900 had no leap day. -/
example :
  (read? "2000-02-29 23:59:59.999").isSome ∧ read? "1900-02-29 00:00:00.000" = none
  := by
  decide

end Moment

end FeedClient
