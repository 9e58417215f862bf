import FeedClient.Http.Charset
import Mathlib.Data.Nat.Basic

/-!
# Texts that are read from their bytes

The bytes of a text in UTF-8 are read as this text, and those of them below 128 are the ASCII
characters in it.
-/

namespace FeedClient.Charset

/-! ### The bytes of a character -/

theorem start_of_two {b : Nat} (hlow : 0xC2 ≤ b) (hhigh : b < 0xE0) :
  start b = some (.inr ⟨b - 0xC0, 1, 0x80, 0xBF⟩)
  := by
  rw [start, if_neg (by omega), if_neg (by omega), if_pos hhigh]

theorem start_of_three {b : Nat} (hlow : 0xE0 ≤ b) (hhigh : b < 0xF0) :
  start b = some (.inr
    ⟨b - 0xE0, 2, if b = 0xE0 then 0xA0 else 0x80, if b = 0xED then 0x9F else 0xBF⟩)
  := by
  rw [start, if_neg (by omega), if_neg (by omega), if_neg (by omega), if_pos hhigh]

theorem start_of_four {b : Nat} (hlow : 0xF0 ≤ b) (hhigh : b < 0xF5) :
  start b = some (.inr
    ⟨b - 0xF0, 3, if b = 0xF0 then 0x90 else 0x80, if b = 0xF4 then 0x8F else 0xBF⟩)
  := by
  rw [start, if_neg (by omega), if_neg (by omega), if_neg (by omega), if_neg (by omega),
    if_pos hhigh]

/-! ### Reading bytes -/

theorem decodeFrom_of_start {b : UInt8} {p : Partial} (h : start b.toNat = some (.inr p))
    (rest : List UInt8) :
  decodeFrom none (b :: rest) = decodeFrom (some p) rest
  := by
  rw [decodeFrom, step, fresh, h]
  rfl

theorem decodeFrom_of_more {p : Partial} {b : UInt8} (hdue : 1 < p.due)
    (hbounds : p.low ≤ b.toNat ∧ b.toNat ≤ p.high) (rest : List UInt8) :
  decodeFrom (some p) (b :: rest)
    = decodeFrom (some { bits := p.bits * 64 + (b.toNat - 0x80), due := p.due - 1 }) rest
  := by
  have hnot : ¬ p.due ≤ 1 := Nat.not_le_of_lt hdue
  simp only [decodeFrom, step, if_pos hbounds, if_neg hnot, List.nil_append]

theorem decodeFrom_of_last {p : Partial} {b : UInt8} {v : Nat} (hdue : p.due = 1)
    (hbounds : p.low ≤ b.toNat ∧ b.toNat ≤ p.high) (hbits : p.bits * 64 + (b.toNat - 0x80) = v)
    (rest : List UInt8) :
  decodeFrom (some p) (b :: rest) = Char.ofNat v :: decodeFrom none rest
  := by
  have hle : p.due ≤ 1 := Nat.le_of_eq hdue
  simp only [decodeFrom, step, if_pos hbounds, if_pos hle, hbits, List.singleton_append]

/-! ### Reading the bytes of a character -/

private theorem toNat_ofNat {n : Nat} (h : n < 256) :
  (UInt8.ofNat n).toNat = n
  := UInt8.toNat_ofNat_of_lt' h

theorem decodeFrom_one {v : Nat} (h : v ≤ 0x7F) (rest : List UInt8) :
  decodeFrom none (UInt8.ofNat v :: rest) = Char.ofNat v :: decodeFrom none rest
  := by
  have hfirst := toNat_ofNat (n := v) (by omega)
  have hstart : start v = some (.inl (Char.ofNat v)) := if_pos (by omega)
  simp only [decodeFrom, step, fresh, hfirst, hstart, List.singleton_append]

theorem decodeFrom_two {v : Nat} (hlow : 0x7F < v) (hhigh : v ≤ 0x7FF) (rest : List UInt8) :
  decodeFrom none
      (UInt8.ofNat (v / 64 % 0x20 + 0xC0) :: UInt8.ofNat (v % 0x40 + 0x80) :: rest)
    = Char.ofNat v :: decodeFrom none rest
  := by
  have hfirst := toNat_ofNat (n := v / 64 % 0x20 + 0xC0) (by omega)
  have hsecond := toNat_ofNat (n := v % 0x40 + 0x80) (by omega)
  have hstart := start_of_two (b := (UInt8.ofNat (v / 64 % 0x20 + 0xC0)).toNat)
    (by omega) (by omega)
  rw [decodeFrom_of_start hstart]
  apply decodeFrom_of_last rfl <;> dsimp only <;> omega

theorem decodeFrom_three {v : Nat} (hlow : 0x7FF < v) (hhigh : v ≤ 0xFFFF)
    (hvalid : v < 0xD800 ∨ 0xDFFF < v) (rest : List UInt8) :
  decodeFrom none
      (UInt8.ofNat (v / 4096 % 0x10 + 0xE0) :: UInt8.ofNat (v / 64 % 0x40 + 0x80)
        :: UInt8.ofNat (v % 0x40 + 0x80) :: rest)
    = Char.ofNat v :: decodeFrom none rest
  := by
  have hfirst := toNat_ofNat (n := v / 4096 % 0x10 + 0xE0) (by omega)
  have hsecond := toNat_ofNat (n := v / 64 % 0x40 + 0x80) (by omega)
  have hthird := toNat_ofNat (n := v % 0x40 + 0x80) (by omega)
  have hstart := start_of_three (b := (UInt8.ofNat (v / 4096 % 0x10 + 0xE0)).toNat)
    (by omega) (by omega)
  -- a first byte 0xE0 leaves out what fits into two bytes, and 0xED the surrogates
  rw [decodeFrom_of_start hstart,
    decodeFrom_of_more Nat.one_lt_two (by constructor <;> dsimp only <;> split <;> omega)]
  apply decodeFrom_of_last rfl <;> dsimp only <;> omega

theorem decodeFrom_four {v : Nat} (hlow : 0xFFFF < v) (hhigh : v < 0x110000)
    (rest : List UInt8) :
  decodeFrom none
      (UInt8.ofNat (v / 262144 % 0x08 + 0xF0) :: UInt8.ofNat (v / 4096 % 0x40 + 0x80)
        :: UInt8.ofNat (v / 64 % 0x40 + 0x80) :: UInt8.ofNat (v % 0x40 + 0x80) :: rest)
    = Char.ofNat v :: decodeFrom none rest
  := by
  have hfirst := toNat_ofNat (n := v / 262144 % 0x08 + 0xF0) (by omega)
  have hsecond := toNat_ofNat (n := v / 4096 % 0x40 + 0x80) (by omega)
  have hthird := toNat_ofNat (n := v / 64 % 0x40 + 0x80) (by omega)
  have hfourth := toNat_ofNat (n := v % 0x40 + 0x80) (by omega)
  have hstart := start_of_four (b := (UInt8.ofNat (v / 262144 % 0x08 + 0xF0)).toNat)
    (by omega) (by omega)
  -- a first byte 0xF0 leaves out what fits into three bytes, and 0xF4 what is beyond Unicode
  rw [decodeFrom_of_start hstart,
    decodeFrom_of_more (show 1 < 3 by decide)
      (by constructor <;> dsimp only <;> split <;> omega),
    decodeFrom_of_more Nat.one_lt_two (by dsimp only; omega)]
  apply decodeFrom_of_last rfl <;> dsimp only <;> omega

/-- The bytes of a character are read as this character. -/
theorem decodeFrom_utf8EncodeChar (c : Char) (rest : List UInt8) :
  decodeFrom none (String.utf8EncodeChar c ++ rest) = c :: decodeFrom none rest
  := by
  have hvalid : c.toNat < 0xD800 ∨ 0xDFFF < c.toNat ∧ c.toNat < 0x110000 := c.valid
  have hvalue : c.val.toNat = c.toNat := rfl
  have hchar : Char.ofNat c.toNat = c := Char.ofNat_toNat c
  simp only [String.utf8EncodeChar, hvalue]
  split
  · next hone =>
      exact (decodeFrom_one hone rest).trans (by rw [hchar])
  · next hone =>
      split
      · next htwo =>
          exact (decodeFrom_two (by omega) htwo rest).trans (by rw [hchar])
      · next htwo =>
          split
          · next hthree =>
              exact (decodeFrom_three (by omega) hthree (by omega) rest).trans (by rw [hchar])
          · next hthree =>
              exact (decodeFrom_four (by omega) (by omega) rest).trans (by rw [hchar])

/-- The bytes of a text are read as this text. -/
theorem utf8_encode (s : List Char) :
  utf8 (encode s) = s
  := by
  induction s with
  | nil => rfl
  | cons c s ih =>
      rw [utf8, encode, List.flatMap_cons, decodeFrom_utf8EncodeChar]
      rw [utf8, encode] at ih
      rw [ih]

/-- A byte below 128 is an ASCII character of the text. -/
theorem mem_of_mem_encode {s : List Char} {b : UInt8} (h : b ∈ encode s) (hb : b.toNat < 0x80) :
  Char.ofNat b.toNat ∈ s
  := by
  obtain ⟨c, hc, hbyte⟩ := List.mem_flatMap.mp h
  have hvalid : c.toNat < 0xD800 ∨ 0xDFFF < c.toNat ∧ c.toNat < 0x110000 := c.valid
  have hvalue : c.val.toNat = c.toNat := rfl
  have hone : c.toNat ≤ 0x7F := by
    by_contra hne
    have hlarge {n : Nat} (hlow : 0x80 ≤ n) (hn : n < 256) : b ≠ UInt8.ofNat n := by
      rintro rfl
      rw [toNat_ofNat hn] at hb
      omega
    simp only [String.utf8EncodeChar, hvalue, if_neg hne] at hbyte
    split at hbyte
    · simp only [List.mem_cons, List.not_mem_nil, or_false] at hbyte
      rcases hbyte with h | h <;> exact hlarge (by omega) (by omega) h
    · split at hbyte
      · simp only [List.mem_cons, List.not_mem_nil, or_false] at hbyte
        rcases hbyte with h | h | h <;> exact hlarge (by omega) (by omega) h
      · simp only [List.mem_cons, List.not_mem_nil, or_false] at hbyte
        rcases hbyte with h | h | h | h <;> exact hlarge (by omega) (by omega) h
  simp only [String.utf8EncodeChar, hvalue, if_pos hone, List.mem_singleton] at hbyte
  rw [hbyte, toNat_ofNat (by omega), Char.ofNat_toNat]
  apply hc

end FeedClient.Charset
