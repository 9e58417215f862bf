import FeedClient.Http.Form
import FeedClient.Proofs.Http.Charset
import Mathlib.Data.List.Basic

/-!
# Parameters that are written and read back

What is written for a text has neither an ampersand nor an equals sign in it, so what is written for
parameters is read as these parameters, in their order.
-/

namespace FeedClient.Form

/-! ### Cutting a text at a character -/

theorem exists_cutAll (mark : Char) (s : List Char) :
  ∃ part parts, cutAll mark s = part :: parts
  := by
  induction s with
  | nil => exact ⟨[], [], rfl⟩
  | cons c s ih =>
      obtain ⟨part, parts, hparts⟩ := ih
      rw [cutAll, hparts]
      by_cases hc : c = mark
      · exact ⟨[], part :: parts, if_pos hc⟩
      · exact ⟨c :: part, parts, if_neg hc⟩

theorem cutAll_cons_of_ne {mark c : Char} (hc : c ≠ mark) {s part : List Char}
    {parts : List (List Char)} (h : cutAll mark s = part :: parts) :
  cutAll mark (c :: s) = (c :: part) :: parts
  := by
  rw [cutAll, h]
  exact if_neg hc

theorem cutAll_cons_self (mark : Char) (s : List Char) :
  cutAll mark (mark :: s) = [] :: cutAll mark s
  := by
  obtain ⟨part, parts, hparts⟩ := exists_cutAll mark s
  rw [cutAll, hparts]
  exact if_pos rfl

theorem cutAll_append (mark : Char) (s t : List Char) :
  cutAll mark (s ++ mark :: t) = cutAll mark s ++ cutAll mark t
  := by
  induction s with
  | nil => apply cutAll_cons_self
  | cons c s ih =>
      by_cases hc : c = mark
      · rw [hc, List.cons_append, cutAll_cons_self, cutAll_cons_self, ih, List.cons_append]
      · obtain ⟨part, parts, hparts⟩ := exists_cutAll mark s
        rw [hparts, List.cons_append] at ih
        rw [cutAll_cons_of_ne hc hparts, List.cons_append, cutAll_cons_of_ne hc ih]
        rfl

theorem cutAll_of_not_mem {mark : Char} {s : List Char} (h : mark ∉ s) :
  cutAll mark s = [s]
  := by
  induction s with
  | nil => rfl
  | cons c s ih =>
      obtain ⟨hc, hs⟩ := List.ne_and_not_mem_of_not_mem_cons h
      apply cutAll_cons_of_ne hc.symm (ih hs)

/-! ### Bytes -/

theorem isPlain_iff {b : UInt8} :
  isPlain b = true
    ↔ 0x30 ≤ b.toNat ∧ b.toNat ≤ 0x39 ∨ 0x41 ≤ b.toNat ∧ b.toNat ≤ 0x5A
      ∨ 0x61 ≤ b.toNat ∧ b.toNat ≤ 0x7A ∨ b.toNat = 0x2A ∨ b.toNat = 0x2D ∨ b.toNat = 0x2E
      ∨ b.toNat = 0x5F
  := by
  simp [isPlain, UInt8.le_iff_toNat_le, ← UInt8.toNat_inj, or_assoc]

theorem hexValue?_hexDigit {n : Nat} (h : n < 16) :
  Json.hexValue? (hexDigit n) = some n
  := by
  revert n
  decide

theorem hexDigit_ne {n : Nat} (h : n < 16) :
  hexDigit n ≠ '&' ∧ hexDigit n ≠ '=' ∧ hexDigit n ≠ '?'
  := by
  revert n
  decide

theorem toNat_ofNat {n : Nat} (h : n < 0x80) :
  (Char.ofNat n).toNat = n
  := by
  have hvalid : n.isValidChar := Or.inl (by omega)
  rw [Char.ofNat, dif_pos hvalid]
  rfl

theorem ofNat_ne {n m : Nat} (hn : n < 0x80) (hm : m < 0x80) (hne : n ≠ m) :
  Char.ofNat n ≠ Char.ofNat m
  := by
  intro h
  apply hne
  rw [← toNat_ofNat hn, h, toNat_ofNat hm]

theorem utf8EncodeChar_ofNat {b : UInt8} (h : b.toNat < 0x80) :
  String.utf8EncodeChar (Char.ofNat b.toNat) = [b]
  := by
  have hvalue : (Char.ofNat b.toNat).val.toNat = b.toNat := toNat_ofNat h
  simp only [String.utf8EncodeChar, hvalue]
  rw [if_pos (by omega), UInt8.ofNat_toNat]

theorem decodeBytes_cons_of_ne {c : Char} (hplus : c ≠ '+') (hpercent : c ≠ '%')
    (s : List Char) :
  decodeBytes (c :: s) = String.utf8EncodeChar c ++ decodeBytes s
  := by
  rw [decodeBytes]
  · apply hplus
  · intro a b rest hc
    contradiction

/-- What is written for a byte is read as this byte. -/
theorem decodeBytes_encodeByte (b : UInt8) (s : List Char) :
  decodeBytes (encodeByte b ++ s) = b :: decodeBytes s
  := by
  rw [encodeByte]
  split
  · next hblank =>
      rw [beq_iff_eq.mp hblank]
      rfl
  · split
    · next hplain =>
        have hplain := isPlain_iff.mp hplain
        rw [List.singleton_append, decodeBytes_cons_of_ne, utf8EncodeChar_ofNat (by omega)]
        · rfl
        · exact ofNat_ne (m := 0x2B) (by omega) (by omega) (by omega)
        · exact ofNat_ne (m := 0x25) (by omega) (by omega) (by omega)
    · have hbyte := b.toNat_lt
      simp only [percent, List.cons_append, List.nil_append, decodeBytes]
      rw [hexValue?_hexDigit (by omega), hexValue?_hexDigit (by omega)]
      simp only [Nat.div_add_mod', UInt8.ofNat_toNat]

theorem decodeBytes_flatMap (bytes : List UInt8) :
  decodeBytes (bytes.flatMap encodeByte) = bytes
  := by
  induction bytes with
  | nil => rfl
  | cons b bytes ih => rw [List.flatMap_cons, decodeBytes_encodeByte, ih]

/-! ### Texts -/

/-- What is written for a text is read as this text. -/
theorem decodeText_encodeText (s : String) :
  decodeText (encodeText s.toList) = s
  := by
  rw [decodeText, encodeText, decodeBytes_flatMap, Charset.utf8_encode, String.ofList_toList]

theorem ne_of_mem_encodeByte {b : UInt8} {c : Char} (h : c ∈ encodeByte b) :
  c ≠ '&' ∧ c ≠ '='
  := by
  rw [encodeByte] at h
  split at h
  · rw [List.mem_singleton.mp h]
    decide
  · split at h
    · next hplain =>
        have hplain := isPlain_iff.mp hplain
        rw [List.mem_singleton.mp h]
        constructor
        · exact ofNat_ne (m := 0x26) (by omega) (by omega) (by omega)
        · exact ofNat_ne (m := 0x3D) (by omega) (by omega) (by omega)
    · have hbyte := b.toNat_lt
      simp only [percent, List.mem_cons, List.not_mem_nil, or_false] at h
      obtain rfl | rfl | rfl := h
      · decide
      · have hdigit := hexDigit_ne (n := b.toNat / 16) (by omega)
        exact ⟨hdigit.1, hdigit.2.1⟩
      · have hdigit := hexDigit_ne (n := b.toNat % 16) (by omega)
        exact ⟨hdigit.1, hdigit.2.1⟩

/-- What is written for a text has no mark of a form in it. -/
theorem ne_of_mem_encodeText {s : List Char} {c : Char} (h : c ∈ encodeText s) :
  c ≠ '&' ∧ c ≠ '='
  := by
  obtain ⟨b, -, hc⟩ := List.mem_flatMap.mp h
  apply ne_of_mem_encodeByte hc

/-! ### Parameters -/

/-- What is written for a parameter is read as this parameter. -/
theorem decodePair_encodePair (pair : String × String) :
  decodePair (encodePair pair) = pair
  := by
  have hname : ∀ c ∈ encodeText pair.1.toList, decide (c ≠ '=') = true := by
    intro c hc
    rw [decide_eq_true_eq]
    exact (ne_of_mem_encodeText hc).2
  simp only [decodePair, encodePair, List.takeWhile_append_of_pos hname,
    List.dropWhile_append_of_pos hname]
  simp [decodeText_encodeText]

theorem not_mem_encodePair (pair : String × String) :
  '&' ∉ encodePair pair
  := by
  intro h
  obtain h | h := List.mem_append.mp h
  · exact (ne_of_mem_encodeText h).1 rfl
  · obtain h | h := List.mem_cons.mp h
    · cases h
    · exact (ne_of_mem_encodeText h).1 rfl

theorem encodePair_ne_nil (pair : String × String) :
  encodePair pair ≠ []
  := by
  simp [encodePair]

theorem cutAll_encode {parameters : List (String × String)} (h : parameters ≠ []) :
  cutAll '&' (encode parameters) = parameters.map encodePair
  := by
  induction parameters with
  | nil => contradiction
  | cons pair parameters ih =>
      cases parameters with
      | nil => exact cutAll_of_not_mem (not_mem_encodePair pair)
      | cons next parameters =>
          rw [encode, cutAll_append, cutAll_of_not_mem (not_mem_encodePair pair),
            ih (List.cons_ne_nil _ _)]
          rfl
          simp

/-- What is written for parameters is read as these parameters, in their order. -/
theorem decode_encode (parameters : List (String × String)) :
  decode (encode parameters) = parameters
  := by
  cases parameters with
  | nil => rfl
  | cons pair parameters =>
      have hfull : ∀ part ∈ (pair :: parameters).map encodePair, (!part.isEmpty) = true := by
        intro part hpart
        obtain ⟨pair', -, rfl⟩ := List.mem_map.mp hpart
        simp [encodePair_ne_nil]
      have hpairs : decodePair ∘ encodePair = id := funext decodePair_encodePair
      rw [decode, cutAll_encode (List.cons_ne_nil _ _), List.filter_eq_self.mpr hfull,
        List.map_map, hpairs, List.map_id]

end FeedClient.Form
