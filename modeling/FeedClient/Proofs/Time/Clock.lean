import FeedClient.Proofs.Time.Stamp
import FeedClient.Proofs.Time.Text
import FeedClient.Time.Clock

/-!
# What the time of a timestamp tells

The nanoseconds of 64 bits span the years from 1677 to 2262, so every timestamp tells a moment, and
its text can be read back as the milliseconds of the timestamp, before the epoch too. Later
timestamps have later texts. What is shown to people is this text without the milliseconds, and an
invalid date only for a text that is no timestamp.
-/

namespace FeedClient.Stamp

open Moment

theorem millis_mono {nanos nanos' : Int64} (h : nanos ≤ nanos') :
  millis nanos ≤ millis nanos'
  := by
  rw [Int64.le_iff_toInt_le] at h
  apply Int.tdiv_le_tdiv (by decide) h

theorem millis_bounds (nanos : Int64) :
  -9223372036854 ≤ millis nanos ∧ millis nanos ≤ 9223372036854
  := by
  have hleast := Int.tdiv_le_tdiv (show 0 < (1000000 : Int) by decide) nanos.le_toInt
  have hgreatest := Int.tdiv_le_tdiv (show 0 < (1000000 : Int) by decide) nanos.toInt_lt.le
  use hleast, hgreatest

/-- The years of the moments that timestamps tell. -/
theorem year_bounds {m : Moment} (h : m.Valid) {nanos : Int64} (hcount : m.sinceEpoch = millis nanos) :
  1677 ≤ m.year ∧ m.year ≤ 2262
  := by
  obtain ⟨hleast, hgreatest⟩ := millis_bounds nanos
  have hfirst : daysToYear 1677 * 86400000 ≤ -9223372036854 := by
    rw [daysToYear_eq]
    decide
  have hlast : 9223372036854 < daysToYear 2263 * 86400000 := by
    rw [daysToYear_eq]
    decide
  have hfrom := h.le_year_iff 1677
  have hto := h.le_year_iff 2263
  omega

/-- A timestamp tells the moment of the calendar that has its count of milliseconds. -/
theorem moment?_eq_some_iff {nanos : Int64} {m : Moment} :
  moment? nanos = some m ↔ m.Valid ∧ m.sinceEpoch = millis nanos
  := by
  have hvalid := valid_ofMillis (millis nanos)
  have hyears := year_bounds hvalid (sinceEpoch_ofMillis (millis nanos))
  have htold : firstYear ≤ (ofMillis (millis nanos)).year
      ∧ (ofMillis (millis nanos)).year ≤ lastYear := by
    rw [firstYear, lastYear]
    omega
  rw [moment?, ofMillis?, if_pos htold, Option.some.injEq, ofMillis_eq_iff]

theorem exists_moment?_eq (nanos : Int64) :
  ∃ m, moment? nanos = some m
  := by
  use ofMillis (millis nanos)
  rw [moment?_eq_some_iff, ← ofMillis_eq_iff]

/-- Later timestamps have later texts. -/
theorem preciseText_le {nanos nanos' : Int64} {m m' : Moment} (h : nanos ≤ nanos')
    (hm : moment? nanos = some m) (hm' : moment? nanos' = some m') :
  m.preciseText ≤ m'.preciseText
  := by
  obtain ⟨hvalid, hcount⟩ := moment?_eq_some_iff.mp hm
  obtain ⟨hvalid', hcount'⟩ := moment?_eq_some_iff.mp hm'
  have hyear := year_bounds hvalid hcount
  have hyear' := year_bounds hvalid' hcount'
  rw [← not_lt, hvalid'.preciseText_lt_iff hvalid (by omega) (by omega), not_lt]
  apply hvalid.parts_le hvalid'
  rw [hcount, hcount']
  apply millis_mono h

/-- A timestamp is shown to the second. -/
theorem clock_eq {s : String} {nanos : Int64} {m : Moment} (h : parse s = .ok nanos)
    (hm : moment? nanos = some m) :
  clock s = m.text
  := by
  rw [clock, clockIn, h, Except.toOption, Option.bind_some, localMoment?_utc, hm]

theorem clock_eq_invalid_iff (s : String) :
  clock s = "Invalid Date" ↔ ∃ fault, parse s = .error fault
  := by
  cases hparse : parse s with
  | error fault =>
      have hclock : clock s = "Invalid Date" := by
        rw [clock, clockIn, hparse]
        rfl
      simp [hclock]
  | ok nanos =>
      obtain ⟨m, hm⟩ := exists_moment?_eq nanos
      obtain ⟨hvalid, hcount⟩ := moment?_eq_some_iff.mp hm
      have hyear := year_bounds hvalid hcount
      have hlength := length_text (m := m) (by omega)
      have hne : clock s ≠ "Invalid Date" := by
        intro heq
        rw [← clock_eq hparse hm, heq] at hlength
        contradiction
      simp [hne]

/-- Every timestamp tells a moment of the calendar with a year of four digits, which counts the
milliseconds of the timestamp, rounded toward zero, and is read back from its text. Later timestamps
have later texts. What is shown of a text is the text of its timestamp without the milliseconds, and
an invalid date exactly if it is no timestamp. -/
theorem clock_faithful :
  (∀ nanos : Int64, ∃ m, moment? nanos = some m ∧ m.sinceEpoch = nanos.toInt.tdiv 1000000
      ∧ m.Valid ∧ 1677 ≤ m.year ∧ m.year ≤ 2262 ∧ Moment.read? m.preciseText = some m)
    ∧ (∀ (nanos nanos' : Int64) (m m' : Moment), nanos ≤ nanos' →
      moment? nanos = some m → moment? nanos' = some m' → m.preciseText ≤ m'.preciseText)
    ∧ ∀ s : String,
      (clock s = "Invalid Date" ↔ ∃ fault, parse s = .error fault)
        ∧ ∀ nanos, parse s = .ok nanos →
          ∃ m milli, moment? nanos = some m ∧ m.preciseText = clock s ++ "." ++ milli
            ∧ milli.length = 3
  := by
  refine ⟨?_, ?_, ?_⟩
  · intro nanos
    obtain ⟨m, hm⟩ := exists_moment?_eq nanos
    obtain ⟨hvalid, hcount⟩ := moment?_eq_some_iff.mp hm
    obtain ⟨hfirst, hlast⟩ := year_bounds hvalid hcount
    use m, hm, hcount, hvalid, hfirst, hlast
    rw [read?_eq_some_iff]
    use hvalid, by omega
  · intro nanos nanos' m m' h hm hm'
    apply preciseText_le h hm hm'
  · intro s
    use clock_eq_invalid_iff s
    intro nanos hparse
    obtain ⟨m, hm⟩ := exists_moment?_eq nanos
    use m, String.ofList (Moment.digits 3 m.milli), hm
    rw [clock_eq hparse hm, String.length_ofList]
    constructor
    · apply preciseText_eq
    · apply length_digits

theorem clock_faithful_before_epoch :
  (⟨1677, 9, 21, 0, 12, 43, 146⟩ : Moment).preciseText
      ≤ (⟨1969, 12, 31, 23, 59, 59, 999⟩ : Moment).preciseText
    ∧ ∃ m milli, moment? (-1000001) = some m ∧ m.preciseText = clock "0x-f4241" ++ "." ++ milli
      ∧ milli.length = 3
  := by
  obtain ⟨-, hordered, hclock⟩ := clock_faithful
  constructor
  · apply hordered Int64.minValue (-1000001)
    · decide
    · decide
    · decide
  · apply (hclock "0x-f4241").2
    decide

end FeedClient.Stamp
