import Telemetry.EventRecord
import Telemetry.Proofs.Binary64.Fixed

/-!
# The time of a payload

A payload gives the time of an event in seconds, to the millisecond. The text spells one number,
which is the multiple of a millisecond nearest to the exact value of the time, whatever its size
(`EventRecord.payload_time`): it is off by half a millisecond at most, and of two events the earlier
one is never given the later time.
-/

namespace Telemetry

namespace EventRecord

/-- The time in a payload is a numeral with three places, and counts the milliseconds. -/
theorem exists_numeral_time {r : EventRecord} (hfinite : r.ts.isFinite = true)
    (sessionId : Datum) :
    ∃ n : Numeral, (r.payload sessionId).time = n.pointText ∧ n.negative = r.ts.negative ∧
      n.HasPlaces 3 ∧
      ∃ k : ℤ, n.value = k * (1 / 1000) ∧ IsNearestMultiple (1 / 1000) k r.ts.toRat := by
  have hunit : (10 : ℚ) ^ (-(3 : ℕ) : ℤ) = 1 / 1000 := by norm_num
  obtain ⟨n, htext, hsign, hplaces, hunits⟩ :=
    Binary64.exists_numeral_fixed hfinite (show 0 < 3 by decide)
  refine ⟨n, htext, hsign, hplaces, Decimal.signed r.ts.negative (r.ts.inUnits 3), ?_, ?_⟩
  · rw [hplaces.value_eq, hsign, hunits, hunit]
  · rw [← hunit]
    exact Binary64.isNearestMultiple_inUnits r.ts 3

theorem ofText?_time {r : EventRecord} {sessionId : Datum} {n : Numeral}
    (htext : (r.payload sessionId).time = n.pointText) (hplaces : n.HasPlaces 3) :
    Numeral.ofText? (r.payload sessionId).time = some n := by
  rw [htext]
  exact Numeral.ofText?_of_spelling hplaces.spelling

/--
The time in the payload of an event is a minus sign if the time has one, digits without a zero in
front that is not needed, a point and three digits. It is read as the multiple of a thousandth that
is nearest to the exact value of the time, of two the even one. So it is off by half a thousandth at
most, and a time that is not before another is not read as one before the other.
-/
theorem payload_time {r : EventRecord} (hfinite : r.ts.isFinite = true) (sessionId : Datum) :
    ∃ n : Numeral,
      (r.payload sessionId).time = n.pointText ∧
      n.negative = r.ts.negative ∧
      n.HasPlaces 3 ∧
      Numeral.ofText? (r.payload sessionId).time = some n ∧
      (∃ k : ℤ, n.value = k * (1 / 1000) ∧ IsNearestMultiple (1 / 1000) k r.ts.toRat) ∧
      |n.value - r.ts.toRat| ≤ 1 / 2000 ∧
      ∀ (later : EventRecord) (sessionId' : Datum) (n' : Numeral), later.ts.isFinite = true →
        r.ts.toRat ≤ later.ts.toRat →
        Numeral.ofText? (later.payload sessionId').time = some n' → n.value ≤ n'.value := by
  have hunit : (0 : ℚ) < 1 / 1000 := by norm_num
  obtain ⟨n, htext, hsign, hplaces, k, hvalue, hnearest⟩ := exists_numeral_time hfinite sessionId
  refine ⟨n, htext, hsign, hplaces, ofText?_time htext hplaces, ⟨k, hvalue, hnearest⟩, ?_, ?_⟩
  · have hdist := hnearest.abs_sub_le hunit
    rw [hvalue, abs_sub_comm]
    linarith
  · intro later sessionId' n' hlater hle hread
    obtain ⟨m, htext', -, hplaces', l, hvalue', hnearest'⟩ := exists_numeral_time hlater sessionId'
    rw [ofText?_time htext' hplaces'] at hread
    cases hread
    have hfactors : (k : ℚ) ≤ l := by exact_mod_cast hnearest.mono hunit hnearest' hle
    rw [hvalue, hvalue']
    exact mul_le_mul_of_nonneg_right hfactors hunit.le

/-- A sixteenth lies between two thousandths, and is given as the even one, sign and all. -/
theorem payload_time_tie :
    let ts : Binary64 := ⟨true, 0x3FB0000000000000, by decide⟩
    let r : EventRecord := ⟨"refund", none, none, none, none, none, none, "event", ts⟩
    (r.payload .null).time = "-0.062" ∧ ts.toRat = -(1 / 16) ∧
      IsNearestMultiple (1 / 1000) (-62) (-(1 / 16)) := by
  intro ts r
  have htime : (r.payload .null).time = "-0.062" := by decide +kernel
  have hvalue : ts.toRat = -(1 / 16) := by
    have hfields : ts.significand = 2 ^ 52 ∧ ts.exponent = -56 := by decide
    rw [Binary64.toRat_eq, Binary64.size_magnitude, hfields.1, hfields.2]
    norm_num [Binary64.withSign, ts]
  obtain ⟨n, -, -, -, hread, ⟨k, hk, hnearest⟩, -, -⟩ :=
    payload_time (r := r) (by decide) .null
  have hn : n = ⟨true, "0", "062", 0⟩ := by
    have hparts : Numeral.ofText? "-0.062" = some ⟨true, "0", "062", 0⟩ := by decide
    rw [htime, hparts] at hread
    exact (Option.some.inj hread).symm
  have hfactor : (k : ℚ) = -62 := by
    have hcoefficient : n.coefficient = 62 ∧ n.exponent = -3 := by
      rw [hn]
      decide
    rw [Numeral.value, hcoefficient.1, hcoefficient.2, hn] at hk
    norm_num [Decimal.number] at hk
    linarith
  obtain rfl : k = -62 := by exact_mod_cast hfactor
  exact ⟨htime, hvalue, hvalue ▸ hnearest⟩

/-- The carry runs across the point, and a sign stays in front of zeros. -/
example :
    Binary64.fixed 3 ⟨false, 0x3FEFFBE76C8B4396, by decide⟩ = "1.000" ∧
      Binary64.fixed 3 ⟨true, 1, by decide⟩ = "-0.000" := by
  decide +kernel

end EventRecord

end Telemetry
