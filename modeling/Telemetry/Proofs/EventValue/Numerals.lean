import Telemetry.Proofs.Decimal.Grammar
import Telemetry.Proofs.EventValue.Exact

/-!
# Event values that are given as text

A text has a decimal just if it matches the pattern of numerals, and the decimal is what is
written: its sign, its digits and its exponent, with nothing rounded and no zero dropped but those
in front (`EventValue.toDecimal_text`). Only a numeral that is longer than any memory, or whose
power of ten is of that order, may be beyond what a decimal can hold.
-/

namespace Telemetry

namespace EventValue

open Numeral

/-- A text that spells no numeral is refused as it is. -/
theorem toDecimal_of_not_mem_pattern {t : Text} (ht : t ∉ pattern) :
    toDecimal (.text t) = .error (reject (.text t) .notANumber) := by
  have hnone : Numeral.ofText? t = none := by
    rw [Option.eq_none_iff_forall_ne_some]
    intro n hn
    exact ht (mem_pattern_iff.mpr ⟨n, spelling_of_ofText? hn⟩)
  have hdecimal : Decimal.ofText? t = none := by
    unfold Decimal.ofText?
    rw [hnone, Option.bind_none]
  simp only [toDecimal, hdecimal]

theorem toDecimal_of_spelling {n : Numeral} {t : Text} (hn : Spelling n t)
    (hbounds : n.WithinBounds) :
    toDecimal (.text t) = .ok (some (.finite n.negative n.coefficient n.exponent)) := by
  simp only [toDecimal, ofText?_decimal hn, if_pos hbounds]

/-- The coefficient has the digits of the numeral without the zeros in front. -/
theorem ofNat_coefficient {n : Numeral} {t : Text} (hn : Spelling n t) :
    Text.ofNat n.coefficient = Text.dropZeros (n.whole ++ n.fraction) := by
  obtain ⟨-, -, hwhole, hfraction, -⟩ := hn
  exact Text.ofNat_digitsValue (hwhole.append hfraction)

/--
The texts that match the pattern are those that spell a numeral. Every other text is refused as no
number, and a numeral is read digit for digit.
-/
theorem toDecimal_text (t : Text) :
    (t ∈ pattern ↔ ∃ n, Spelling n t) ∧
    (t ∉ pattern → ∃ r, toDecimal (.text t) = .error (.rejected r) ∧ r.field = .eventValue ∧
      r.value = .text t ∧ r.kind = .notANumber) ∧
    ∀ n, Spelling n t → t.length ≤ 10 ^ 17 → n.power.natAbs ≤ 10 ^ 17 →
      ∃ coefficient,
        toDecimal (.text t) = .ok (some (.finite (decide (t.head? = some (CodePoint.ofChar '-')))
          coefficient (n.power - n.fraction.length))) ∧
        Text.ofNat coefficient = Text.dropZeros (n.whole ++ n.fraction) := by
  refine ⟨mem_pattern_iff, fun ht => ?_, fun n hn hlength hpower => ?_⟩
  · exact ⟨_, toDecimal_of_not_mem_pattern ht, rfl, rfl, rfl⟩
  · refine ⟨n.coefficient, ?_, ofNat_coefficient hn⟩
    rw [toDecimal_of_spelling hn (hn.withinBounds hlength hpower), hn.negative_eq]
    rfl

/-- The sign of a zero and the zeros behind the point are kept. -/
theorem toDecimal_text_negative_zero :
    ∃ coefficient,
      toDecimal (.text "-0.00e1") = .ok (some (.finite true coefficient (-1))) ∧
      Text.ofNat coefficient = Text.dropZeros "000" := by
  have hspelling : Spelling ⟨true, "0", "00", 1⟩ "-0.00e1" :=
    spelling_of_ofText? (by decide)
  exact (toDecimal_text "-0.00e1").2.2 _ hspelling (by decide) (by decide)

end EventValue

end Telemetry
