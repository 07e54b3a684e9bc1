import Telemetry.Proofs.Binary64.Fewest
import Telemetry.Proofs.Binary64.Rounding
import Telemetry.Proofs.Decimal.Grammar
import Telemetry.Proofs.Decimal.Significant
import Telemetry.Proofs.EventValue.Outcome

/-!
# A float is taken as its shortest decimal

The decimal of a finite float is read off its text. It has the sign of the float, also if this is a
zero; it is rounded to the float again; and no other number that is rounded to the float has fewer
significant digits (`EventValue.toDecimal_float`). So two floats never have the same decimal.
-/

namespace Telemetry

namespace Binary64

variable {x : Binary64}

theorem number_eq_withSign (negative : Bool) (k : Nat) (e : ℤ) :
    Decimal.number negative k e = withSign negative (k * 10 ^ e) := rfl

theorem isNearest_digits (hx : x.isFinite = true) :
    x.IsNearest (Decimal.number x.negative x.digits.1 x.digits.2) := by
  have haround : Around x.magnitude (x.digits.1 * 10 ^ x.digits.2) := by
    unfold digits
    split
    · next hzero =>
      have hsize := around_size x.magnitude
      rw [hzero, size_zero] at hsize
      rw [hzero, Nat.cast_zero, zero_mul]
      exact hsize
    · next hne =>
      obtain ⟨n, j, hshortest, -, -, hn, -⟩ := shortest_coarsest hx hne
      rw [hshortest]
      exact hn
  exact (haround.nearest (isFinite_iff.mp hx).le).isNearest (by positivity)

/-- No number that is rounded to the float has fewer significant digits than its decimal. -/
theorem significantDigits_digits_le (hx : x.isFinite = true) (hne : x.magnitude ≠ 0)
    {negative : Bool} {k : Nat} {e : ℤ} (hk : k ≠ 0)
    (h : x.IsNearest (Decimal.number negative k e)) :
    Decimal.significantDigits x.digits.1 ≤ Decimal.significantDigits k := by
  have hnonneg : (0 : ℚ) ≤ k * 10 ^ e := by positivity
  rw [number_eq_withSign] at h
  obtain rfl := h.negative_eq hnonneg hne
  have haround := (h.nearestMagnitude hnonneg).around
  -- The zeros at the end of the coefficient may as well be in the power of ten.
  obtain ⟨m, n, rfl, hdigits⟩ := Decimal.exists_significant k
  have hm : m ≠ 0 := left_ne_zero_of_mul hk
  have hmoved : ((m * 10 ^ n : Nat) : ℚ) * 10 ^ e = m * 10 ^ (n + e) := by
    rw [zpow_add₀ (by norm_num), zpow_natCast]
    push_cast
    ring
  rw [hmoved] at haround
  rw [hdigits, digits, if_neg hne]
  exact (Decimal.significantDigits_le _).trans (digitCount_shortest_le hx hne hm haround)

end Binary64

namespace EventValue

open Binary64

/-- The decimal of a finite float has its sign, and the number of its shortest decimal. -/
theorem exists_decimal_of_finite {x : Binary64} (hx : x.isFinite = true) :
    ∃ k e, toDecimal (.float x) = .ok (some (.finite x.negative k e)) ∧
      Decimal.number x.negative k e = Decimal.number x.negative x.digits.1 x.digits.2 := by
  obtain ⟨n, hn, hspell, hbounds⟩ := spelling_text hx
  refine ⟨n.coefficient, n.exponent, ?_, ?_⟩
  · unfold toDecimal
    dsimp only
    rw [Numeral.ofText?_decimal hspell, if_pos hbounds, hn.negative_eq]
  · have hvalue := hn.value_eq
    rwa [Numeral.value, hn.negative_eq] at hvalue

/-- Of two floats with one sign and decimals of one number the bits are the same. -/
theorem eq_of_number_eq {x y : Binary64} {k l : Nat} {e f : ℤ}
    (hx : x.IsNearest (Decimal.number x.negative k e))
    (hy : y.IsNearest (Decimal.number y.negative l f)) (hsign : y.negative = x.negative)
    (hnumber : Decimal.number x.negative l f = Decimal.number x.negative k e) : y = x := by
  rw [hsign, hnumber] at hy
  have hnonneg : (0 : ℚ) ≤ k * 10 ^ e := by positivity
  exact (hx.unique hy hnonneg hsign).symm

/--
A finite float is taken as a decimal with its sign that is nearest to it and is read as it again. If
it is no zero, no other number but zero that it is nearest to has fewer significant digits. No other
float is taken as a decimal with this sign and this number, and the text that is read in between is
one of the grammar of numerals. A float that is not finite is refused as no number.
-/
theorem toDecimal_float (x : Binary64) :
    (x.isFinite = true → x.text ∈ Numeral.pattern ∧ ∃ k e,
      toDecimal (.float x) = .ok (some (.finite x.negative k e)) ∧
      x.IsNearest (Decimal.number x.negative k e) ∧
      ofScaled x.negative k e = x ∧
      (x.magnitude ≠ 0 → ∀ negative l f, l ≠ 0 → x.IsNearest (Decimal.number negative l f) →
        Decimal.significantDigits k ≤ Decimal.significantDigits l) ∧
      ∀ (y : Binary64) (l : Nat) (f : ℤ),
        toDecimal (.float y) = .ok (some (.finite x.negative l f)) →
        Decimal.number x.negative l f = Decimal.number x.negative k e → y = x) ∧
    (x.isFinite = false → toDecimal (.float x) = .error (reject (.float x) .notANumber)) := by
  refine ⟨?_, toDecimal_float_of_not_finite⟩
  intro hx
  obtain ⟨n, -, hspell, -⟩ := spelling_text hx
  obtain ⟨k, e, hdecimal, hnumber⟩ := exists_decimal_of_finite hx
  have hnearest := isNearest_digits hx
  rw [← hnumber] at hnearest
  refine ⟨Numeral.mem_pattern_iff.mpr ⟨n, hspell⟩, k, e, hdecimal, hnearest, hnearest.ofScaled_eq,
    ?_, ?_⟩
  · intro hne negative l f hl h
    rw [Decimal.significantDigits_eq (withSign_inj hnumber)]
    exact significantDigits_digits_le hx hne hl h
  · intro y l f hy hsame
    have hyfinite : y.isFinite = true := by
      by_contra hy'
      rw [toDecimal_float_of_not_finite (Bool.eq_false_of_not_eq_true hy')] at hy
      cases hy
    obtain ⟨l', f', hdecimal', hnumber'⟩ := exists_decimal_of_finite hyfinite
    have hynearest := isNearest_digits hyfinite
    rw [← hnumber'] at hynearest
    rw [hdecimal'] at hy
    obtain ⟨hsign, rfl, rfl⟩ := Decimal.finite.inj (Option.some.inj (Except.ok.inj hy))
    exact eq_of_number_eq hnearest hynearest hsign hsame

/-- The least positive float is taken as a decimal with a single digit. -/
theorem toDecimal_float_least :
    let x : Binary64 := ⟨false, 1, by decide⟩
    (∃ k e, toDecimal (.float x) = .ok (some (.finite false k e)) ∧ ofScaled false k e = x ∧
      Decimal.significantDigits k ≤ 1) ∧
    toDecimal (.float (infinity true)) = .error (reject (.float (infinity true)) .notANumber) := by
  intro x
  obtain ⟨-, k, e, hdecimal, -, hread, hfewest, -⟩ := (toDecimal_float x).1 rfl
  have hfive : ofScaled false 5 (-324) = x := by decide +kernel
  have hnearest := isNearest_ofScaled false 5 (-324)
  rw [hfive] at hnearest
  have hdigits := hfewest (by decide) false 5 (-324) (by decide) hnearest
  rw [Decimal.significantDigits.eq_1 5, dif_neg (by decide)] at hdigits
  exact ⟨⟨k, e, hdecimal, hread, hdigits⟩, (toDecimal_float (infinity true)).2 rfl⟩

end EventValue

end Telemetry
