import Telemetry.Proofs.Decimal.Value

/-!
# Significant digits

A number has many coefficients, which differ in the zeros at their end. Those are not significant:
numbers that are equal have equally many significant digits, however they are written
(`Decimal.significantDigits_eq`), and every number can be written with these digits alone
(`Decimal.exists_significant`).
-/

namespace Telemetry

namespace Decimal

/-- The number of digits of a coefficient, the zeros at its end not counted. -/
def significantDigits (k : Nat) : Nat :=
  if h : k % 10 = 0 ∧ k ≠ 0 then significantDigits (k / 10) else digitCount k
termination_by k
decreasing_by omega

theorem significantDigits_mul_ten (k : Nat) : significantDigits (k * 10) = significantDigits k := by
  rcases Nat.eq_zero_or_pos k with rfl | hk
  · rfl
  · rw [significantDigits, dif_pos ⟨Nat.mul_mod_left k 10, by omega⟩,
      Nat.mul_div_cancel k (by decide)]

theorem significantDigits_mul_pow (k n : Nat) :
    significantDigits (k * 10 ^ n) = significantDigits k := by
  induction n with
  | zero => rw [pow_zero, mul_one]
  | succ n ih => rw [pow_succ, ← mul_assoc, significantDigits_mul_ten, ih]

/-- A coefficient is a shorter one without zeros at its end, followed by zeros. -/
theorem exists_significant (k : Nat) :
    ∃ m n, k = m * 10 ^ n ∧ significantDigits k = digitCount m := by
  fun_induction significantDigits k with
  | case1 k h ih =>
    obtain ⟨m, n, hk, hdigits⟩ := ih
    refine ⟨m, n + 1, ?_, hdigits⟩
    rw [pow_succ, ← mul_assoc, ← hk]
    omega
  | case2 k h => exact ⟨k, 0, by simp, rfl⟩

theorem significantDigits_le (k : Nat) : significantDigits k ≤ digitCount k := by
  fun_induction significantDigits k with
  | case1 k h ih =>
    refine ih.trans ?_
    rw [digitCount_le_iff (digitCount_pos k)]
    exact (Nat.div_le_self k 10).trans_lt (lt_pow_digitCount k)
  | case2 k h => exact le_refl _

/-- Significant digits are a matter of the number. -/
theorem significantDigits_eq {a b : Nat} {i j : ℤ} (h : (a : ℚ) * 10 ^ i = b * 10 ^ j) :
    significantDigits a = significantDigits b := by
  wlog hij : i ≤ j generalizing a b i j
  · exact (this h.symm (le_of_not_ge hij)).symm
  obtain ⟨n, rfl⟩ := Int.exists_add_of_le hij
  have hpow : (10 : ℚ) ^ i ≠ 0 := by positivity
  rw [zpow_add₀ (by norm_num), zpow_natCast, mul_left_comm, mul_comm, mul_right_inj' hpow] at h
  obtain rfl : a = b * 10 ^ n := by exact_mod_cast h
  exact significantDigits_mul_pow b n

end Decimal

end Telemetry
