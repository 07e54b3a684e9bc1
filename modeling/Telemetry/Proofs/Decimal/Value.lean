import Mathlib.Algebra.Order.Field.Power
import Mathlib.Algebra.Order.Floor.Semifield
import Mathlib.Data.Rat.Floor
import Mathlib.Tactic.FieldSimp
import Mathlib.Tactic.Linarith
import Mathlib.Tactic.NormNum
import Mathlib.Tactic.Positivity
import Telemetry.Decimal.Rounding
import Telemetry.Proofs.Text.Digits

/-!
# The number that a decimal denotes

`Decimal.value?` is the exact number of a finite decimal. Comparison and truncation avoid large
powers of ten by looking at the place of the leading digit first; here they are shown to be the
comparison and the truncation of that number (`Decimal.exceeds_iff`, `Decimal.truncate?_finite`).
Rounding in a context with room for one digit more than the coefficient has can only touch digits
far behind the point, so truncation does not see it (`Decimal.truncate?_rounded`).
-/

namespace Telemetry

/-- The integer next to a number on the side of zero. -/
def towardZero (q : ℚ) : ℤ := if q < 0 then ⌈q⌉ else ⌊q⌋

theorem towardZero_of_nonneg {q : ℚ} (h : 0 ≤ q) : towardZero q = ⌊q⌋ := if_neg (not_lt.mpr h)

theorem towardZero_neg (q : ℚ) : towardZero (-q) = -towardZero q := by
  unfold towardZero
  rcases lt_trichotomy q 0 with h | h | h
  · rw [if_neg (by linarith), if_pos h, Int.floor_neg]
  · simp [h]
  · rw [if_pos (by linarith), if_neg (by linarith), Int.ceil_neg]

/-- Truncation leaves no interval whose ends are integers. -/
theorem towardZero_mem {q : ℚ} {low high : ℤ} (hlow : (low : ℚ) ≤ q) (hhigh : q ≤ high) :
    low ≤ towardZero q ∧ towardZero q ≤ high := by
  unfold towardZero
  split
  · have hceil : low ≤ ⌈q⌉ := by exact_mod_cast hlow.trans (Int.le_ceil q)
    exact ⟨hceil, Int.ceil_le.mpr hhigh⟩
  · have hfloor : ⌊q⌋ ≤ high := by exact_mod_cast (Int.floor_le q).trans hhigh
    exact ⟨Int.le_floor.mpr hlow, hfloor⟩

/-- A power with an integer exponent as a quotient of two with natural ones. -/
theorem pow_toNat_eq {b : ℚ} (hb : b ≠ 0) (e : ℤ) : b ^ e.toNat = b ^ e * b ^ (-e).toNat := by
  rcases le_total 0 e with h | h
  · rw [Int.toNat_of_nonpos (by omega : -e ≤ 0), pow_zero, mul_one, ← zpow_natCast,
      Int.toNat_of_nonneg h]
  · rw [Int.toNat_of_nonpos h, pow_zero, ← zpow_natCast, Int.toNat_of_nonneg (by omega),
      ← zpow_add₀ hb, add_neg_cancel, zpow_zero]

/-- A number times a power of any exponent is a quotient of whole numbers. -/
theorem scaled_div_eq {b : ℕ} (hb : 0 < b) (n : ℕ) (e : ℤ) :
    ((n * b ^ e.toNat : ℕ) : ℚ) / (b ^ (-e).toNat : ℕ) = n * (b : ℚ) ^ e := by
  have hbq : (0 : ℚ) < b := by exact_mod_cast hb
  push_cast
  rw [pow_toNat_eq hbq.ne' e]
  field_simp

namespace Decimal

/-! ## The place of the leading digit -/

theorem magnitude_lt (k : Nat) (e : ℤ) :
    (k : ℚ) * 10 ^ e < 10 ^ (adjustedExponent k e + 1) := by
  have hk : (k : ℚ) < 10 ^ (digitCount k : ℤ) := by
    rw [zpow_natCast]
    exact_mod_cast lt_pow_digitCount k
  calc (k : ℚ) * 10 ^ e < 10 ^ (digitCount k : ℤ) * 10 ^ e := by gcongr
    _ = 10 ^ (adjustedExponent k e + 1) := by
      rw [← zpow_add₀ (by norm_num)]
      congr 1
      unfold adjustedExponent
      omega

theorem le_magnitude {k : Nat} (hk : k ≠ 0) (e : ℤ) :
    (10 : ℚ) ^ adjustedExponent k e ≤ k * 10 ^ e := by
  have hpow : (10 : ℚ) ^ ((digitCount k - 1 : Nat) : ℤ) ≤ k := by
    rw [zpow_natCast]
    exact_mod_cast pow_le_of_digitCount hk
  have hpos := digitCount_pos k
  calc (10 : ℚ) ^ adjustedExponent k e = 10 ^ ((digitCount k - 1 : Nat) : ℤ) * 10 ^ e := by
        rw [← zpow_add₀ (by norm_num)]
        congr 1
        unfold adjustedExponent
        omega
    _ ≤ k * 10 ^ e := by gcongr

/-- Comparing by the place of the leading digit first is comparing the numbers. -/
theorem exceeds_iff (k : Nat) (e : ℤ) (bound : Nat) :
    exceeds k e bound = true ↔ (bound : ℚ) < k * 10 ^ e := by
  unfold exceeds
  by_cases hk : k = 0
  · simp [hk]
  have hkq : (0 : ℚ) < k := by exact_mod_cast Nat.pos_of_ne_zero hk
  by_cases hb : bound = 0
  · simp only [hk, hb, if_false, if_true, Nat.cast_zero, true_iff]
    positivity
  have hboundHigh := magnitude_lt bound 0
  have hboundLow := le_magnitude hb 0
  have hhigh := magnitude_lt k e
  have hlow := le_magnitude hk e
  have hplace : adjustedExponent bound 0 = (digitCount bound : ℤ) - 1 := by
    simp [adjustedExponent]
  rw [zpow_zero, mul_one, hplace] at hboundHigh hboundLow
  simp only [hk, hb, if_false]
  split
  · next h =>
    have hpow : (10 : ℚ) ^ ((digitCount bound : ℤ) - 1 + 1) ≤ 10 ^ adjustedExponent k e :=
      zpow_le_zpow_right₀ (by norm_num) (by omega)
    exact iff_of_true rfl (by linarith)
  · split
    · next h =>
      have hpow : (10 : ℚ) ^ (adjustedExponent k e + 1) ≤ 10 ^ ((digitCount bound : ℤ) - 1) :=
        zpow_le_zpow_right₀ (by norm_num) (by omega)
      exact iff_of_false (by simp) (by linarith)
    · have hden : (0 : ℚ) < 10 ^ (-e).toNat := by positivity
      rw [decide_eq_true_eq, pow10_eq, pow10_eq, ← Nat.cast_lt (α := ℚ)]
      push_cast
      rw [pow_toNat_eq (by norm_num) e, ← mul_assoc, mul_lt_mul_iff_left₀ hden]

/-! ## Truncation -/

theorem integerPart_eq_floor (k : Nat) (e : ℤ) : integerPart k e = ⌊(k : ℚ) * 10 ^ e⌋₊ := by
  unfold integerPart
  split
  · next hk => simp [hk]
  · split
    · next he =>
      obtain ⟨n, rfl⟩ := Int.eq_ofNat_of_zero_le he
      rw [pow10_eq, Int.toNat_natCast, zpow_natCast]
      exact_mod_cast (Nat.floor_natCast (R := ℚ) (k * 10 ^ n)).symm
    · next he =>
      obtain ⟨n, hn⟩ : ∃ n : Nat, e = -(n : ℤ) := ⟨(-e).toNat, by omega⟩
      subst hn
      have hdiv : (k : ℚ) * 10 ^ (-(n : ℤ)) = (k : ℚ) / (10 ^ n : Nat) := by
        rw [zpow_neg, zpow_natCast]
        push_cast
        rfl
      rw [hdiv, Nat.floor_div_eq_div, neg_neg, Int.toNat_natCast, pow10_eq]
      split
      · next hd =>
        have hlt : k < 10 ^ n :=
          (lt_pow_digitCount k).trans_le (Nat.pow_le_pow_right (by decide) hd)
        exact (Nat.div_eq_of_lt hlt).symm
      · rfl

theorem integerPart_eq_zero {k : Nat} {e : ℤ} (h : adjustedExponent k e < 0) :
    integerPart k e = 0 := by
  have hone : (10 : ℚ) ^ (adjustedExponent k e + 1) ≤ 1 := zpow_le_one_of_nonpos₀ (by norm_num) h
  rw [integerPart_eq_floor, Nat.floor_eq_zero]
  exact (magnitude_lt k e).trans_le hone

/-- The number `± coefficient · 10 ^ exponent`. -/
def number (negative : Bool) (coefficient : Nat) (exponent : ℤ) : ℚ :=
  if negative then -(coefficient * 10 ^ exponent) else coefficient * 10 ^ exponent

/-- The number that a decimal denotes; a special value denotes none. -/
def value? : Decimal → Option ℚ
  | finite negative coefficient exponent => some (number negative coefficient exponent)
  | _ => none

theorem towardZero_number (negative : Bool) (k : Nat) (e : ℤ) :
    towardZero (number negative k e) = signed negative (integerPart k e) := by
  have hfloor : towardZero ((k : ℚ) * 10 ^ e) = (integerPart k e : ℤ) := by
    rw [towardZero_of_nonneg (by positivity), integerPart_eq_floor,
      Int.natCast_floor_eq_floor (by positivity)]
  cases negative
  · simp [number, signed, hfloor]
  · simp [number, signed, towardZero_neg, hfloor]

theorem truncate?_finite (negative : Bool) (k : Nat) (e : ℤ) :
    (finite negative k e).truncate? = some (towardZero (number negative k e)) := by
  rw [towardZero_number, truncate?]

theorem number_mul_pow (negative : Bool) (k : Nat) (e : ℤ) (n : Nat) :
    number negative k e * 10 ^ n = number negative k (e + n) := by
  unfold number
  rw [zpow_add₀ (by norm_num), zpow_natCast]
  split <;> ring

/-! ## Rounding -/

theorem cut_le (r : Rounding) (negative : Bool) (k places : Nat) :
    r.cut negative k places ≤ k + 1 := by
  have hdiv : k / pow10 places ≤ k := Nat.div_le_self ..
  unfold Rounding.cut
  dsimp only
  split_ifs <;> omega

/--
Truncation does not see the rounding of a context that has room for one digit more than the
coefficient: only numbers below the least exponent are changed, and they stay far below one.
-/
theorem truncate?_rounded {c : DecimalContext} {k : Nat} (h : digitCount k < c.precision)
    (negative : Bool) (e : ℤ) :
    (rounded c negative k e).truncate? = (finite negative k e).truncate? := by
  unfold rounded
  by_cases hk : k = 0
  · simp [hk, truncate?, integerPart]
  simp only [hk, if_false]
  split
  · rfl
  next hsurplus =>
  have hmin : c.minExponent = -999999 - ((c.precision : ℤ) - 1) := rfl
  have hbelow : e < c.minExponent := by omega
  have hmax : max ((digitCount k : ℤ) - c.precision) (c.minExponent - e) = c.minExponent - e := by
    omega
  simp only [hmax]
  -- Rounding up may add a digit, and the context has room for it.
  have hkept : digitCount (c.rounding.cut negative k (c.minExponent - e).toNat) ≤ c.precision := by
    rw [digitCount_le_iff (by omega)]
    calc c.rounding.cut negative k (c.minExponent - e).toNat ≤ k + 1 := cut_le ..
      _ ≤ 10 ^ digitCount k := lt_pow_digitCount k
      _ < 10 ^ c.precision := Nat.pow_lt_pow_right (by decide) h
  rw [if_neg (by omega)]
  simp only [truncate?]
  rw [integerPart_eq_zero, integerPart_eq_zero]
  · unfold adjustedExponent
    omega
  · unfold adjustedExponent
    omega

end Decimal

end Telemetry
