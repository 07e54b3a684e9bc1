import Mathlib.Algebra.Order.Field.Power
import Mathlib.Data.Rat.Floor
import Mathlib.Tactic.Linarith
import Mathlib.Tactic.NormNum
import Mathlib.Tactic.Positivity
import Mathlib.Tactic.Ring
import Telemetry.Binary64.Basic

/-!
# Magnitudes and the numbers they stand for

The magnitudes of the floats are numbered in their order. `Binary64.size` is the number that a
magnitude stands for, and from one magnitude to the next it grows by `Binary64.gap`, also where the
exponent changes (`size_succ`). So it is strictly increasing (`size_strictMono`), and what holds of
neighbours carries over to all floats. The magnitude of the infinities stands for `2 ^ 1024`, the
number that would come next: a number from halfway on to it is rounded to an infinity.
-/

namespace Telemetry

namespace Binary64

/-- From a magnitude to the next one. -/
def gap (n : Nat) : ℚ := 2 ^ ((max (n / fractionSize) 1 : Nat) - 1075 : ℤ)

/-- The number that a magnitude stands for. -/
def size (n : Nat) : ℚ :=
  (if n / fractionSize = 0 then n % fractionSize else fractionSize + n % fractionSize : Nat) * gap n

/-- The number that a float stands for, an infinity being the power of two beyond the others. -/
def toRat (x : Binary64) : ℚ := if x.negative then -size x.magnitude else size x.magnitude

theorem gap_pos (n : Nat) : 0 < gap n := by
  unfold gap
  positivity

theorem gap_mono : Monotone gap := by
  intro m n h
  have hdiv : m / fractionSize ≤ n / fractionSize := Nat.div_le_div_right h
  exact zpow_le_zpow_right₀ (by norm_num) (by omega)

theorem gap_magnitude (x : Binary64) : gap x.magnitude = 2 ^ x.exponent := rfl

theorem size_magnitude (x : Binary64) : size x.magnitude = x.significand * 2 ^ x.exponent := rfl

/-- The fields of a magnitude that was put together of an exponent and a full significand. -/
theorem fields_of_le (e : Nat) {s : Nat} (hlow : fractionSize ≤ s) (hhigh : s < 2 * fractionSize) :
    (e * fractionSize + s) / fractionSize = e + 1 ∧
      fractionSize + (e * fractionSize + s) % fractionSize = s := by
  obtain ⟨f, rfl⟩ := Nat.exists_eq_add_of_le hlow
  have hf : f < fractionSize := by omega
  have hsplit : e * fractionSize + (fractionSize + f) = fractionSize * (e + 1) + f := by ring
  rw [hsplit]
  refine ⟨?_, ?_⟩
  · rw [Nat.mul_add_div (by decide), Nat.div_eq_of_lt hf, Nat.add_zero]
  · rw [Nat.mul_add_mod, Nat.mod_eq_of_lt hf]

theorem gap_of_le (e : Nat) {s : Nat} (hlow : fractionSize ≤ s) (hhigh : s < 2 * fractionSize) :
    gap (e * fractionSize + s) = 2 ^ ((e : ℤ) - 1074) := by
  have hexponent : (((max (e + 1) 1 : Nat) : ℤ) - 1075) = (e : ℤ) - 1074 := by omega
  unfold gap
  rw [(fields_of_le e hlow hhigh).1, hexponent]

theorem size_of_le (e : Nat) {s : Nat} (hlow : fractionSize ≤ s) (hhigh : s < 2 * fractionSize) :
    size (e * fractionSize + s) = s * 2 ^ ((e : ℤ) - 1074) := by
  obtain ⟨hdiv, hmod⟩ := fields_of_le e hlow hhigh
  unfold size
  rw [if_neg (by omega), hmod, gap_of_le e hlow hhigh]

/-- The first magnitude of an exponent stands for a power of two. -/
theorem size_binade (e : Nat) : size (e * fractionSize + fractionSize) = 2 ^ ((e : ℤ) - 1022) := by
  have hfraction : (fractionSize : ℚ) = 2 ^ (52 : ℤ) := by norm_num [fractionSize]
  rw [size_of_le e (le_refl _) (by decide), hfraction, ← zpow_add₀ (by norm_num)]
  congr 1
  omega

theorem gap_of_lt {s : Nat} (h : s < 2 * fractionSize) : gap s = 2 ^ (-1074 : ℤ) := by
  have hdiv : s / fractionSize < 2 := Nat.div_lt_of_lt_mul (by omega)
  have hexponent : (((max (s / fractionSize) 1 : Nat) : ℤ) - 1075) = -1074 := by omega
  unfold gap
  rw [hexponent]

/-- A fraction alone is a significand with the least exponent. -/
theorem size_of_lt {s : Nat} (h : s < fractionSize) : size s = s * gap s := by
  unfold size
  rw [if_pos (Nat.div_eq_of_lt h), Nat.mod_eq_of_lt h]

/-- A magnitude is a fraction alone, or an exponent with a full significand. -/
theorem magnitude_cases (n : Nat) :
    n < fractionSize ∨
      ∃ e s, fractionSize ≤ s ∧ s < 2 * fractionSize ∧ n = e * fractionSize + s := by
  rcases Nat.lt_or_ge n fractionSize with h | h
  · exact .inl h
  · have hpos : 0 < fractionSize := by decide
    have hone : 1 ≤ n / fractionSize := Nat.div_pos h hpos
    have hmod := Nat.mod_lt n hpos
    refine .inr ⟨n / fractionSize - 1, fractionSize + n % fractionSize, by omega, by omega, ?_⟩
    obtain ⟨e, he⟩ := Nat.exists_eq_add_of_le' hone
    have hn := Nat.div_add_mod n fractionSize
    rw [he, Nat.mul_add, Nat.mul_one, Nat.mul_comm] at hn
    rw [he, Nat.add_sub_cancel]
    omega

/-- Beyond the last significand of an exponent comes the first one of the next. -/
theorem size_carry (e : Nat) :
    size (e * fractionSize + 2 * fractionSize) =
      (2 * fractionSize : Nat) * 2 ^ ((e : ℤ) - 1074) := by
  have hnext : e * fractionSize + 2 * fractionSize = (e + 1) * fractionSize + fractionSize := by
    ring
  have hpow : (2 : ℚ) ^ (((e + 1 : Nat) : ℤ) - 1074) = 2 * 2 ^ ((e : ℤ) - 1074) := by
    rw [← zpow_one_add₀ (by norm_num)]
    congr 1
    push_cast
    ring
  rw [hnext, size_of_le (e + 1) (le_refl _) (by decide), hpow]
  push_cast
  ring

theorem size_succ (n : Nat) : size (n + 1) = size n + gap n := by
  rcases magnitude_cases n with h | ⟨e, s, hlow, hhigh, rfl⟩
  · have hgap : gap (n + 1) = gap n := (gap_of_lt (by omega)).trans (gap_of_lt (by omega)).symm
    have hnext : size (n + 1) = (n + 1 : Nat) * gap (n + 1) := by
      rcases Nat.lt_or_ge (n + 1) fractionSize with hn | hn
      · exact size_of_lt hn
      · have hfirst := size_of_le 0 hn (by omega)
        rwa [← gap_of_le 0 hn (by omega), Nat.zero_mul, Nat.zero_add] at hfirst
    rw [hnext, hgap, size_of_lt h]
    push_cast
    ring
  · rw [size_of_le e hlow hhigh, gap_of_le e hlow hhigh, Nat.add_assoc]
    rcases Nat.lt_or_ge (s + 1) (2 * fractionSize) with hs | hs
    · rw [size_of_le e (by omega) hs]
      push_cast
      ring
    · obtain rfl : s = 2 * fractionSize - 1 := by omega
      rw [Nat.sub_add_cancel (by decide), size_carry, Nat.cast_sub (by decide)]
      push_cast
      ring

theorem size_zero : size 0 = 0 := by
  rw [size_of_lt (by decide), Nat.cast_zero, zero_mul]

theorem size_strictMono : StrictMono size :=
  strictMono_nat_of_lt_succ fun n => by
    rw [size_succ]
    linarith [gap_pos n]

theorem size_nonneg (n : Nat) : 0 ≤ size n := by
  rw [← size_zero]
  exact size_strictMono.monotone (Nat.zero_le n)

theorem significand_of_lt {x : Binary64} (h : x.magnitude < fractionSize) :
    x.significand = x.magnitude := by
  unfold significand exponentField fractionField
  rw [if_pos (Nat.div_eq_of_lt h), Nat.mod_eq_of_lt h]

theorem fields_of_magnitude {x : Binary64} {e s : Nat} (hlow : fractionSize ≤ s)
    (hhigh : s < 2 * fractionSize) (hx : x.magnitude = e * fractionSize + s) :
    x.significand = s ∧ x.exponent = (e : ℤ) - 1074 := by
  obtain ⟨hdiv, hmod⟩ := fields_of_le e hlow hhigh
  unfold significand exponent exponentField fractionField
  rw [hx, hdiv, if_neg (Nat.succ_ne_zero e), hmod]
  exact ⟨rfl, by omega⟩

/-- Below the first significand of an exponent the gaps are half as wide, unless it is the least. -/
theorem gap_pred (x : Binary64) :
    gap (x.magnitude - 1) =
      if x.significand = fractionSize ∧ -1074 < x.exponent then 2 ^ (x.exponent - 1)
      else 2 ^ x.exponent := by
  rcases magnitude_cases x.magnitude with h | ⟨e, s, hlow, hhigh, hmagnitude⟩
  · rw [if_neg (by rw [significand_of_lt h]; omega), ← gap_magnitude, gap_of_lt (by omega),
      gap_of_lt (by omega)]
  · obtain ⟨hs, he⟩ := fields_of_magnitude hlow hhigh hmagnitude
    rw [hs, he, hmagnitude]
    rcases Nat.lt_or_ge fractionSize s with hlt | hge
    · have hpred : e * fractionSize + s - 1 = e * fractionSize + (s - 1) := by omega
      rw [if_neg (by omega), hpred, gap_of_le e (by omega) (by omega)]
    · obtain rfl : s = fractionSize := by omega
      cases e with
      | zero =>
        rw [if_neg (by omega), gap_of_lt (by omega)]
        rfl
      | succ e =>
        have hpred : (e + 1) * fractionSize + fractionSize - 1
            = e * fractionSize + (2 * fractionSize - 1) := by
          have hpos : 0 < fractionSize := by decide
          rw [Nat.succ_mul]
          omega
        rw [if_pos ⟨rfl, by omega⟩, hpred, gap_of_le e (by omega) (by omega)]
        congr 1
        push_cast
        ring

end Binary64

end Telemetry
