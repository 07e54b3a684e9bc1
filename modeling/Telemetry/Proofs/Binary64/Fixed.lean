import Telemetry.Proofs.Binary64.Layout
import Telemetry.Proofs.Binary64.Rounding

/-!
# Floats with a fixed number of places

A float with a fixed number of places is rounded once, from its exact value. `IsNearestMultiple`
says which multiple of a unit that gives, of all multiples at once: none is nearer, and if another
is as near the factor is even. So the error is half a unit at most (`IsNearestMultiple.abs_sub_le`),
and rounding keeps the order of numbers, also where one of them lies just between two multiples
(`IsNearestMultiple.mono`). The text of the float is a numeral with that many places
(`Binary64.exists_numeral_fixed`), and the number of this numeral is such a multiple
(`Binary64.isNearestMultiple_inUnits`).
-/

namespace Telemetry

/-! ## Nearest multiples -/

/-- No multiple of the unit is nearer, and one that is as near as another has an even factor. -/
structure IsNearestMultiple (unit : ℚ) (k : ℤ) (q : ℚ) : Prop where
  dist_le : ∀ j : ℤ, |q - k * unit| ≤ |q - j * unit|
  even : ∀ j : ℤ, j ≠ k → |q - k * unit| = |q - j * unit| → Even k

namespace IsNearestMultiple

open Binary64

variable {unit : ℚ} (hunit : 0 < unit) {k : ℤ} {q : ℚ}

include hunit

/-- Multiples are in the order of their factors. -/
theorem lt_iff {j : ℤ} : j * unit < k * unit ↔ j < k := by
  rw [mul_lt_mul_iff_left₀ hunit, Int.cast_lt]

/-- What lies within half a unit of a multiple, at an end only if the factor is even. -/
theorem of_half (hlow : (k - 1 / 2) * unit < q ∨ (k - 1 / 2) * unit = q ∧ Even k)
    (hhigh : q < (k + 1 / 2) * unit ∨ q = (k + 1 / 2) * unit ∧ Even k) :
    IsNearestMultiple unit k q := by
  -- The midpoint between the multiple and a smaller one is half a unit below it or further.
  have hsmaller {j : ℤ} (hj : j < k) : (j * unit + k * unit) / 2 ≤ (k - 1 / 2) * unit := by
    have hstep : (j : ℚ) + 1 ≤ k := by exact_mod_cast hj
    have := mul_le_mul_of_nonneg_right hstep hunit.le
    linarith
  have hlarger {j : ℤ} (hj : k < j) : (k + 1 / 2) * unit ≤ (k * unit + j * unit) / 2 := by
    have hstep : (k : ℚ) + 1 ≤ j := by exact_mod_cast hj
    have := mul_le_mul_of_nonneg_right hstep hunit.le
    linarith
  constructor
  · intro j
    rcases lt_trichotomy j k with hj | rfl | hj
    · rw [abs_sub_larger_le_iff ((lt_iff hunit).mpr hj)]
      rcases hlow with hlow | ⟨hlow, -⟩ <;> linarith [hsmaller hj]
    · exact le_refl _
    · rw [abs_sub_smaller_le_iff ((lt_iff hunit).mpr hj)]
      rcases hhigh with hhigh | ⟨hhigh, -⟩ <;> linarith [hlarger hj]
  · intro j hne hdist
    rcases lt_or_gt_of_ne hne with hj | hj
    · rw [eq_comm, abs_sub_eq_iff ((lt_iff hunit).mpr hj)] at hdist
      rcases hlow with hlow | ⟨-, heven⟩
      · linarith [hsmaller hj]
      · exact heven
    · rw [abs_sub_eq_iff ((lt_iff hunit).mpr hj)] at hdist
      rcases hhigh with hhigh | ⟨-, heven⟩
      · linarith [hlarger hj]
      · exact heven

variable (h : IsNearestMultiple unit k q)

include h

theorem abs_sub_le : |q - k * unit| ≤ unit / 2 := by
  have hbelow := h.dist_le (k - 1)
  have habove := h.dist_le (k + 1)
  rw [abs_sub_larger_le_iff ((lt_iff hunit).mpr (by omega))] at hbelow
  rw [abs_sub_smaller_le_iff ((lt_iff hunit).mpr (by omega))] at habove
  push_cast at hbelow habove
  rw [abs_le]
  constructor <;> linarith

/-- A larger number has no smaller nearest multiple. -/
theorem mono {l : ℤ} {r : ℚ} (hl : IsNearestMultiple unit l r) (hqr : q ≤ r) : k ≤ l := by
  by_contra hlt
  rw [not_le] at hlt
  have hmul := (lt_iff hunit).mpr hlt
  have hq := (abs_sub_larger_le_iff hmul).mp (h.dist_le l)
  have hr := (abs_sub_smaller_le_iff hmul).mp (hl.dist_le k)
  -- Both numbers are the midpoint of the two multiples, so both factors are even.
  obtain rfl : q = r := by linarith
  have hmid : |q - l * unit| = |q - k * unit| := (abs_sub_eq_iff hmul).mpr (by linarith)
  have hkeven := h.even l hlt.ne hmid.symm
  have hleven := hl.even k hlt.ne' hmid
  -- Then there is a multiple between them, and it is nearer than both.
  have hbetween : l + 1 < k := by
    obtain ⟨a, rfl⟩ := hkeven
    obtain ⟨b, rfl⟩ := hleven
    omega
  have hnext := (abs_sub_larger_le_iff ((lt_iff hunit).mpr hbetween)).mp (h.dist_le (l + 1))
  push_cast at hnext
  linarith

end IsNearestMultiple

theorem IsNearestMultiple.neg {unit : ℚ} {k : ℤ} {q : ℚ} (h : IsNearestMultiple unit k q) :
    IsNearestMultiple unit (-k) (-q) := by
  have habs (j : ℤ) : |-q - (j : ℤ) * unit| = |q - (-j : ℤ) * unit| := by
    rw [← abs_neg]
    congr 1
    push_cast
    ring
  constructor
  · intro j
    rw [habs, habs, neg_neg]
    exact h.dist_le (-j)
  · intro j hne hdist
    rw [habs, habs, neg_neg] at hdist
    exact (h.even (-j) (by omega) hdist).neg

namespace Numeral

/-! ## Numerals with places -/

/-- The numeral with a fixed number of places, and no zero in front that is not needed. -/
structure HasPlaces (n : Numeral) (places : Nat) : Prop where
  whole_ne_nil : n.whole ≠ []
  isDigits_whole : Text.IsDigits n.whole
  head_whole : n.whole.head? = some (CodePoint.ofChar '0') → n.whole.length = 1
  isDigits_fraction : Text.IsDigits n.fraction
  length_fraction : n.fraction.length = places
  power_eq : n.power = 0

/-- The text of a numeral without a power: a minus sign or nothing, and its digits at a point. -/
def pointText (n : Numeral) : Text :=
  let sign : Text := if n.negative then "-" else []
  sign ++ n.whole ++ "." ++ n.fraction

variable {n : Numeral} {places : Nat}

theorem HasPlaces.spelling (h : n.HasPlaces places) : Spelling n n.pointText := by
  let sign : Text := if n.negative then "-" else []
  have hsign : SignSpelling n.negative sign := by
    unfold sign
    cases n.negative
    · exact .unsigned
    · exact .minus
  have hpower : PowerSpelling n.power [] := by
    rw [h.power_eq]
    exact .absent
  have hspell := Spelling.mk hsign (.pointed (.inl h.whole_ne_nil)) h.isDigits_whole
    h.isDigits_fraction hpower
  have htext : n.pointText = sign ++ (n.whole ++ CodePoint.ofChar '.' :: n.fraction) := by
    unfold pointText
    rw [List.append_assoc, List.append_assoc]
    rfl
  rwa [htext, ← List.append_nil (n.whole ++ _)]

/-- Counted in units of the last place, the number of such a numeral is that of its digits. -/
theorem HasPlaces.value_eq (h : n.HasPlaces places) :
    n.value = Decimal.signed n.negative n.coefficient * 10 ^ (-places : ℤ) := by
  unfold value Decimal.number Decimal.signed exponent
  rw [h.power_eq, h.length_fraction, zero_sub]
  split
  · push_cast
    ring
  · push_cast
    ring

end Numeral

namespace Binary64

/-! ## The text of a float -/

/-- A finite float with a fixed number of places is a numeral that counts the units of the last. -/
theorem exists_numeral_fixed {x : Binary64} (hx : x.isFinite = true) {places : Nat}
    (hplaces : 0 < places) :
    ∃ n : Numeral, x.fixed places = n.pointText ∧ n.negative = x.negative ∧
      n.HasPlaces places ∧ n.coefficient = x.inUnits places := by
  let units := x.inUnits places
  let fraction := (Text.ofNat (units % 10 ^ places)).padZeros places
  have hlength : fraction.length = places := by
    have hlt : units % 10 ^ places < 10 ^ places := Nat.mod_lt _ (Nat.pow_pos (by decide))
    have hcount := (digitCount_le_iff hplaces).mpr hlt
    rw [length_padZeros, Text.length_ofNat]
    exact max_eq_left hcount
  let n : Numeral := ⟨x.negative, Text.ofNat (units / 10 ^ places), fraction, 0⟩
  refine ⟨n, ?_, rfl, ⟨Text.ofNat_ne_nil _, Text.isDigits_ofNat _, Text.length_ofNat_of_head,
    isDigits_padZeros _ (Text.isDigits_ofNat _), hlength, rfl⟩, ?_⟩
  · unfold fixed
    rw [if_pos hx]
    rfl
  · show Text.digitsValue (Text.ofNat (units / 10 ^ places) ++ fraction) = units
    rw [Text.digitsValue_append, hlength, Text.digitsValue_ofNat, Text.digitsValue_padZeros,
      Text.digitsValue_ofNat, Nat.mul_comm]
    exact Nat.div_add_mod units (10 ^ places)

/-! ## The number of units -/

/-- The units of a place are counted in the exact value, and rounded once. -/
theorem isNearestMultiple_inUnits_size (x : Binary64) (places : Nat) :
    IsNearestMultiple (10 ^ (-places : ℤ)) (x.inUnits places) (size x.magnitude) := by
  have hunit : (0 : ℚ) < 10 ^ (-places : ℤ) := by positivity
  have hden : 0 < pow2 (-x.exponent).toNat := Nat.two_pow_pos _
  let numerator := x.significand * pow2 x.exponent.toNat * pow10 places
  have hratio : (numerator : ℚ) / (pow2 (-x.exponent).toNat : Nat) * 10 ^ (-places : ℤ) =
      size x.magnitude := by
    have hsize : ((x.significand * pow2 x.exponent.toNat : Nat) : ℚ) /
        (pow2 (-x.exponent).toNat : Nat) = size x.magnitude := scaled_div_eq (by decide) _ _
    have hten : (10 : ℚ) ^ places * 10 ^ (-places : ℤ) = 1 := by
      rw [zpow_neg, zpow_natCast, mul_inv_cancel₀ (by positivity)]
    have hpow : ((pow10 places : Nat) : ℚ) = 10 ^ places := by
      rw [pow10_eq]
      push_cast
      rfl
    calc (numerator : ℚ) / (pow2 (-x.exponent).toNat : Nat) * 10 ^ (-places : ℤ)
        = ((x.significand * pow2 x.exponent.toNat : Nat) : ℚ) /
            (pow2 (-x.exponent).toNat : Nat) * (10 ^ places * 10 ^ (-places : ℤ)) := by
          rw [← hpow, Nat.cast_mul]
          ring
      _ = size x.magnitude := by rw [hten, mul_one, hsize]
  obtain ⟨hlow, hhigh⟩ := roundDiv_spec numerator hden
  rw [← mul_lt_mul_iff_left₀ hunit, ← mul_left_inj' hunit.ne', hratio] at hlow hhigh
  have heven {m : Nat} (hm : m % 2 = 0) : Even (m : ℤ) := by
    rw [Int.even_iff]
    omega
  refine .of_half hunit ?_ ?_
  · exact hlow.imp_right fun hlow => ⟨hlow.1, heven hlow.2⟩
  · exact hhigh.imp_right fun hhigh => ⟨hhigh.1, heven hhigh.2⟩

theorem isNearestMultiple_inUnits (x : Binary64) (places : Nat) :
    IsNearestMultiple (10 ^ (-places : ℤ)) (Decimal.signed x.negative (x.inUnits places))
      x.toRat := by
  have hsize := isNearestMultiple_inUnits_size x places
  unfold toRat Decimal.signed
  split
  · exact hsize.neg
  · exact hsize

end Binary64

end Telemetry
