import Telemetry.Proofs.Binary64.Rounding
import Telemetry.Proofs.Binary64.Shortest
import Telemetry.Proofs.EventValue.Representation

/-!
# Six places survive a float

Up to the largest event value the floats lie closer together than millionths, so around a float
there is one millionth at most. The shortest decimal of the float that is nearest to a millionth is
this millionth, though it may have sixteen digits (`Binary64.digits_of_nearest`). So an amount that
was passed as the nearest float is stored as if it had been passed exactly
(`EventValue.normalize_nearest`).
-/

namespace Telemetry

namespace Binary64

section Millionth

variable {x : Binary64} {k : Nat} (hx : NearestMagnitude x.magnitude (k * 10 ^ (-6 : ℤ)))
  (hk : k ≠ 0) (hbound : k ≤ 2147483648000000)

include hx hk hbound

/-- The float nearest to a millionth is within the powers of two next to the range. -/
theorem magnitude_of_millionth :
    1002 * fractionSize + fractionSize ≤ x.magnitude ∧
      x.magnitude ≤ 1053 * fractionSize + fractionSize := by
  have hone : (1 : ℚ) ≤ k := by exact_mod_cast Nat.one_le_iff_ne_zero.mpr hk
  have hle : (k : ℚ) ≤ 2147483648000000 := by exact_mod_cast hbound
  refine ⟨hx.ge_of_size_le (by decide) ?_, hx.le_of_le_size (by decide) ?_⟩
  · rw [size_binade]
    calc (2 : ℚ) ^ (((1002 : Nat) : ℤ) - 1022) ≤ 1 * 10 ^ (-6 : ℤ) := by norm_num
      _ ≤ k * 10 ^ (-6 : ℤ) := by gcongr
  · rw [size_binade]
    calc (k : ℚ) * 10 ^ (-6 : ℤ) ≤ 2147483648000000 * 10 ^ (-6 : ℤ) := by gcongr
      _ ≤ 2 ^ (((1053 : Nat) : ℤ) - 1022) := by norm_num

theorem gap_lt_millionth : gap x.magnitude < 10 ^ (-6 : ℤ) := by
  have hgap := gap_mono (magnitude_of_millionth hx hk hbound).2
  rw [gap_of_le 1053 (le_refl _) (by decide)] at hgap
  refine hgap.trans_lt ?_
  norm_num

theorem millionth_mem_gridExponents : -6 ∈ gridExponents x.significand x.exponent := by
  obtain ⟨hlow, hhigh⟩ := magnitude_of_millionth hx hk hbound
  have hsizeLow := size_strictMono.monotone hlow
  have hsizeHigh := size_strictMono.monotone hhigh
  rw [size_binade, size_magnitude] at hsizeLow hsizeHigh
  have hleast : -7 ≤ decimalPlace x.significand x.exponent := by
    rw [le_decimalPlace_iff _ _ (by norm_num)]
    refine le_trans ?_ hsizeLow
    norm_num
  have hmost : ¬ 10 ≤ decimalPlace x.significand x.exponent := by
    rw [le_decimalPlace_iff _ _ (by norm_num), not_le]
    refine hsizeHigh.trans_lt ?_
    norm_num
  refine List.mem_map.mpr ⟨(decimalPlace x.significand x.exponent + 7).toNat, ?_, by omega⟩
  exact List.mem_range.mpr (by omega)

end Millionth

/-- The shortest decimal of the float nearest to a millionth is the millionth. -/
theorem digits_of_nearest {x : Binary64} {k : Nat}
    (hx : NearestMagnitude x.magnitude (k * 10 ^ (-6 : ℤ))) (hbound : k ≤ 2147483648000000) :
    x.isFinite = true ∧ (x.digits.1 : ℚ) * 10 ^ x.digits.2 = k * 10 ^ (-6 : ℤ) := by
  unfold digits
  by_cases hk : k = 0
  · rw [hk, Nat.cast_zero, zero_mul] at hx ⊢
    have hzero : x.magnitude = 0 :=
      Nat.le_zero.mp (hx.le_of_le_size (Nat.zero_le _) size_zero.ge)
    rw [if_pos hzero, isFinite_iff, hzero]
    exact ⟨by decide, by norm_num⟩
  · obtain ⟨hlow, hhigh⟩ := magnitude_of_millionth hx hk hbound
    have hpos : x.magnitude ≠ 0 := Nat.ne_of_gt (lt_of_lt_of_le (by decide) hlow)
    have hfinite : x.isFinite = true := isFinite_iff.mpr (lt_of_le_of_lt hhigh (by decide))
    rw [if_neg hpos]
    exact ⟨hfinite, shortest_of_around hfinite hpos hx.around
      (millionth_mem_gridExponents hx hk hbound) (gap_lt_millionth hx hk hbound)⟩

end Binary64

namespace EventValue

open Binary64

/-- An amount in stored units as the number that it stands for. -/
theorem number_stored (k : ℤ) : Decimal.number (decide (k < 0)) k.natAbs (-6) = k / 10 ^ 6 := by
  have hinteger := Option.some.inj (value?_ofInt k)
  have hscaled := Decimal.number_mul_pow (decide (k < 0)) k.natAbs (-6) 6
  rw [eq_div_iff (by norm_num), hscaled]
  exact hinteger

theorem towardZero_intCast (k : ℤ) : towardZero k = k := by
  obtain ⟨hlow, hhigh⟩ := towardZero_mem (le_refl (k : ℚ)) (le_refl (k : ℚ))
  exact le_antisymm hhigh hlow

/-- A float nearest to zero is a zero; else it has the sign of the number. -/
theorem nearestMagnitude_of_isNearest {x : Binary64} {negative : Bool} {k : Nat}
    (h : x.IsNearest (Decimal.number negative k (-6))) :
    NearestMagnitude x.magnitude (k * 10 ^ (-6 : ℤ)) ∧ (k = 0 ∨ x.negative = negative) := by
  by_cases hk : k = 0
  · have hnumber : Decimal.number negative k (-6) = 0 := by simp [Decimal.number, hk]
    have hdist := h.dist_le (zero false) rfl
    have hzero : (zero false).toRat = 0 := size_zero
    rw [hnumber, hzero, sub_zero, abs_zero, zero_sub, abs_neg] at hdist
    have hsize : size x.magnitude = 0 := by
      have habs := abs_nonpos_iff.mp hdist
      rw [toRat_eq] at habs
      unfold withSign at habs
      split at habs
      · exact neg_eq_zero.mp habs
      · exact habs
    rw [← size_zero] at hsize
    have hmagnitude : x.magnitude = 0 := size_strictMono.injective hsize
    refine ⟨?_, .inl hk⟩
    rw [hk, Nat.cast_zero, zero_mul, hmagnitude, ← size_zero]
    exact (around_size 0).nearest (Nat.zero_le _)
  · have hone : (1 : ℚ) ≤ k := by exact_mod_cast Nat.one_le_iff_ne_zero.mpr hk
    have hleast : size 1 ≤ (k : ℚ) * 10 ^ (-6 : ℤ) :=
      calc size 1 ≤ size (1002 * fractionSize + fractionSize) :=
            size_strictMono.monotone (by decide)
        _ = 2 ^ (((1002 : Nat) : ℤ) - 1022) := size_binade 1002
        _ ≤ 1 * 10 ^ (-6 : ℤ) := by norm_num
        _ ≤ k * 10 ^ (-6 : ℤ) := by gcongr
    have hsigned : x.IsNearest (withSign negative (k * 10 ^ (-6 : ℤ))) := h
    obtain ⟨hsign, hnearest⟩ := hsigned.magnitude hleast
    exact ⟨hnearest, .inr hsign⟩

/-- The text of the float nearest to a millionth spells the millionth. -/
theorem denotes_of_isNearest {x : Binary64} {negative : Bool} {k : Nat}
    (h : x.IsNearest (Decimal.number negative k (-6))) (hbound : k ≤ 2147483648000000) :
    (Datum.float x).Denotes (Decimal.number negative k (-6)) := by
  obtain ⟨hnearest, hsign⟩ := nearestMagnitude_of_isNearest h
  obtain ⟨hfinite, hdigits⟩ := digits_of_nearest hnearest hbound
  obtain ⟨n, hn, hspell, -⟩ := spelling_text hfinite
  refine ⟨hfinite, n, hspell, ?_⟩
  rw [hn.value_eq]
  unfold Decimal.number
  rw [hdigits]
  rcases hsign with rfl | rfl
  · simp
  · rfl

/--
An amount of whole millionths within the range is stored as it is, be it passed as the float nearest
to it or as the exact decimal; reading the decimal as a float gives such a nearest float.
-/
theorem normalize_nearest (c : DecimalContext) {k : ℤ} (hlow : minStored ≤ k)
    (hhigh : k ≤ maxStored) :
    (ofScaled (decide (k < 0)) k.natAbs (-6)).IsNearest (k / 10 ^ 6) ∧
      normalize c (.decimal (.finite (decide (k < 0)) k.natAbs (-6))) = .ok (some k) ∧
      ∀ x : Binary64, x.IsNearest (k / 10 ^ 6) → normalize c (.float x) = .ok (some k) := by
  have hbounds : -2147483648000000 ≤ k ∧ k ≤ 2147483647000000 := ⟨hlow, hhigh⟩
  have hrange : InRange ((k : ℚ) / 10 ^ 6) := by
    have hlowq : ((-2147483648000000 : ℤ) : ℚ) ≤ k := by exact_mod_cast hbounds.1
    have hhighq : (k : ℚ) ≤ (2147483647000000 : ℤ) := by exact_mod_cast hbounds.2
    push_cast at hlowq hhighq
    unfold InRange minWhole maxWhole
    push_cast
    exact ⟨by linarith, by linarith⟩
  have hstored {v : Datum} (hv : v.Denotes (k / 10 ^ 6)) (hconvertible : v.IsConvertible) :
      normalize c v = .ok (some k) := by
    rw [normalize_of_denotes c hv hconvertible, if_pos hrange, div_mul_cancel₀ _ (by norm_num),
      towardZero_intCast]
  refine ⟨?_, ?_, fun x hx => ?_⟩
  · rw [← number_stored]
    exact isNearest_ofScaled (decide (k < 0)) k.natAbs (-6)
  · refine hstored ?_ trivial
    rw [← number_stored]
    rfl
  · refine hstored ?_ trivial
    rw [← number_stored] at hx ⊢
    exact denotes_of_isNearest hx (by omega)

/-- The largest amount but one millionth has sixteen digits. -/
theorem normalize_nearest_sixteen_digits :
    minStored ≤ 2147483646999999 ∧ 2147483646999999 ≤ maxStored ∧
      (ofScaled false 2147483646999999 (-6)).IsNearest ((2147483646999999 : ℤ) / 10 ^ 6) ∧
      normalize .standard (.float (ofScaled false 2147483646999999 (-6))) =
        .ok (some 2147483646999999) := by
  have hlow : minStored ≤ 2147483646999999 := by decide
  have hhigh : 2147483646999999 ≤ maxStored := by decide
  obtain ⟨hnearest, -, hfloat⟩ := normalize_nearest .standard hlow hhigh
  exact ⟨hlow, hhigh, hnearest, hfloat _ hnearest⟩

end EventValue

end Telemetry
