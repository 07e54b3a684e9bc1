import Telemetry.Proofs.Binary64.Rounding
import Telemetry.Proofs.Binary64.Shortest

/-!
# Sums of whole numbers

A sum of floats is rounded once, so it is exact wherever the exact sum is a float, as all whole
numbers up to `2 ^ 53` are (`exists_size_eq`). Numbers that are added one after another need not be
that small together: the float may then miss them, but it never gets smaller, and from
`Binary64.sumLimit` on adjacent floats are so far apart that an event value does not get it over the
limit (`IsSum.add`).
-/

namespace Telemetry

namespace Binary64

/-! ## Whole numbers -/

theorem nearestMagnitude_size {n : Nat} (hn : n ≤ infiniteMagnitude) :
    NearestMagnitude n (size n) := (around_size n).nearest hn

/-- What a magnitude stands for is rounded to that magnitude. -/
theorem NearestMagnitude.size_eq {n k : Nat} {v : ℚ} (h : NearestMagnitude n v)
    (hk : k ≤ infiniteMagnitude) (hv : size k = v) : size n = v := by
  obtain rfl : n = k := h.unique (hv ▸ nearestMagnitude_size hk)
  exact hv

/-- A whole number that has no more digits than a significand is shifted up to a full one. -/
theorem exists_full_significand {n : Nat} (hpos : 0 < n) (hn : n ≤ 2 ^ 53) :
    ∃ t ≤ 52, fractionSize ≤ n * 2 ^ t ∧ n * 2 ^ t ≤ 2 * fractionSize := by
  have hself := Nat.log2_self_le hpos.ne'
  have hnext := Nat.lt_log2_self (n := n)
  have hplaces : n.log2 ≤ 53 := (Nat.pow_le_pow_iff_right (by decide)).mp (hself.trans hn)
  refine ⟨52 - n.log2, Nat.sub_le .., ?_, ?_⟩
  · calc fractionSize = 2 ^ 52 := rfl
      _ ≤ 2 ^ (n.log2 + (52 - n.log2)) := Nat.pow_le_pow_right (by decide) (by omega)
      _ = 2 ^ n.log2 * 2 ^ (52 - n.log2) := Nat.pow_add ..
      _ ≤ n * 2 ^ (52 - n.log2) := Nat.mul_le_mul_right _ hself
  · rcases hplaces.lt_or_eq with hlt | heq
    · have hexponent : n.log2 + 1 + (52 - n.log2) = 53 := by omega
      calc n * 2 ^ (52 - n.log2) ≤ 2 ^ (n.log2 + 1) * 2 ^ (52 - n.log2) :=
            Nat.mul_le_mul_right _ hnext.le
        _ = 2 ^ (n.log2 + 1 + (52 - n.log2)) := (Nat.pow_add ..).symm
        _ = 2 * fractionSize := by rw [hexponent]; rfl
    · rw [heq]
      show n * 1 ≤ 2 * fractionSize
      rw [Nat.mul_one]
      exact hn

theorem exists_size_eq {n : Nat} (hn : n ≤ 2 ^ 53) : ∃ k < infiniteMagnitude, size k = n := by
  rcases Nat.eq_zero_or_pos n with rfl | hpos
  · exact ⟨0, by decide, by rw [size_zero, Nat.cast_zero]⟩
  · obtain ⟨t, ht, hlow, hhigh⟩ := exists_full_significand hpos hn
    obtain ⟨u, hu⟩ : ∃ u, u + t = 1074 := ⟨1074 - t, by omega⟩
    refine ⟨u * fractionSize + n * 2 ^ t, ?_, ?_⟩
    · have hexponent : u * fractionSize ≤ 1074 * fractionSize := Nat.mul_le_mul_right _ (by omega)
      have hlimit : 1074 * fractionSize + 2 * fractionSize < infiniteMagnitude := by decide
      omega
    · have hexponent : (u : ℤ) - 1074 = -(t : ℤ) := by omega
      rw [size_packed (.inr hlow) hhigh, hexponent, zpow_neg, zpow_natCast]
      push_cast
      exact mul_inv_cancel_right₀ (by positivity) _

theorem size_ofNat {n : Nat} (hn : n ≤ 2 ^ 53) : size (ofNat n).magnitude = n := by
  obtain ⟨k, hk, hsize⟩ := exists_size_eq hn
  have hnearest := nearestMagnitude_ofRatio false n Nat.one_pos
  rw [Nat.cast_one, div_one] at hnearest
  exact hnearest.size_eq hk.le hsize

theorem isFinite_ofNat {n : Nat} (hn : n ≤ 2 ^ 53) : (ofNat n).isFinite = true := by
  obtain ⟨k, hk, hsize⟩ := exists_size_eq hn
  rw [isFinite_iff, size_strictMono.injective ((size_ofNat hn).trans hsize.symm)]
  exact hk

theorem integerPart_eq (x : Binary64) : x.integerPart = ⌊size x.magnitude⌋₊ := by
  have hgrid : x.integerPart = floorOnGrid x.significand x.exponent 0 := by
    simp [integerPart, floorOnGrid, pow10]
  rw [hgrid, floorOnGrid_eq, zpow_zero, div_one, size_magnitude]

/-! ## Sums -/

section Sum

variable {x y : Binary64} (hx : x.isFinite = true) (hy : y.isFinite = true)

include hx hy

theorem addMagnitudes_of_isFinite : addMagnitudes x y =
    let low := min x.exponent y.exponent
    let sum := x.significand * pow2 (x.exponent - low).toNat
      + y.significand * pow2 (y.exponent - low).toNat
    ofRatio false (sum * pow2 low.toNat) (pow2 (-low).toNat) := by
  have hnumber : x.isNaN = false := isNaN_eq_false_iff.mpr (isFinite_iff.mp hx).le
  simp [addMagnitudes, hnumber, hx, hy]

/-- Of two finite floats the sum is rounded to the nearest one. -/
theorem nearestMagnitude_addMagnitudes :
    NearestMagnitude (addMagnitudes x y).magnitude (size x.magnitude + size y.magnitude) := by
  rw [addMagnitudes_of_isFinite hx hy]
  dsimp only
  generalize hlow : min x.exponent y.exponent = low
  have hshift {m : Nat} {e : ℤ} (he : low ≤ e) :
      ((m * pow2 (e - low).toNat : Nat) : ℚ) * 2 ^ low = m * 2 ^ e := by
    show ((m * 2 ^ (e - low).toNat : Nat) : ℚ) * 2 ^ low = _
    push_cast
    rw [← zpow_natCast, Int.toNat_of_nonneg (by omega), mul_assoc, ← zpow_add₀ (by norm_num),
      sub_add_cancel]
  have hratio (n : Nat) :
      ((n * pow2 low.toNat : Nat) : ℚ) / (pow2 (-low).toNat : Nat) = n * 2 ^ low :=
    scaled_div_eq (by decide) n low
  rw [size_magnitude, size_magnitude, ← hshift (by omega : low ≤ x.exponent),
    ← hshift (by omega : low ≤ y.exponent), ← add_mul, ← Nat.cast_add, ← hratio]
  exact nearestMagnitude_ofRatio false _ (Nat.two_pow_pos _)

theorem negative_addMagnitudes : (addMagnitudes x y).negative = false := by
  rw [addMagnitudes_of_isFinite hx hy]
  obtain ⟨m, hm, heq⟩ := exists_magnitude_ofRatio false _ _
  rw [heq]

end Sum

/-- A number below the midpoint behind a magnitude is not rounded to a larger one. -/
theorem NearestMagnitude.le_of_lt_midpoint {n k : Nat} {v : ℚ} (h : NearestMagnitude n v)
    (hv : v < midpoint k) : n ≤ k := by
  by_contra hlt
  obtain ⟨m, rfl⟩ := Nat.exists_eq_add_one_of_ne_zero (Nat.ne_zero_of_lt (Nat.not_le.mp hlt))
  have hmono : midpoint k ≤ midpoint m := midpoint_strictMono.monotone (by omega)
  rcases h.around.low m rfl with hlow | ⟨hlow, -⟩ <;> linarith

/-- The magnitude of `2 ^ 104`, behind which the next float is further away than any event value. -/
def sumLimit : Nat := 1126 * fractionSize + fractionSize

theorem midpoint_sumLimit : midpoint sumLimit = size sumLimit + 2 ^ 51 := by
  have hgap : gap sumLimit = 2 ^ (52 : ℤ) := gap_of_le 1126 (le_refl _) (by decide)
  rw [midpoint, hgap]
  norm_num

/-- The float is a sum that small whole numbers can be added to. -/
structure IsSum (x : Binary64) : Prop where
  negative_eq : x.negative = false
  magnitude_le : x.magnitude ≤ sumLimit

namespace IsSum

variable {x : Binary64} (h : x.IsSum)

include h

theorem isFinite : x.isFinite = true :=
  isFinite_iff.mpr (h.magnitude_le.trans_lt (by decide))

theorem toRat_eq_size : x.toRat = size x.magnitude := by
  rw [toRat_eq, h.negative_eq]
  rfl

variable {n : Nat} (hn : n < 2 ^ 51)

include hn

theorem nearestMagnitude_add :
    NearestMagnitude (addMagnitudes x (ofNat n)).magnitude (size x.magnitude + n) := by
  have hsmall : n ≤ 2 ^ 53 := hn.le.trans (by decide)
  have hnearest := nearestMagnitude_addMagnitudes h.isFinite (isFinite_ofNat hsmall)
  rwa [size_ofNat hsmall] at hnearest

theorem add : (addMagnitudes x (ofNat n)).IsSum where
  negative_eq := negative_addMagnitudes h.isFinite (isFinite_ofNat (hn.le.trans (by decide)))
  magnitude_le := by
    refine (h.nearestMagnitude_add hn).le_of_lt_midpoint ?_
    have hsize : size x.magnitude ≤ size sumLimit := size_strictMono.monotone h.magnitude_le
    have hpart : (n : ℚ) < 2 ^ 51 := by exact_mod_cast hn
    rw [midpoint_sumLimit]
    linarith

theorem magnitude_le_add : x.magnitude ≤ (addMagnitudes x (ofNat n)).magnitude :=
  (h.nearestMagnitude_add hn).ge_of_size_le (isFinite_iff.mp h.isFinite).le
    (le_add_of_nonneg_right n.cast_nonneg)

/-- Up to `2 ^ 53` nothing is lost. -/
theorem size_add {total : Nat} (hx : size x.magnitude = total) (htotal : total + n ≤ 2 ^ 53) :
    size (addMagnitudes x (ofNat n)).magnitude = (total + n : Nat) := by
  obtain ⟨k, hk, hsize⟩ := exists_size_eq htotal
  have hnearest := h.nearestMagnitude_add hn
  rw [hx, ← Nat.cast_add] at hnearest
  exact hnearest.size_eq hk.le hsize

end IsSum

/-! ## One after another -/

/-- Adds whole numbers to a sum, one after another. -/
def addAll (x : Binary64) (sizes : List Nat) : Binary64 :=
  sizes.foldl (fun x n => addMagnitudes x (ofNat n)) x

namespace IsSum

variable {x : Binary64} {sizes : List Nat}

theorem addAll (h : x.IsSum) (hsizes : ∀ n ∈ sizes, n < 2 ^ 51) : (x.addAll sizes).IsSum := by
  induction sizes generalizing x with
  | nil => exact h
  | cons n rest ih =>
    obtain ⟨hn, hrest⟩ := List.forall_mem_cons.mp hsizes
    exact ih (h.add hn) hrest

theorem magnitude_le_addAll (h : x.IsSum) (hsizes : ∀ n ∈ sizes, n < 2 ^ 51) :
    x.magnitude ≤ (x.addAll sizes).magnitude := by
  induction sizes generalizing x with
  | nil => exact le_refl _
  | cons n rest ih =>
    obtain ⟨hn, hrest⟩ := List.forall_mem_cons.mp hsizes
    exact (h.magnitude_le_add hn).trans (ih (h.add hn) hrest)

/-- As no number is negative, the total bounds every sum on the way to it. -/
theorem size_addAll (h : x.IsSum) (hsizes : ∀ n ∈ sizes, n < 2 ^ 51) {total : Nat}
    (hx : size x.magnitude = total) (htotal : total + sizes.sum ≤ 2 ^ 53) :
    size (x.addAll sizes).magnitude = (total + sizes.sum : Nat) := by
  induction sizes generalizing x total with
  | nil => exact hx
  | cons n rest ih =>
    obtain ⟨hn, hrest⟩ := List.forall_mem_cons.mp hsizes
    rw [List.sum_cons, ← Nat.add_assoc] at htotal ⊢
    have hnext := h.size_add hn hx ((Nat.le_add_right _ _).trans htotal)
    exact ih (h.add hn) hrest hnext htotal

end IsSum

end Binary64

end Telemetry
