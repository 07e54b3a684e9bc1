import Telemetry.Proofs.Binary64.Magnitude

/-!
# The float nearest to a number

`Binary64.IsNearest` is rounding to nearest with ties to even, said of all floats at once: none is
nearer, and one that is as near as another is even. As the magnitudes are in order it is enough to
look at the two midpoints next to a float (`NearestMagnitude.around`, `Around.nearest`). The float
with the sign of the number and a nearest magnitude is nearest (`NearestMagnitude.isNearest`), and
up to the sign of a zero there is no other (`IsNearest.magnitude`, `IsNearest.unique`).
-/

namespace Telemetry

namespace Binary64

/-- No float is nearer to the number, and one that is as near as another number is even. -/
structure IsNearest (x : Binary64) (q : ℚ) : Prop where
  isNaN_eq : x.isNaN = false
  dist_le : ∀ y : Binary64, y.isNaN = false → |q - x.toRat| ≤ |q - y.toRat|
  even : ∀ y : Binary64, y.isNaN = false → y.toRat ≠ x.toRat →
    |q - x.toRat| = |q - y.toRat| → x.significand % 2 = 0

/-! ## Magnitudes -/

/-- Halfway from a magnitude to the next one. -/
def midpoint (n : Nat) : ℚ := size n + gap n / 2

/-- The numbers from midpoint to midpoint around a magnitude; to an even one the ends belong. -/
structure Around (n : Nat) (v : ℚ) : Prop where
  low : ∀ k, k + 1 = n → midpoint k < v ∨ midpoint k = v ∧ n % 2 = 0
  high : n < infiniteMagnitude → v < midpoint n ∨ v = midpoint n ∧ n % 2 = 0

/-- No magnitude is nearer, and one that is as near as another is even. -/
structure NearestMagnitude (n : Nat) (v : ℚ) : Prop where
  le : n ≤ infiniteMagnitude
  dist_le : ∀ k ≤ infiniteMagnitude, |v - size n| ≤ |v - size k|
  even : ∀ k ≤ infiniteMagnitude, k ≠ n → |v - size n| = |v - size k| → n % 2 = 0

theorem midpoint_eq (n : Nat) : midpoint n = (size n + size (n + 1)) / 2 := by
  rw [size_succ, midpoint]
  ring

section Distance

variable {a b v : ℚ} (h : a < b)

include h

/-- The larger of two numbers is as near as the other one from their midpoint on. -/
theorem abs_sub_larger_le_iff : |v - b| ≤ |v - a| ↔ (a + b) / 2 ≤ v := by
  rw [← sq_le_sq]
  constructor
  · intro hsq
    nlinarith
  · intro hv
    nlinarith

theorem abs_sub_smaller_le_iff : |v - a| ≤ |v - b| ↔ v ≤ (a + b) / 2 := by
  rw [← sq_le_sq]
  constructor
  · intro hsq
    nlinarith
  · intro hv
    nlinarith

theorem abs_sub_eq_iff : |v - a| = |v - b| ↔ v = (a + b) / 2 := by
  rw [le_antisymm_iff, abs_sub_smaller_le_iff h, abs_sub_larger_le_iff h, le_antisymm_iff]

end Distance

theorem NearestMagnitude.around {n : Nat} {v : ℚ} (h : NearestMagnitude n v) : Around n v where
  low := by
    rintro k rfl
    have hlt : size k < size (k + 1) := size_strictMono (Nat.lt_succ_self k)
    have hk : k ≤ infiniteMagnitude := by have := h.le; omega
    have hle := (abs_sub_larger_le_iff hlt).mp (h.dist_le k hk)
    rw [← midpoint_eq] at hle
    rcases hle.lt_or_eq with hlow | heq
    · exact .inl hlow
    · refine .inr ⟨heq, h.even k hk (by omega) ?_⟩
      exact ((abs_sub_eq_iff hlt).mpr (by rw [← heq, midpoint_eq])).symm
  high := by
    intro hn
    have hlt : size n < size (n + 1) := size_strictMono (Nat.lt_succ_self n)
    have hle := (abs_sub_smaller_le_iff hlt).mp (h.dist_le (n + 1) hn)
    rw [← midpoint_eq] at hle
    rcases hle.lt_or_eq with hhigh | heq
    · exact .inl hhigh
    · refine .inr ⟨heq, h.even (n + 1) hn (by omega) ?_⟩
      exact (abs_sub_eq_iff hlt).mpr (by rw [heq, midpoint_eq])

/-- Between a magnitude and any smaller one lies the midpoint below it. -/
theorem Around.of_lt {n k : Nat} {v : ℚ} (h : Around n v) (hk : k < n) :
    |v - size n| ≤ |v - size k| ∧ (|v - size n| = |v - size k| → n % 2 = 0) := by
  obtain ⟨m, rfl⟩ := Nat.exists_eq_add_one_of_ne_zero (Nat.ne_zero_of_lt hk)
  have hlt : size k < size (m + 1) := size_strictMono hk
  have hmid : (size k + size (m + 1)) / 2 ≤ midpoint m := by
    have hle : size k ≤ size m := size_strictMono.monotone (by omega)
    rw [midpoint_eq]
    linarith
  rw [abs_sub_larger_le_iff hlt, eq_comm, abs_sub_eq_iff hlt]
  rcases h.low m rfl with hlow | ⟨heq, heven⟩
  · exact ⟨by linarith, fun hv => absurd hlow (by linarith)⟩
  · exact ⟨by linarith, fun _ => heven⟩

theorem Around.of_gt {n k : Nat} {v : ℚ} (h : Around n v) (hk : n < k)
    (hle : k ≤ infiniteMagnitude) :
    |v - size n| ≤ |v - size k| ∧ (|v - size n| = |v - size k| → n % 2 = 0) := by
  have hlt : size n < size k := size_strictMono hk
  have hmid : midpoint n ≤ (size n + size k) / 2 := by
    have hle : size (n + 1) ≤ size k := size_strictMono.monotone hk
    rw [midpoint_eq]
    linarith
  rw [abs_sub_smaller_le_iff hlt, abs_sub_eq_iff hlt]
  rcases h.high (by omega) with hhigh | ⟨heq, heven⟩
  · exact ⟨by linarith, fun hv => absurd hhigh (by linarith)⟩
  · exact ⟨by linarith, fun _ => heven⟩

theorem Around.nearest {n : Nat} {v : ℚ} (h : Around n v) (hn : n ≤ infiniteMagnitude) :
    NearestMagnitude n v where
  le := hn
  dist_le k hk := by
    rcases lt_trichotomy k n with hlt | rfl | hgt
    · exact (h.of_lt hlt).1
    · exact le_refl _
    · exact (h.of_gt hgt hk).1
  even k hk hne hdist := by
    rcases Nat.lt_or_gt_of_ne hne with hlt | hgt
    · exact (h.of_lt hlt).2 hdist
    · exact (h.of_gt hgt hk).2 hdist

/-- Rounding to nearest does not pass by a magnitude. -/
theorem NearestMagnitude.ge_of_size_le {n k : Nat} {v : ℚ} (h : NearestMagnitude n v)
    (hk : k ≤ infiniteMagnitude) (hv : size k ≤ v) : k ≤ n := by
  by_contra hlt
  have hsize : size n < size k := size_strictMono (Nat.not_le.mp hlt)
  have hdist := h.dist_le k hk
  rw [abs_of_nonneg (by linarith), abs_of_nonneg (by linarith)] at hdist
  linarith

theorem NearestMagnitude.le_of_le_size {n k : Nat} {v : ℚ} (h : NearestMagnitude n v)
    (hk : k ≤ infiniteMagnitude) (hv : v ≤ size k) : n ≤ k := by
  by_contra hlt
  have hsize : size k < size n := size_strictMono (Nat.not_le.mp hlt)
  have hdist := h.dist_le k hk
  rw [abs_of_nonpos (by linarith), abs_of_nonpos (by linarith)] at hdist
  linarith

theorem Around.convex {n : Nat} {u v w : ℚ} (hu : Around n u) (hw : Around n w) (huv : u ≤ v)
    (hvw : v ≤ w) : Around n v where
  low k hk := by
    rcases hu.low k hk with hlow | ⟨heq, heven⟩
    · exact .inl (by linarith)
    · rcases huv.lt_or_eq with hlt | rfl
      · exact .inl (by linarith)
      · exact .inr ⟨heq, heven⟩
  high hn := by
    rcases hw.high hn with hhigh | ⟨heq, heven⟩
    · exact .inl (by linarith)
    · rcases hvw.lt_or_eq with hlt | rfl
      · exact .inl (by linarith)
      · exact .inr ⟨heq, heven⟩

theorem around_size (n : Nat) : Around n (size n) where
  low := by
    rintro k rfl
    rw [midpoint, size_succ]
    exact .inl (by linarith [gap_pos k])
  high _ := by
    rw [midpoint]
    exact .inl (by linarith [gap_pos n])

/-! ## Signs -/

/-- A number with a sign in front. -/
def withSign (negative : Bool) (v : ℚ) : ℚ := if negative then -v else v

theorem withSign_inj {negative : Bool} {v s : ℚ} (h : withSign negative v = withSign negative s) :
    v = s := by
  cases negative
  · exact h
  · exact neg_injective h

theorem toRat_eq (x : Binary64) : x.toRat = withSign x.negative (size x.magnitude) := rfl

theorem abs_withSign_sub {a b : Bool} {v s : ℚ} (hv : 0 ≤ v) (hs : 0 ≤ s) :
    |withSign a v - withSign b s| = if a = b then |v - s| else v + s := by
  have hsum : |v + s| = v + s := abs_of_nonneg (by linarith)
  cases a <;> cases b
  · rfl
  · show |v - -s| = v + s
    rw [sub_neg_eq_add, hsum]
  · show |-v - s| = v + s
    rw [← neg_add', abs_neg, hsum]
  · show |-v - -s| = |v - s|
    rw [neg_sub_neg, abs_sub_comm]

theorem isNaN_eq_false_iff {x : Binary64} : x.isNaN = false ↔ x.magnitude ≤ infiniteMagnitude := by
  unfold isNaN
  rw [decide_eq_false_iff_not, Nat.not_lt]

theorem significand_mod_two (x : Binary64) : x.significand % 2 = x.magnitude % 2 := by
  have hsplit := Nat.div_add_mod x.magnitude fractionSize
  unfold significand exponentField fractionField
  unfold fractionSize at *
  split <;> omega

/-- The float with a sign and a magnitude that is none of a NaN. -/
def ofMagnitude (negative : Bool) (n : Nat) (h : n ≤ infiniteMagnitude) : Binary64 :=
  ⟨negative, n, Nat.lt_of_le_of_lt h (by decide)⟩

theorem NearestMagnitude.isNearest {x : Binary64} {v : ℚ}
    (h : NearestMagnitude x.magnitude v) (hv : 0 ≤ v) :
    x.IsNearest (withSign x.negative v) := by
  have hnearest := h.dist_le
  -- Seen from the number, zero lies on the way to every float of the other sign.
  have hzero := h.dist_le 0 (Nat.zero_le _)
  rw [size_zero, sub_zero, abs_of_nonneg hv] at hzero
  refine ⟨isNaN_eq_false_iff.mpr h.le, fun y hy => ?_, fun y hy hne hdist => ?_⟩
  · have hsize := size_nonneg y.magnitude
    rw [toRat_eq, toRat_eq, abs_withSign_sub hv (size_nonneg _), if_pos rfl,
      abs_withSign_sub hv hsize]
    split
    · exact h.dist_le _ (isNaN_eq_false_iff.mp hy)
    · linarith
  · have hsize := size_nonneg y.magnitude
    rw [significand_mod_two]
    rw [toRat_eq, toRat_eq, abs_withSign_sub hv (size_nonneg _), if_pos rfl,
      abs_withSign_sub hv hsize] at hdist
    by_cases hsign : x.negative = y.negative
    · rw [if_pos hsign] at hdist
      refine h.even _ (isNaN_eq_false_iff.mp hy) (fun heq => hne ?_) hdist
      rw [toRat_eq, toRat_eq, heq, hsign]
    · rw [if_neg hsign] at hdist
      have hy0 : size y.magnitude = 0 := by linarith
      refine h.even 0 (Nat.zero_le _) (fun heq => hne ?_) ?_
      · rw [toRat_eq, toRat_eq, hy0, ← heq, size_zero]
        simp [withSign]
      · rw [size_zero, sub_zero, abs_of_nonneg hv]
        linarith

theorem abs_sub_ofMagnitude {negative : Bool} {v : ℚ} (hv : 0 ≤ v) {n : Nat}
    (hn : n ≤ infiniteMagnitude) :
    |withSign negative v - (ofMagnitude negative n hn).toRat| = |v - size n| := by
  rw [toRat_eq, abs_withSign_sub hv (size_nonneg _)]
  exact if_pos rfl

/-- A float nearest to a number has its sign or is a zero. -/
theorem IsNearest.negative_eq {x : Binary64} {negative : Bool} {v : ℚ}
    (h : x.IsNearest (withSign negative v)) (hv : 0 ≤ v) (hx : x.magnitude ≠ 0) :
    x.negative = negative := by
  by_contra hsign
  have hdist := h.dist_le (ofMagnitude negative 0 (Nat.zero_le _)) rfl
  have hpos : size 0 < size x.magnitude := size_strictMono (Nat.pos_of_ne_zero hx)
  -- From the number to the float one has to pass by zero.
  rw [abs_sub_ofMagnitude hv, toRat_eq, abs_withSign_sub hv (size_nonneg _),
    if_neg (Ne.symm hsign), size_zero, sub_zero, abs_of_nonneg hv] at hdist
  rw [size_zero] at hpos
  linarith

/-- Of the floats with its own sign, a float is nearest by its magnitude. -/
theorem IsNearest.nearestMagnitude {x : Binary64} {v : ℚ} (h : x.IsNearest (withSign x.negative v))
    (hv : 0 ≤ v) : NearestMagnitude x.magnitude v := by
  have hself : |withSign x.negative v - x.toRat| = |v - size x.magnitude| := by
    rw [toRat_eq, abs_withSign_sub hv (size_nonneg _), if_pos rfl]
  refine ⟨isNaN_eq_false_iff.mp h.isNaN_eq, fun k hk => ?_, fun k hk hne heq => ?_⟩
  · have hdist := h.dist_le (ofMagnitude x.negative k hk) (isNaN_eq_false_iff.mpr hk)
    rwa [hself, abs_sub_ofMagnitude hv] at hdist
  · rw [← significand_mod_two]
    refine h.even (ofMagnitude x.negative k hk) (isNaN_eq_false_iff.mpr hk)
      (fun hrat => hne ?_) (by rw [hself, abs_sub_ofMagnitude hv, heq])
    exact size_strictMono.injective (withSign_inj hrat)

/-- A float nearest to a number that is not too small for its sign has this sign. -/
theorem IsNearest.magnitude {x : Binary64} {negative : Bool} {v : ℚ}
    (h : x.IsNearest (withSign negative v)) (hv : size 1 ≤ v) :
    x.negative = negative ∧ NearestMagnitude x.magnitude v := by
  have hone : size 0 < size 1 := size_strictMono (by decide)
  rw [size_zero] at hone
  have hv0 : 0 ≤ v := by linarith
  have hx : x.magnitude ≠ 0 := by
    intro hx
    have hdist := h.dist_le (ofMagnitude negative 1 (by decide)) rfl
    rw [abs_sub_ofMagnitude hv0, toRat_eq, abs_withSign_sub hv0 (size_nonneg _), hx, size_zero,
      sub_zero, add_zero, abs_of_nonneg hv0, abs_of_nonneg (by linarith), ite_self] at hdist
    linarith
  obtain rfl := h.negative_eq hv0 hx
  exact ⟨rfl, h.nearestMagnitude hv0⟩

/-! ## There is one nearest float -/

theorem midpoint_strictMono : StrictMono midpoint := by
  refine strictMono_nat_of_lt_succ fun n => ?_
  rw [midpoint, midpoint, size_succ]
  linarith [gap_pos n, gap_pos (n + 1)]

/-- Where two magnitudes meet the number belongs to the even one. -/
theorem Around.not_lt {m n : Nat} {v : ℚ} (hm : Around m v) (hn : Around n v)
    (hfinite : m < infiniteMagnitude) : ¬m < n := by
  intro hlt
  obtain ⟨k, rfl⟩ := Nat.exists_eq_add_one_of_ne_zero (Nat.ne_zero_of_lt hlt)
  have hmid : midpoint m ≤ midpoint k := midpoint_strictMono.monotone (by omega)
  rcases hm.high hfinite with hhigh | ⟨hhigh, heven⟩
  · rcases hn.low k rfl with hlow | ⟨hlow, -⟩ <;> linarith
  · rcases hn.low k rfl with hlow | ⟨hlow, heven'⟩
    · linarith
    · obtain rfl : m = k := midpoint_strictMono.injective (by rw [← hhigh, hlow])
      omega

theorem NearestMagnitude.unique {m n : Nat} {v : ℚ} (hm : NearestMagnitude m v)
    (hn : NearestMagnitude n v) : m = n := by
  have hmle := hm.le
  have hnle := hn.le
  rcases lt_trichotomy m n with hlt | heq | hgt
  · exact absurd hlt (hm.around.not_lt hn.around (by omega))
  · exact heq
  · exact absurd hgt (hn.around.not_lt hm.around (by omega))

/-- Only the sign of a zero is not settled by the number. -/
theorem IsNearest.unique {x y : Binary64} {v : ℚ} (hx : x.IsNearest (withSign x.negative v))
    (hy : y.IsNearest (withSign x.negative v)) (hv : 0 ≤ v) (hsign : y.negative = x.negative) :
    x = y := by
  have hmagnitude : x.magnitude = y.magnitude := by
    refine (hx.nearestMagnitude hv).unique ?_
    rw [← hsign] at hy
    exact hy.nearestMagnitude hv
  obtain ⟨negative, n, hn⟩ := x
  obtain ⟨negative', n', hn'⟩ := y
  cases hsign
  cases hmagnitude
  rfl

end Binary64

end Telemetry
