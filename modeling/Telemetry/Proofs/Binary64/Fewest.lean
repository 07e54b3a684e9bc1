import Telemetry.Proofs.Binary64.Layout
import Telemetry.Proofs.Binary64.Shortest

/-!
# No decimal with fewer digits

The search of `Binary64.shortest` tries twenty grids of powers of ten and takes the coarsest with a
point between the midpoints around the float. That these are enough, and that the coarsest grid
gives the fewest digits, is shown here. Seventeen digits always suffice, as the midpoints lie
further apart than the sixteenth place behind the leading digit (`exists_around_grid`). A decimal
with a smaller exponent has fewer digits only if its leading digit is at a smaller place, and then
there is a power of ten between the midpoints, which has a single digit (`digitCount_shortest_le`).
-/

namespace Telemetry

namespace Binary64

variable {x : Binary64} (hfinite : x.isFinite = true) (hx : x.magnitude ≠ 0)

include hx

theorem significand_pos : 0 < x.significand := by
  have hsize : size 0 < size x.magnitude := size_strictMono (Nat.pos_of_ne_zero hx)
  rw [size_zero, size_magnitude] at hsize
  exact_mod_cast pos_of_mul_pos_left hsize (by positivity)

theorem gap_le_size : gap x.magnitude ≤ size x.magnitude := by
  have hone : (1 : ℚ) ≤ x.significand := by exact_mod_cast significand_pos hx
  rw [size_magnitude, gap_magnitude]
  exact le_mul_of_one_le_left (by positivity) hone

/-! ## Around a float -/

include hfinite in
theorem Around.lt_two_mul {v : ℚ} (h : Around x.magnitude v) : v < 2 * size x.magnitude := by
  have hhigh : v ≤ midpoint x.magnitude :=
    (h.high (isFinite_iff.mp hfinite)).elim le_of_lt fun h => h.1.le
  have hgap := gap_le_size hx
  rw [midpoint] at hhigh
  linarith [gap_pos x.magnitude]

theorem Around.pos {v : ℚ} (h : Around x.magnitude v) : 0 < v := by
  obtain ⟨k, hk⟩ := Nat.exists_eq_add_one_of_ne_zero hx
  have hlow : midpoint k ≤ v := (h.low k hk.symm).elim le_of_lt fun h => h.1.le
  rw [midpoint] at hlow
  linarith [size_nonneg k, gap_pos k]

omit hx in
theorem around_of_mem {n : Nat} {v : ℚ} (hlow : ∀ k, k + 1 = n → midpoint k < v)
    (hhigh : v < midpoint n) : Around n v :=
  ⟨fun k hk => .inl (hlow k hk), fun _ => .inl hhigh⟩

/-! ## The place of the leading digit -/

omit hx in
theorem ten_pow_le_least_gap : (10 : ℚ) ^ (-324 : ℤ) ≤ 2 ^ (-1074 : ℤ) := by
  have hnat : 2 ^ 1074 ≤ 10 ^ 324 := by decide +kernel
  have hpow : (2 : ℚ) ^ 1074 ≤ 10 ^ 324 := by exact_mod_cast hnat
  rw [zpow_neg, zpow_neg]
  exact inv_anti₀ (by positivity) hpow

include hfinite in
theorem decimalPlace_spec :
    (10 : ℚ) ^ decimalPlace x.significand x.exponent ≤ size x.magnitude ∧
      size x.magnitude < 10 ^ (decimalPlace x.significand x.exponent + 1) := by
  have hleast : -324 ≤ decimalPlace x.significand x.exponent := by
    rw [le_decimalPlace_iff _ _ (by norm_num), ← size_magnitude]
    calc (10 : ℚ) ^ (-324 : ℤ) ≤ 2 ^ (-1074 : ℤ) := ten_pow_le_least_gap
      _ ≤ 2 ^ x.exponent := zpow_le_zpow_right₀ (by norm_num) (exponent_mem hfinite).1
      _ ≤ size x.magnitude := gap_le_size hx
  rw [size_magnitude, ← not_le, ← le_decimalPlace_iff _ _ (by omega),
    ← le_decimalPlace_iff _ _ (by omega)]
  exact ⟨le_refl _, by omega⟩

/-! ## Seventeen digits are enough -/

include hfinite in
/-- The floats lie at least this far apart, those with a short significand twice as far. -/
theorem grid_lt_gap :
    let d : ℚ := 10 ^ (decimalPlace x.significand x.exponent - 16)
    d < gap x.magnitude ∧ (x.significand ≤ fractionSize → d < gap x.magnitude / 2) := by
  intro d
  obtain ⟨hplace, -⟩ := decimalPlace_spec hfinite hx
  have hd : d * 10 ^ 16 = 10 ^ decimalPlace x.significand x.exponent := by
    have hpow : (10 : ℚ) ^ 16 = 10 ^ (16 : ℤ) := by norm_num
    rw [hpow, ← zpow_add₀ (by norm_num), sub_add_cancel]
  rw [← hd, size_magnitude, ← gap_magnitude] at hplace
  have hgap := gap_pos x.magnitude
  constructor
  · have hlt : (x.significand : ℚ) ≤ 2 ^ 53 := by exact_mod_cast x.significand_lt.le
    have hle := mul_le_mul_of_nonneg_right hlt hgap.le
    norm_num at hle hplace
    linarith
  · intro hshort
    have hlt : (x.significand : ℚ) ≤ fractionSize := by exact_mod_cast hshort
    have hle := mul_le_mul_of_nonneg_right hlt hgap.le
    norm_num [fractionSize] at hle hplace
    linarith

include hfinite in
theorem exists_around_grid :
    ∃ b : Nat, Around x.magnitude (b * 10 ^ (decimalPlace x.significand x.exponent - 16)) := by
  obtain ⟨hwide, hshort⟩ := grid_lt_gap hfinite hx
  obtain ⟨hfloor, hnext⟩ :=
    floorOnGrid_mem x.significand x.exponent (decimalPlace x.significand x.exponent - 16)
  rw [← size_magnitude] at hfloor hnext
  generalize floorOnGrid x.significand x.exponent _ = b at hfloor hnext
  generalize (10 : ℚ) ^ (decimalPlace x.significand x.exponent - 16) = d at *
  have hsum : ((b + 1 : Nat) : ℚ) * d = b * d + d := by
    push_cast
    ring
  have hbelow (k : Nat) (hk : k + 1 = x.magnitude) :
      midpoint k = size x.magnitude - gap (x.magnitude - 1) / 2 := by
    rw [← midpoint_pred hx, ← hk, Nat.add_sub_cancel]
  have hgap := gap_pos (x.magnitude - 1)
  by_cases hfull : x.significand ≤ fractionSize
  · -- The interval is shorter below the first significand, so the point above is taken.
    have hhalf := hshort hfull
    refine ⟨b + 1, around_of_mem (fun k hk => ?_) ?_⟩
    · rw [hbelow k hk]
      linarith
    · rw [midpoint]
      linarith
  · have hpred : gap (x.magnitude - 1) = gap x.magnitude := by
      rw [gap_pred, if_neg (by omega), gap_magnitude]
    -- One of the two neighbours is at most half a step away.
    rcases le_total (size x.magnitude - b * d) (d / 2) with hnear | hfar
    · refine ⟨b, around_of_mem (fun k hk => ?_) ?_⟩
      · rw [hbelow k hk, hpred]
        linarith
      · rw [midpoint]
        linarith
    · refine ⟨b + 1, around_of_mem (fun k hk => ?_) ?_⟩
      · rw [hbelow k hk]
        linarith
      · rw [midpoint]
        linarith

/-! ## The coarsest grid -/

omit hx in
theorem mem_gridExponents_iff {m : Nat} {q i : ℤ} :
    i ∈ gridExponents m q ↔ decimalPlace m q - 18 ≤ i ∧ i ≤ decimalPlace m q + 1 := by
  unfold gridExponents
  rw [List.mem_map]
  constructor
  · rintro ⟨k, hk, rfl⟩
    have hlt := List.mem_range.mp hk
    omega
  · intro h
    exact ⟨(decimalPlace m q + 1 - i).toNat, List.mem_range.mpr (by omega), by omega⟩

include hfinite

/-- No grid that is coarser than the next place above the leading digit has a point there. -/
theorem exponent_le_of_around {b : Nat} (hb : b ≠ 0) {i : ℤ} (h : Around x.magnitude (b * 10 ^ i)) :
    i ≤ decimalPlace x.significand x.exponent + 1 := by
  obtain ⟨-, hplace⟩ := decimalPlace_spec hfinite hx
  have hone : (1 : ℚ) ≤ b := by exact_mod_cast Nat.one_le_iff_ne_zero.mpr hb
  by_contra hlt
  have hstep : (10 : ℚ) * 10 ^ (decimalPlace x.significand x.exponent + 1) ≤ 10 ^ i := by
    rw [← zpow_one_add₀ (by norm_num)]
    exact zpow_le_zpow_right₀ (by norm_num) (by omega)
  have hv := h.lt_two_mul hfinite hx
  have hle : (10 : ℚ) ^ i ≤ b * 10 ^ i := le_mul_of_one_le_left (by positivity) hone
  linarith [zpow_pos (show (0 : ℚ) < 10 by norm_num) (decimalPlace x.significand x.exponent + 1)]

/-- The search ends, and no decimal that rounds to the float has a larger exponent. -/
theorem shortest_coarsest :
    ∃ n j, shortest x.significand x.exponent = (n, j) ∧ n ≠ 0 ∧
      decimalPlace x.significand x.exponent - 16 ≤ j ∧ Around x.magnitude (n * 10 ^ j) ∧
      ∀ {b : Nat} {i : ℤ}, b ≠ 0 → Around x.magnitude (b * 10 ^ i) → i ≤ j := by
  obtain ⟨b, hb⟩ := exists_around_grid hfinite hx
  obtain ⟨n, j, hshortest, hj, hn⟩ :=
    shortest_spec hfinite hx hb (mem_gridExponents_iff.mpr (by omega))
  refine ⟨n, j, hshortest, ?_, hj, hn, fun {b i} hb h => ?_⟩
  · rintro rfl
    have hpos := hn.pos hx
    rw [Nat.cast_zero, zero_mul] at hpos
    exact lt_irrefl _ hpos
  · have hi := exponent_le_of_around hfinite hx hb h
    by_cases hfine : i < decimalPlace x.significand x.exponent - 18
    · omega
    · obtain ⟨n', j', hshortest', hij, -⟩ :=
        shortest_spec hfinite hx h (mem_gridExponents_iff.mpr (by omega))
      rw [hshortest] at hshortest'
      cases hshortest'
      exact hij

/-- What is found lies below the next power of ten, or it is this power. -/
theorem shortest_lt_or_eq_one {n : Nat} {j : ℤ}
    (hshortest : shortest x.significand x.exponent = (n, j)) :
    (n : ℚ) * 10 ^ j < 10 ^ (decimalPlace x.significand x.exponent + 1) ∨ n = 1 := by
  obtain ⟨n', j', hshortest', hn0, -, hn, hcoarsest⟩ := shortest_coarsest hfinite hx
  obtain ⟨-, hplace⟩ := decimalPlace_spec hfinite hx
  rw [hshortest] at hshortest'
  cases hshortest'
  generalize decimalPlace x.significand x.exponent + 1 = p at *
  by_contra! h
  obtain ⟨hge, hne⟩ := h
  -- The power lies between the float and what was found, and its grid is as coarse as any.
  have hpower : Around x.magnitude ((1 : Nat) * 10 ^ p) := by
    rw [Nat.cast_one, one_mul]
    exact (around_size _).convex hn hplace.le hge
  have hle := hcoarsest one_ne_zero hpower
  have htwo : (2 : ℚ) ≤ n := by exact_mod_cast (by omega : 2 ≤ n)
  have hpow : (10 : ℚ) ^ p ≤ 10 ^ j := zpow_le_zpow_right₀ (by norm_num) hle
  have hlt := hn.lt_two_mul hfinite hx
  have hmul : (2 : ℚ) * 10 ^ p ≤ n * 10 ^ j := by gcongr
  linarith

/-- No decimal that rounds to the float has fewer digits than the shortest one. -/
theorem digitCount_shortest_le {b : Nat} {i : ℤ} (hb : b ≠ 0)
    (h : Around x.magnitude (b * 10 ^ i)) :
    digitCount (shortest x.significand x.exponent).1 ≤ digitCount b := by
  obtain ⟨n, j, hshortest, hn0, -, hn, hcoarsest⟩ := shortest_coarsest hfinite hx
  have hpos := digitCount_pos b
  obtain ⟨hplace, -⟩ := decimalPlace_spec hfinite hx
  have hbelow := shortest_lt_or_eq_one hfinite hx hshortest
  rw [hshortest]
  dsimp only
  generalize decimalPlace x.significand x.exponent = p at *
  have hone : digitCount 1 = 1 := by decide
  rcases hbelow with hlt | rfl
  swap
  · rw [hone]
    exact hpos
  -- The leading digit of what was found is at this place or behind it.
  have hleading : Decimal.adjustedExponent n j ≤ p := by
    have hle := Decimal.le_magnitude hn0 j
    have hpow := (zpow_lt_zpow_iff_right₀ (by norm_num : (1 : ℚ) < 10)).mp (hle.trans_lt hlt)
    omega
  unfold Decimal.adjustedExponent at hleading
  rcases le_or_gt ((10 : ℚ) ^ p) (b * 10 ^ i) with hge | hsmall
  · -- The other decimal reaches as far, and its last digit is no further to the left.
    have hij := hcoarsest hb h
    have hreach := hge.trans_lt (Decimal.magnitude_lt b i)
    have hpow := (zpow_lt_zpow_iff_right₀ (by norm_num : (1 : ℚ) < 10)).mp hreach
    unfold Decimal.adjustedExponent at hpow
    omega
  · -- Between the other decimal and the float lies a power of ten, which has a single digit.
    have hpower : Around x.magnitude ((1 : Nat) * 10 ^ p) := by
      rw [Nat.cast_one, one_mul]
      exact h.convex (around_size _) hsmall.le hplace
    have hpj := hcoarsest one_ne_zero hpower
    omega

end Binary64

end Telemetry
