import Mathlib.Tactic.FieldSimp
import Mathlib.Tactic.GCongr
import Telemetry.Binary64.Rounding
import Telemetry.Proofs.Binary64.Nearest
import Telemetry.Proofs.Decimal.Value

/-!
# Rounding gives the nearest float

A ratio is rounded on the grid of the floats around it, which its binade tells (`binade_spec`). The
result lies within half a unit (`roundDiv_spec`), and put together with the exponent it is the
magnitude between whose midpoints the ratio lies, a carry included (`around_packed`). So what
`ofRatio` and `ofScaled` give is nearest, over the whole range of the floats
(`isNearest_ofRatio`, `isNearest_ofScaled`).
-/

namespace Telemetry

/-- The rounded quotient is at most a half away, and even if it is just a half away. -/
theorem roundDiv_spec (n : Nat) {d : Nat} (hd : 0 < d) :
    ((roundDiv n d : ℚ) - 1 / 2 < n / d ∨
        (roundDiv n d : ℚ) - 1 / 2 = n / d ∧ roundDiv n d % 2 = 0) ∧
      ((n : ℚ) / d < roundDiv n d + 1 / 2 ∨
        (n : ℚ) / d = roundDiv n d + 1 / 2 ∧ roundDiv n d % 2 = 0) := by
  have hdq : (0 : ℚ) < d := by exact_mod_cast hd
  have hrest : n % d < d := Nat.mod_lt n hd
  have hsplit : (n : ℚ) / d = (n / d : Nat) + (n % d : Nat) / d := by
    have hn : (n : ℚ) = d * (n / d : Nat) + (n % d : Nat) := by
      exact_mod_cast (Nat.div_add_mod n d).symm
    field_simp
    exact hn
  have hnonneg : (0 : ℚ) ≤ (n % d : Nat) / d := by positivity
  have hlt : ((n % d : Nat) : ℚ) / d < 1 := by
    rw [div_lt_one hdq]
    exact_mod_cast hrest
  rw [hsplit]
  unfold roundDiv
  dsimp only
  split
  · next h =>
    have hhalf : ((n % d : Nat) : ℚ) / d < 1 / 2 := by
      rw [div_lt_iff₀ hdq]
      have : (2 : ℚ) * (n % d : Nat) < d := by exact_mod_cast h
      linarith
    exact ⟨.inl (by linarith), .inl (by linarith)⟩
  · split
    · next h =>
      have hhalf : (1 : ℚ) / 2 < (n % d : Nat) / d := by
        rw [lt_div_iff₀ hdq]
        have : (d : ℚ) < 2 * (n % d : Nat) := by exact_mod_cast h
        linarith
      push_cast
      exact ⟨.inl (by linarith), .inl (by linarith)⟩
    · next hle hge =>
      have hhalf : ((n % d : Nat) : ℚ) / d = 1 / 2 := by
        rw [div_eq_iff hdq.ne']
        have : (2 : ℚ) * (n % d : Nat) = d := by exact_mod_cast (by omega : 2 * (n % d) = d)
        linarith
      rw [hhalf]
      rcases Nat.mod_two_eq_zero_or_one (n / d) with heven | hodd
      · rw [heven]
        exact ⟨.inl (by push_cast; linarith), .inr ⟨by push_cast; ring, by omega⟩⟩
      · rw [hodd]
        exact ⟨.inr ⟨by push_cast; ring, by omega⟩, .inl (by push_cast; linarith)⟩

theorem le_roundDiv {a n d : Nat} (hd : 0 < d) (h : (a : ℚ) ≤ n / d) : a ≤ roundDiv n d := by
  obtain ⟨-, hhigh⟩ := roundDiv_spec n hd
  have hlt : (a : ℚ) < roundDiv n d + 1 := by rcases hhigh with hhigh | ⟨hhigh, -⟩ <;> linarith
  exact Nat.lt_succ_iff.mp (by exact_mod_cast hlt)

theorem roundDiv_le {b n d : Nat} (hd : 0 < d) (h : (n : ℚ) / d < b) : roundDiv n d ≤ b := by
  obtain ⟨hlow, -⟩ := roundDiv_spec n hd
  have hlt : (roundDiv n d : ℚ) < b + 1 := by rcases hlow with hlow | ⟨hlow, -⟩ <;> linarith
  exact Nat.lt_succ_iff.mp (by exact_mod_cast hlt)

namespace Binary64

/-! ## The grid around a ratio -/

theorem binade_spec {n d : Nat} (hn : n ≠ 0) (hd : d ≠ 0) :
    (2 : ℚ) ^ binade n d ≤ n / d ∧ (n : ℚ) / d < 2 ^ (binade n d + 1) := by
  have hdq : (0 : ℚ) < d := by exact_mod_cast Nat.pos_of_ne_zero hd
  let e : ℤ := (Nat.log2 n : ℤ) - Nat.log2 d
  have hnlow : (2 : ℚ) ^ (Nat.log2 n : ℤ) ≤ n := by
    rw [zpow_natCast]
    exact_mod_cast Nat.log2_self_le hn
  have hnhigh : (n : ℚ) < 2 ^ ((Nat.log2 n : ℤ) + 1) := by
    have := Nat.lt_log2_self (n := n)
    exact_mod_cast this
  have hdlow : (2 : ℚ) ^ (Nat.log2 d : ℤ) ≤ d := by
    rw [zpow_natCast]
    exact_mod_cast Nat.log2_self_le hd
  have hdhigh : (d : ℚ) < 2 ^ ((Nat.log2 d : ℤ) + 1) := by
    have := Nat.lt_log2_self (n := d)
    exact_mod_cast this
  have hhigh : (n : ℚ) / d < 2 ^ (e + 1) := by
    rw [div_lt_iff₀ hdq]
    calc (n : ℚ) < 2 ^ ((Nat.log2 n : ℤ) + 1) := hnhigh
      _ = 2 ^ (e + 1) * 2 ^ (Nat.log2 d : ℤ) := by
        rw [← zpow_add₀ (by norm_num)]
        congr 1
        omega
      _ ≤ 2 ^ (e + 1) * d := by gcongr
  have hlow : (2 : ℚ) ^ (e - 1) ≤ n / d := by
    rw [le_div_iff₀ hdq]
    calc (2 : ℚ) ^ (e - 1) * d ≤ 2 ^ (e - 1) * 2 ^ ((Nat.log2 d : ℤ) + 1) := by gcongr
      _ = 2 ^ (Nat.log2 n : ℤ) := by
        rw [← zpow_add₀ (by norm_num)]
        congr 1
        omega
      _ ≤ n := hnlow
  have htest : d * pow2 e.toNat ≤ n * pow2 (-e).toNat ↔ (2 : ℚ) ^ e ≤ n / d := by
    have hpos : (0 : ℚ) < 2 ^ (-e).toNat := by positivity
    show d * 2 ^ e.toNat ≤ n * 2 ^ (-e).toNat ↔ _
    rw [le_div_iff₀ hdq, ← Nat.cast_le (α := ℚ)]
    push_cast
    rw [pow_toNat_eq (by norm_num) e, ← mul_assoc, mul_le_mul_iff_left₀ hpos, mul_comm]
  unfold binade
  dsimp only
  split
  · next h => exact ⟨htest.mp h, hhigh⟩
  · next h =>
    rw [htest, not_le] at h
    rw [sub_add_cancel]
    exact ⟨hlow, h⟩

/-! ## Putting exponent and significand together -/

section Packed

variable {u s : Nat}

theorem gap_packed (hu : u = 0 ∨ fractionSize ≤ s) (hs : s < 2 * fractionSize) :
    gap (u * fractionSize + s) = 2 ^ ((u : ℤ) - 1074) := by
  rcases Nat.lt_or_ge s fractionSize with hlt | hge
  · obtain rfl : u = 0 := hu.resolve_right (by omega)
    rw [Nat.zero_mul, Nat.zero_add, gap_of_lt hs]
    rfl
  · exact gap_of_le u hge hs

/-- The significand may have been rounded up to the first one of the next exponent. -/
theorem size_packed (hu : u = 0 ∨ fractionSize ≤ s) (hs : s ≤ 2 * fractionSize) :
    size (u * fractionSize + s) = s * 2 ^ ((u : ℤ) - 1074) := by
  rcases hs.lt_or_eq with hlt | rfl
  · rcases Nat.lt_or_ge s fractionSize with hfraction | hfull
    · obtain rfl : u = 0 := hu.resolve_right (by omega)
      rw [← gap_packed (.inl rfl) hlt, Nat.zero_mul, Nat.zero_add, size_of_lt hfraction]
    · exact size_of_le u hfull hlt
  · exact size_carry u

/-- What was rounded on the grid of its exponent lies around the magnitude that is put together. -/
theorem around_packed (hu : u = 0 ∨ fractionSize ≤ s) (hs : s ≤ 2 * fractionSize) {w : ℚ}
    (hlow : (s : ℚ) - 1 / 2 < w ∨ (s : ℚ) - 1 / 2 = w ∧ s % 2 = 0)
    (hhigh : w < s + 1 / 2 ∨ w = s + 1 / 2 ∧ s % 2 = 0)
    (hfirst : u ≠ 0 → (fractionSize : ℚ) ≤ w) (hlast : w < (2 * fractionSize : Nat)) :
    Around (u * fractionSize + s) (w * 2 ^ ((u : ℤ) - 1074)) := by
  have hunit : (0 : ℚ) < 2 ^ ((u : ℤ) - 1074) := by positivity
  have heven : (u * fractionSize + s) % 2 = s % 2 := by
    have hfraction : fractionSize % 2 = 0 := by decide
    rw [Nat.add_mod, Nat.mul_mod, hfraction]
    omega
  have hsize := size_packed hu hs
  rw [← mul_lt_mul_iff_left₀ hunit, ← mul_left_inj' hunit.ne'] at hlow hhigh
  refine ⟨fun k hk => ?_, fun hn => ?_⟩
  · by_cases hbelow : u = 0 ∨ fractionSize ≤ s - 1
    · have hs0 : s ≠ 0 := by
        rintro rfl
        rcases hbelow with rfl | hle
        · omega
        · exact absurd hle (by decide)
      obtain rfl : k = u * fractionSize + (s - 1) := by omega
      have hmid : midpoint (u * fractionSize + (s - 1)) =
          ((s : ℚ) - 1 / 2) * 2 ^ ((u : ℤ) - 1074) := by
        rw [midpoint, size_packed hbelow (by omega), gap_packed hbelow (by omega),
          Nat.cast_pred (by omega)]
        ring
      rwa [heven, hmid]
    · -- Below the first significand of an exponent the number cannot be.
      have hu0 : u ≠ 0 := fun h => hbelow (.inl h)
      obtain rfl : s = fractionSize := by omega
      rw [midpoint_eq, hk, hsize]
      have hlt : size k < size (k + 1) := size_strictMono (Nat.lt_succ_self k)
      rw [hk, hsize] at hlt
      have := mul_le_mul_of_nonneg_right (hfirst hu0) hunit.le
      exact .inl (by linarith)
  · rcases hs.lt_or_eq with hlt | rfl
    · have hmid : midpoint (u * fractionSize + s) =
          ((s : ℚ) + 1 / 2) * 2 ^ ((u : ℤ) - 1074) := by
        rw [midpoint, hsize, gap_packed hu hlt]
        ring
      rwa [heven, hmid]
    · have := mul_lt_mul_of_pos_right hlast hunit
      rw [midpoint, hsize]
      exact .inl (by linarith [gap_pos (u * fractionSize + 2 * fractionSize)])

end Packed

/-- A number that lies around a magnitude beyond that of the infinities is rounded to them. -/
theorem Around.of_ge {n : Nat} {v : ℚ} (h : Around n v) (hn : infiniteMagnitude ≤ n) :
    Around infiniteMagnitude v := by
  rcases hn.lt_or_eq with hlt | rfl
  · refine ⟨fun k hk => .inl ?_, fun h => absurd h (lt_irrefl _)⟩
    obtain ⟨m, rfl⟩ := Nat.exists_eq_add_one_of_ne_zero (Nat.ne_zero_of_lt hlt)
    have hmono : size (k + 1) ≤ size m := size_strictMono.monotone (by omega)
    have hmid : midpoint k < size (k + 1) := by
      rw [midpoint, size_succ]
      linarith [gap_pos k]
    have hlow : midpoint m ≤ v := (h.low m rfl).elim le_of_lt fun h => h.1.le
    rw [midpoint] at hlow
    linarith [gap_pos m]
  · exact h

/-! ## Ratios and decimals -/

/-- The magnitude that a ratio is rounded to, an exponent that its binade asks for given. -/
theorem around_rounded {n d : Nat} (hd : 0 < d) {e : ℤ} (he : -1074 ≤ e)
    (hlow : -1074 < e → (2 : ℚ) ^ (e + 52) ≤ n / d) (hhigh : (n : ℚ) / d < 2 ^ (e + 53)) :
    Around ((e + 1074).toNat * fractionSize
      + roundDiv (n * pow2 (-e).toNat) (d * pow2 e.toNat)) (n / d) := by
  obtain ⟨u, rfl⟩ : ∃ u : Nat, e = (u : ℤ) - 1074 := ⟨(e + 1074).toNat, by omega⟩
  have hunit : (0 : ℚ) < 2 ^ ((u : ℤ) - 1074) := by positivity
  rw [sub_add_cancel, Int.toNat_natCast]
  generalize hunit' : ((u : ℤ) - 1074) = e at *
  have hden : 0 < d * pow2 e.toNat := Nat.mul_pos hd (Nat.two_pow_pos _)
  -- The ratio in units of the grid.
  have hscaled : ((n * pow2 (-e).toNat : Nat) : ℚ) / (d * pow2 e.toNat : Nat) = n / d / 2 ^ e := by
    show ((n * 2 ^ (-e).toNat : Nat) : ℚ) / (d * 2 ^ e.toNat : Nat) = _
    push_cast
    rw [pow_toNat_eq (by norm_num) e]
    field_simp
  have hfirst : u ≠ 0 →
      (fractionSize : ℚ) ≤ (n * pow2 (-e).toNat : Nat) / (d * pow2 e.toNat : Nat) := by
    intro hu
    rw [hscaled, le_div_iff₀ hunit]
    have hsize : (fractionSize : ℚ) * 2 ^ e = 2 ^ (e + 52) := by
      rw [zpow_add₀ (by norm_num)]
      norm_num [fractionSize]
      ring
    rw [hsize]
    exact hlow (by omega)
  have hlast :
      ((n * pow2 (-e).toNat : Nat) : ℚ) / (d * pow2 e.toNat : Nat) < (2 * fractionSize : Nat) := by
    rw [hscaled, div_lt_iff₀ hunit]
    have hsize : ((2 * fractionSize : Nat) : ℚ) * 2 ^ e = 2 ^ (e + 53) := by
      rw [zpow_add₀ (by norm_num)]
      norm_num [fractionSize]
      ring
    rwa [hsize]
  obtain ⟨hbelow, habove⟩ := roundDiv_spec (n * pow2 (-e).toNat) hden
  have hpacked := around_packed (u := u) ?_ (roundDiv_le hden hlast) hbelow habove hfirst hlast
  · rwa [hscaled, hunit', div_mul_cancel₀ _ hunit.ne'] at hpacked
  · exact or_iff_not_imp_left.mpr fun hu => le_roundDiv hden (hfirst hu)

/-- The float of a magnitude, or an infinity if the magnitude is beyond the finite ones. -/
theorem isNearest_dite (negative : Bool) {n : Nat} {v : ℚ} (h : Around n v) (hv : 0 ≤ v) :
    IsNearest (if h : n < infiniteMagnitude then ⟨negative, n, Nat.lt_trans h (by decide)⟩
      else infinity negative) (withSign negative v) := by
  split
  · next hn => exact NearestMagnitude.isNearest (x := ⟨negative, n, _⟩) (h.nearest hn.le) hv
  · next hn =>
    have hinfinite := (h.of_ge (Nat.not_lt.mp hn)).nearest (le_refl _)
    exact NearestMagnitude.isNearest (x := infinity negative) hinfinite hv

theorem isNearest_ofRatio (negative : Bool) (n : Nat) {d : Nat} (hd : 0 < d) :
    (ofRatio negative n d).IsNearest (withSign negative (n / d)) := by
  have hnonneg : (0 : ℚ) ≤ n / d := by positivity
  unfold ofRatio
  split
  · next hn =>
    have hzero : Around 0 ((n : ℚ) / d) := by
      rw [hn, Nat.cast_zero, zero_div, ← size_zero]
      exact around_size 0
    exact NearestMagnitude.isNearest (x := zero negative) (hzero.nearest (Nat.zero_le _)) hnonneg
  · next hn =>
    obtain ⟨hlow, hhigh⟩ := binade_spec hn hd.ne'
    refine isNearest_dite negative (around_rounded hd (le_max_left ..) (fun he => ?_) ?_) hnonneg
    · have hexponent : max (-1074) (binade n d - 52) + 52 = binade n d := by omega
      rwa [hexponent]
    · exact hhigh.trans_le (zpow_le_zpow_right₀ (by norm_num) (by omega))

/-- A power of ten is compared with a power of two by way of one of eight. -/
theorem two_pow_le_ten_pow (n : Nat) : (2 : ℚ) ^ (3 * n) ≤ 10 ^ n := by
  rw [pow_mul]
  exact pow_le_pow_left₀ (by norm_num) (by norm_num) n

theorem around_zero_of_lt {v : ℚ} {place : ℤ} (hplace : place < -400)
    (hv : v < 10 ^ (place + 1)) : Around 0 v := by
  refine ⟨fun k hk => absurd hk (Nat.succ_ne_zero k), fun _ => .inl ?_⟩
  have hsmall : (10 : ℚ) ^ (place + 1) ≤ 2 ^ (-1075 : ℤ) :=
    calc (10 : ℚ) ^ (place + 1) ≤ 10 ^ (-(400 : Nat) : ℤ) :=
          zpow_le_zpow_right₀ (by norm_num) (by omega)
      _ ≤ 2 ^ (-(3 * 400 : Nat) : ℤ) := by
          rw [zpow_neg, zpow_neg, zpow_natCast, zpow_natCast]
          exact inv_anti₀ (by positivity) (two_pow_le_ten_pow 400)
      _ ≤ 2 ^ (-1075 : ℤ) := zpow_le_zpow_right₀ (by norm_num) (by norm_num)
  have hmid : midpoint 0 = 2 ^ (-1075 : ℤ) := by
    have hexponent : (-1075 : ℤ) = -1074 - 1 := by norm_num
    rw [midpoint, size_zero, zero_add, gap_of_lt (by decide), hexponent,
      zpow_sub_one₀ (by norm_num), div_eq_mul_inv]
  rw [hmid]
  exact hv.trans_le hsmall

theorem around_infinite_of_le {v : ℚ} {place : ℤ} (hplace : 400 < place)
    (hv : (10 : ℚ) ^ place ≤ v) : Around infiniteMagnitude v := by
  have hsize : size infiniteMagnitude = 2 ^ (1024 : ℤ) := by
    have hcarry : size infiniteMagnitude = (2 * fractionSize : Nat) * 2 ^ (971 : ℤ) :=
      size_carry 2045
    have hfraction : ((2 * fractionSize : Nat) : ℚ) = 2 ^ (53 : ℤ) := by norm_num [fractionSize]
    rw [hcarry, hfraction, ← zpow_add₀ (by norm_num)]
    rfl
  have hlarge : size infiniteMagnitude ≤ v :=
    calc size infiniteMagnitude = 2 ^ (1024 : ℤ) := hsize
      _ ≤ 2 ^ ((3 * 400 : Nat) : ℤ) := zpow_le_zpow_right₀ (by norm_num) (by norm_num)
      _ ≤ 10 ^ ((400 : Nat) : ℤ) := by
          rw [zpow_natCast, zpow_natCast]
          exact two_pow_le_ten_pow 400
      _ ≤ 10 ^ place := zpow_le_zpow_right₀ (by norm_num) (by omega)
      _ ≤ v := hv
  refine ⟨fun k hk => .inl ?_, fun h => absurd h (lt_irrefl _)⟩
  have hnext := size_succ k
  rw [hk] at hnext
  rw [midpoint]
  linarith [gap_pos k]

/-- The float that a decimal is read as is nearest to it, however large or small it is. -/
theorem isNearest_ofScaled (negative : Bool) (k : Nat) (e : ℤ) :
    (ofScaled negative k e).IsNearest (withSign negative (k * 10 ^ e)) := by
  have hnonneg : (0 : ℚ) ≤ k * 10 ^ e := by positivity
  unfold ofScaled
  dsimp only
  split
  · next h =>
    have hzero : Around 0 ((k : ℚ) * 10 ^ e) := by
      rcases h with rfl | hplace
      · rw [Nat.cast_zero, zero_mul, ← size_zero]
        exact around_size 0
      · exact around_zero_of_lt hplace (Decimal.magnitude_lt k e)
    exact NearestMagnitude.isNearest (x := zero negative) (hzero.nearest (Nat.zero_le _)) hnonneg
  · split
    · next h =>
      have hinfinite : Around infiniteMagnitude ((k : ℚ) * 10 ^ e) :=
        around_infinite_of_le h (Decimal.le_magnitude (by tauto) e)
      exact NearestMagnitude.isNearest (x := infinity negative) (hinfinite.nearest (le_refl _))
        hnonneg
    · have hden : 0 < pow10 (-e).toNat := Nat.pow_pos (by decide)
      have hratio := isNearest_ofRatio negative (k * pow10 e.toNat) hden
      have hvalue : ((k * pow10 e.toNat : Nat) : ℚ) / (pow10 (-e).toNat : Nat) = k * 10 ^ e :=
        scaled_div_eq (by decide) k e
      rwa [hvalue] at hratio

/-! ## Signs of results -/

/-- Whatever is rounded keeps its sign. -/
theorem exists_magnitude_ofRatio (negative : Bool) (n d : Nat) :
    ∃ m hm, ofRatio negative n d = ⟨negative, m, hm⟩ := by
  unfold ofRatio
  split
  · exact ⟨0, by decide, rfl⟩
  · dsimp only
    split
    · next h => exact ⟨_, Nat.lt_trans h (by decide), rfl⟩
    · exact ⟨infiniteMagnitude, by decide, rfl⟩

theorem negative_ofScaled (negative : Bool) (k : Nat) (e : ℤ) :
    (ofScaled negative k e).negative = negative := by
  unfold ofScaled
  dsimp only
  split
  · rfl
  · split
    · rfl
    · obtain ⟨m, hm, heq⟩ :=
        exists_magnitude_ofRatio negative (k * pow10 e.toNat) (pow10 (-e).toNat)
      rw [heq]

theorem nearestMagnitude_ofRatio (negative : Bool) (n : Nat) {d : Nat} (hd : 0 < d) :
    NearestMagnitude (ofRatio negative n d).magnitude (n / d) := by
  have hnearest := isNearest_ofRatio negative n hd
  obtain ⟨m, hm, heq⟩ := exists_magnitude_ofRatio negative n d
  rw [heq] at hnearest ⊢
  exact hnearest.nearestMagnitude (by positivity)

/-- A decimal with the sign of a float that is nearest to it is read as this float. -/
theorem IsNearest.ofScaled_eq {x : Binary64} {k : Nat} {e : ℤ}
    (h : x.IsNearest (withSign x.negative (k * 10 ^ e))) : ofScaled x.negative k e = x := by
  have hnonneg : (0 : ℚ) ≤ k * 10 ^ e := by positivity
  exact (h.unique (isNearest_ofScaled x.negative k e) hnonneg (negative_ofScaled ..)).symm

end Binary64

end Telemetry
