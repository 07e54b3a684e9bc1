import Mathlib.Tactic.GCongr
import Telemetry.Binary64.Shortest
import Telemetry.Proofs.Binary64.Nearest
import Telemetry.Proofs.Decimal.Value

/-!
# The shortest decimal of a float

The search for the shortest decimal works with whole numbers. Here its tests are said in terms of
numbers: `roundsTo` tells what lies between the midpoints around a float (`roundsTo_iff`), and a
grid of powers of ten has a point there if and only if one of the two points next to the float is
one (`exists_nearestOnGrid?`). So the search ends on the coarsest grid with such a point
(`shortest_spec`). Where the midpoints lie closer together than a grid, a point of that grid between
them is the only one, and it is what the search finds (`shortest_of_around`).
-/

namespace Telemetry

namespace Binary64

/-! ## Comparisons -/

theorem compareScaled_eq (a : Nat) (p : ℤ) (b : Nat) (i : ℤ) :
    compareScaled a p b i = compare ((a : ℚ) * 2 ^ p) (b * 10 ^ i) := by
  let c : ℚ := 2 ^ (-p).toNat * 10 ^ (-i).toNat
  have hc : 0 < c := by positivity
  have hleft : ((a * pow2 p.toNat * pow10 (-i).toNat : Nat) : ℚ) = a * 2 ^ p * c := by
    show ((a * 2 ^ p.toNat * 10 ^ (-i).toNat : Nat) : ℚ) = _
    push_cast
    rw [pow_toNat_eq (by norm_num) p]
    ring
  have hright : ((b * pow10 i.toNat * pow2 (-p).toNat : Nat) : ℚ) = b * 10 ^ i * c := by
    show ((b * 10 ^ i.toNat * 2 ^ (-p).toNat : Nat) : ℚ) = _
    push_cast
    rw [pow_toNat_eq (by norm_num) i]
    ring
  unfold compareScaled
  rcases lt_trichotomy ((a : ℚ) * 2 ^ p) (b * 10 ^ i) with h | h | h
  · rw [compare_lt_iff_lt.mpr h, compare_lt_iff_lt, ← Nat.cast_lt (α := ℚ), hleft, hright]
    exact mul_lt_mul_of_pos_right h hc
  · rw [compare_eq_iff_eq.mpr h, compare_eq_iff_eq, ← Nat.cast_inj (R := ℚ), hleft, hright, h]
  · rw [compare_gt_iff_gt.mpr h, compare_gt_iff_gt, ← Nat.cast_lt (α := ℚ), hright, hleft]
    exact mul_lt_mul_of_pos_right h hc

/-- The largest point of a grid that is not beyond the float, and the next one that is. -/
theorem floorOnGrid_eq (m : Nat) (q i : ℤ) :
    floorOnGrid m q i = ⌊(m : ℚ) * 2 ^ q / 10 ^ i⌋₊ := by
  have hdiv : (m : ℚ) * 2 ^ q / 10 ^ i =
      (m * 2 ^ q.toNat * 10 ^ (-i).toNat : Nat) / (2 ^ (-q).toNat * 10 ^ i.toNat : Nat) := by
    push_cast
    rw [pow_toNat_eq (by norm_num) q, pow_toNat_eq (by norm_num) i]
    field_simp
  rw [hdiv, Nat.floor_div_eq_div]
  rfl

theorem floorOnGrid_mem (m : Nat) (q i : ℤ) :
    (floorOnGrid m q i : ℚ) * 10 ^ i ≤ m * 2 ^ q ∧
      (m : ℚ) * 2 ^ q < (floorOnGrid m q i + 1 : Nat) * 10 ^ i := by
  have hpos : (0 : ℚ) < 10 ^ i := by positivity
  rw [floorOnGrid_eq, ← le_div_iff₀ hpos, ← div_lt_iff₀ hpos]
  refine ⟨Nat.floor_le (by positivity), ?_⟩
  push_cast
  exact Nat.lt_floor_add_one _

/-! ## Between the midpoints -/

theorem midpoint_pred {n : Nat} (hn : n ≠ 0) : midpoint (n - 1) = size n - gap (n - 1) / 2 := by
  obtain ⟨k, rfl⟩ := Nat.exists_eq_add_one_of_ne_zero hn
  rw [Nat.add_sub_cancel, midpoint, size_succ]
  ring

theorem midpoint_magnitude (x : Binary64) :
    midpoint x.magnitude = (4 * x.significand + 2 : Nat) * 2 ^ (x.exponent - 2) := by
  rw [midpoint, size_magnitude, gap_magnitude, zpow_sub₀ (by norm_num)]
  push_cast
  ring

/-- What the search takes for the lower end, in quarters of the unit. -/
theorem midpoint_magnitude_pred {x : Binary64} (hx : x.magnitude ≠ 0) :
    midpoint (x.magnitude - 1) =
      (if x.significand = fractionSize ∧ -1074 < x.exponent then 4 * x.significand - 1
        else 4 * x.significand - 2 : Nat) * 2 ^ (x.exponent - 2) := by
  have hpos : 0 < x.significand := by
    have hsize : size 0 < size x.magnitude := size_strictMono (Nat.pos_of_ne_zero hx)
    rw [size_zero, size_magnitude] at hsize
    exact_mod_cast pos_of_mul_pos_left hsize (by positivity)
  have hquarter : (2 : ℚ) ^ (x.exponent - 2) = 2 ^ x.exponent / 4 := by
    rw [zpow_sub₀ (by norm_num)]
    norm_num
  rw [midpoint_pred hx, gap_pred, size_magnitude, hquarter]
  split
  · rw [Nat.cast_sub (by omega), zpow_sub_one₀ (by norm_num)]
    push_cast
    ring
  · rw [Nat.cast_sub (by omega)]
    push_cast
    ring

/-- For a magnitude that is not zero there is one midpoint below and one above. -/
theorem around_iff {n : Nat} (hn : n ≠ 0) (hfinite : n < infiniteMagnitude) {v : ℚ} :
    Around n v ↔
      if n % 2 = 0 then midpoint (n - 1) ≤ v ∧ v ≤ midpoint n
      else midpoint (n - 1) < v ∧ v < midpoint n := by
  obtain ⟨k, rfl⟩ := Nat.exists_eq_add_one_of_ne_zero hn
  rw [Nat.add_sub_cancel]
  constructor
  · intro h
    have hlow := h.low k rfl
    have hhigh := h.high hfinite
    split
    · next heven =>
      simp only [heven, and_true] at hlow hhigh
      exact ⟨le_iff_lt_or_eq.mpr hlow, le_iff_lt_or_eq.mpr hhigh⟩
    · next hodd =>
      simp only [hodd, and_false, or_false] at hlow hhigh
      exact ⟨hlow, hhigh⟩
  · intro h
    split at h
    · next heven =>
      refine ⟨?_, fun _ => ?_⟩
      · rintro k' hk
        obtain rfl := Nat.succ.inj hk
        exact h.1.lt_or_eq.imp_right fun heq => ⟨heq, heven⟩
      · exact h.2.lt_or_eq.imp_right fun heq => ⟨heq, heven⟩
    · refine ⟨?_, fun _ => .inl h.2⟩
      rintro k' hk
      obtain rfl := Nat.succ.inj hk
      exact .inl h.1

theorem isFinite_iff {x : Binary64} : x.isFinite = true ↔ x.magnitude < infiniteMagnitude :=
  decide_eq_true_iff

/-- The test of the search is whether the point lies between the midpoints around the float. -/
theorem roundsTo_iff {x : Binary64} (hfinite : x.isFinite = true) (hx : x.magnitude ≠ 0) (b : Nat)
    (i : ℤ) : roundsTo x.significand x.exponent b i = true ↔ Around x.magnitude (b * 10 ^ i) := by
  unfold roundsTo
  dsimp only
  rw [around_iff hx (isFinite_iff.mp hfinite), midpoint_magnitude_pred hx, midpoint_magnitude,
    ← significand_mod_two, compareScaled_eq, compareScaled_eq]
  split
  · simp only [Bool.and_eq_true, bne_iff_ne, compare_le_iff_le, compare_ge_iff_ge]
  · simp only [Bool.and_eq_true, beq_iff_eq, compare_lt_iff_lt, compare_gt_iff_gt]

/-! ## Grids -/

theorem roundsTo_of_nearestOnGrid? {m n : Nat} {q i : ℤ} (h : nearestOnGrid? m q i = some n) :
    roundsTo m q n i = true := by
  unfold nearestOnGrid? at h
  dsimp only at h
  split at h
  · next hlow hhigh =>
    split at h <;> cases h
    · exact hlow
    · exact hhigh
    · rcases Nat.mod_two_eq_zero_or_one (floorOnGrid m q i) with heven | hodd
      · rwa [heven]
      · rwa [hodd]
  · next hlow _ =>
    cases h
    exact hlow
  · next _ hhigh =>
    cases h
    exact hhigh
  · cases h

theorem nearestOnGrid?_eq_none {m : Nat} {q i : ℤ} (h : nearestOnGrid? m q i = none) :
    roundsTo m q (floorOnGrid m q i) i = false ∧
      roundsTo m q (floorOnGrid m q i + 1) i = false := by
  unfold nearestOnGrid? at h
  dsimp only at h
  split at h
  · split at h <;> cases h
  · cases h
  · cases h
  · next hlow hhigh => exact ⟨hlow, hhigh⟩

/-- A grid with a point between the midpoints has one there next to the float. -/
theorem exists_nearestOnGrid? {x : Binary64} (hfinite : x.isFinite = true) (hx : x.magnitude ≠ 0)
    {b : Nat} {i : ℤ} (hb : Around x.magnitude (b * 10 ^ i)) :
    ∃ n, nearestOnGrid? x.significand x.exponent i = some n := by
  have hpos : (0 : ℚ) < 10 ^ i := by positivity
  obtain ⟨hfloor, hnext⟩ := floorOnGrid_mem x.significand x.exponent i
  rw [← size_magnitude] at hfloor hnext
  rw [← Option.ne_none_iff_exists']
  intro hnone
  obtain ⟨hlow, hhigh⟩ := nearestOnGrid?_eq_none hnone
  rw [← Bool.not_eq_true, roundsTo_iff hfinite hx] at hlow hhigh
  -- The point is on one side of the float, and its neighbour on that side lies in between.
  rcases Nat.lt_or_ge (floorOnGrid x.significand x.exponent i) b with hlt | hge
  · refine hhigh ((around_size _).convex hb hnext.le ?_)
    gcongr
    omega
  · refine hlow (hb.convex (around_size _) ?_ hfloor)
    gcongr

/-! ## The search -/

theorem gridExponents_pairwise (m : Nat) (q : ℤ) : (gridExponents m q).Pairwise (· > ·) := by
  refine List.pairwise_map.mpr (List.pairwise_lt_range.imp fun {j k} hjk => ?_)
  show decimalPlace m q + 1 - (j : ℤ) > decimalPlace m q + 1 - (k : ℤ)
  omega

/-- The search ends between the midpoints, on no finer grid than one that has a point there. -/
theorem shortest_spec {x : Binary64} (hfinite : x.isFinite = true) (hx : x.magnitude ≠ 0)
    {b : Nat} {i : ℤ} (hb : Around x.magnitude (b * 10 ^ i))
    (hi : i ∈ gridExponents x.significand x.exponent) :
    ∃ n j, shortest x.significand x.exponent = (n, j) ∧ i ≤ j ∧
      Around x.magnitude (n * 10 ^ j) := by
  obtain ⟨k, hk⟩ := exists_nearestOnGrid? hfinite hx hb
  unfold shortest
  cases hfound : (gridExponents x.significand x.exponent).findSome? fun j =>
      (nearestOnGrid? x.significand x.exponent j).map fun n => (n, j) with
  | none =>
    have hnone := List.findSome?_eq_none_iff.mp hfound i hi
    rw [hk] at hnone
    cases hnone
  | some pair =>
    obtain ⟨before, j, after, hgrids, hj, hbefore⟩ := List.findSome?_eq_some_iff.mp hfound
    obtain ⟨n, hn, rfl⟩ := Option.map_eq_some_iff.mp hj
    refine ⟨n, j, rfl, ?_, (roundsTo_iff hfinite hx n j).mp (roundsTo_of_nearestOnGrid? hn)⟩
    -- The grids come from coarse to fine, and none before the one that was found has a point.
    have hsorted := gridExponents_pairwise x.significand x.exponent
    rw [hgrids] at hi hsorted
    rcases List.mem_append.mp hi with hmem | hmem
    · have hnone := hbefore i hmem
      rw [hk] at hnone
      cases hnone
    · rcases List.mem_cons.mp hmem with rfl | hmem
      · exact le_refl i
      · exact ((List.pairwise_cons.mp (List.pairwise_append.mp hsorted).2.1).1 i hmem).le

/-- The place of the leading digit is found from the float in units of `10 ^ -340`. -/
theorem le_decimalPlace_iff (m : Nat) (q : ℤ) {a : ℤ} (ha : -340 < a) :
    a ≤ decimalPlace m q ↔ (10 : ℚ) ^ a ≤ m * 2 ^ q := by
  obtain ⟨k, hk⟩ : ∃ k : Nat, a + 340 = k := ⟨(a + 340).toNat, by omega⟩
  have hpos : 0 < k := by omega
  have hcount := digitCount_le_iff (n := floorOnGrid m q (-340)) hpos
  have hpow : (10 : ℚ) ^ a ≤ m * 2 ^ q ↔ ((10 ^ k : Nat) : ℚ) ≤ m * 2 ^ q / 10 ^ (-340 : ℤ) := by
    rw [le_div_iff₀ (by positivity), Nat.cast_pow, Nat.cast_ofNat, ← zpow_natCast, ← hk,
      ← zpow_add₀ (by norm_num), add_neg_cancel_right]
  rw [hpow, ← Nat.le_floor_iff (by positivity), ← floorOnGrid_eq, ← Nat.not_lt, ← hcount]
  unfold decimalPlace
  omega

/-- Two numbers around a float are no further apart than it is from the next one. -/
theorem Around.abs_sub_le {n : Nat} {u v : ℚ} (hu : Around n u) (hv : Around n v) (hn : n ≠ 0)
    (hfinite : n < infiniteMagnitude) : |u - v| ≤ gap n := by
  have hgap : gap (n - 1) ≤ gap n := gap_mono (Nat.sub_le n 1)
  have hwithin {w : ℚ} (hw : Around n w) : size n - gap n / 2 ≤ w ∧ w ≤ size n + gap n / 2 := by
    have hlow : midpoint (n - 1) ≤ w :=
      (hw.low (n - 1) (Nat.succ_pred_eq_of_ne_zero hn)).elim le_of_lt fun h => h.1.le
    have hhigh : w ≤ midpoint n := (hw.high hfinite).elim le_of_lt fun h => h.1.le
    rw [midpoint_pred hn] at hlow
    exact ⟨by linarith, hhigh⟩
  obtain ⟨hulow, huhigh⟩ := hwithin hu
  obtain ⟨hvlow, hvhigh⟩ := hwithin hv
  exact abs_sub_le_iff.mpr ⟨by linarith, by linarith⟩

/-- A point of a grid is the shortest decimal if no other one lies between the midpoints. -/
theorem shortest_of_around {x : Binary64} (hfinite : x.isFinite = true) (hx : x.magnitude ≠ 0)
    {b : Nat} {i : ℤ} (hb : Around x.magnitude (b * 10 ^ i))
    (hi : i ∈ gridExponents x.significand x.exponent) (hgap : gap x.magnitude < 10 ^ i) :
    ((shortest x.significand x.exponent).1 : ℚ) * 10 ^ (shortest x.significand x.exponent).2 =
      b * 10 ^ i := by
  obtain ⟨n, j, hshortest, hij, hn⟩ := shortest_spec hfinite hx hb hi
  rw [hshortest]
  obtain ⟨k, rfl⟩ := Int.exists_add_of_le hij
  have hpos : (0 : ℚ) < 10 ^ i := by positivity
  have hsame : (n : ℚ) * 10 ^ (i + k) = (n * 10 ^ k : Nat) * 10 ^ i := by
    rw [zpow_add₀ (by norm_num), zpow_natCast]
    push_cast
    ring
  -- Both are points of the grid, and its points lie further apart than the midpoints.
  have hdist := hn.abs_sub_le hb hx (isFinite_iff.mp hfinite)
  rw [hsame, ← sub_mul, abs_mul, abs_of_pos hpos] at hdist
  have hlt : |((n * 10 ^ k : Nat) : ℚ) - b| < 1 := by
    refine lt_of_mul_lt_mul_right ?_ hpos.le
    rw [one_mul]
    exact hdist.trans_lt hgap
  have hequal : ((n * 10 ^ k : Nat) : ℤ) = b := by
    rw [← sub_eq_zero, ← Int.abs_lt_one_iff]
    exact_mod_cast hlt
  rw [hsame, show ((n * 10 ^ k : Nat) : ℚ) = b by exact_mod_cast hequal]

end Binary64

end Telemetry
