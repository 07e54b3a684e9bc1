import Mathlib.Tactic.GCongr
import Telemetry.Binary64.Printer
import Telemetry.Proofs.Decimal.Spelling

/-!
# The text of a float is a numeral

Whatever the format, the layout of digits and an exponent spells a numeral with the same number
(`Binary64.spelling_layOut`), be it positional or with a power of ten. So the text of a finite float
spells a numeral whose number is that of its shortest decimal, and whose power of ten every decimal
can hold (`Binary64.spelling_text`).
-/

namespace Telemetry

/-- Digits may move between the coefficient and the exponent. -/
theorem Decimal.number_mul_pow_coefficient (negative : Bool) (k n : Nat) (e : ℤ) :
    number negative (k * 10 ^ n) (e - n) = number negative k e := by
  have hpow : ((k * 10 ^ n : Nat) : ℚ) * 10 ^ (e - n) = k * 10 ^ e := by
    push_cast
    rw [zpow_sub₀ (by norm_num), zpow_natCast]
    field_simp
  unfold number
  rw [hpow]

namespace Binary64

open Numeral

theorem length_padZeros (width : Nat) (t : Text) :
    (t.padZeros width).length = max width t.length := by
  unfold Text.padZeros
  rw [List.length_append, Text.replicate_zero, List.length_replicate]
  omega

theorem isDigits_padZeros (width : Nat) {t : Text} (h : Text.IsDigits t) :
    Text.IsDigits (t.padZeros width) :=
  (Text.isDigits_replicate_zero _).append h

/-! ## The three layouts -/

section Layouts

variable {negative : Bool} {sign : Text} (hsign : SignSpelling negative sign) (k : Nat)

/-- A numeral with the number `± k · 10 ^ e` whose digits do not reach further than those of it. -/
structure Represents (n : Numeral) (negative : Bool) (k : Nat) (e : ℤ) : Prop where
  negative_eq : n.negative = negative
  value_eq : n.value = Decimal.number negative k e
  place_le : Decimal.adjustedExponent n.coefficient n.exponent ≤ Decimal.adjustedExponent k e
  exponent_ge : min (-1) e ≤ n.exponent

/-- A numeral with the very same digits and exponent. -/
theorem Represents.of_eq {n : Numeral} {e : ℤ} (hneg : n.negative = negative)
    (hcoefficient : n.coefficient = k) (hexponent : n.exponent = e) :
    Represents n negative k e := by
  refine ⟨hneg, ?_, ?_, ?_⟩
  · rw [value, hneg, hcoefficient, hexponent]
  · rw [hcoefficient, hexponent]
  · rw [hexponent]
    omega

include hsign in
/-- Digits, zeros up to the point, and one zero behind it. -/
theorem spelling_zerosBehind (e : Nat) :
    ∃ n, Represents n negative k e ∧
      Spelling n (sign ++ (Text.ofNat k ++ Text.replicate e "0" ++ ".0")) := by
  have hdigits : Text.IsDigits (Text.ofNat k ++ Text.replicate e "0") :=
    (Text.isDigits_ofNat k).append (Text.isDigits_replicate_zero e)
  let n : Numeral := ⟨negative, Text.ofNat k ++ Text.replicate e "0", "0", 0⟩
  have hcoefficient : n.coefficient = k * 10 ^ (e + 1) := by
    show Text.digitsValue (Text.ofNat k ++ Text.replicate e "0" ++ Text.ofString "0") = _
    rw [Text.digitsValue_append, Text.digitsValue_append, Text.digitsValue_ofNat,
      Text.digitsValue_replicate_zero, Text.replicate_zero, List.length_replicate, pow_succ,
      ← mul_assoc]
    rfl
  have hexponent : n.exponent = (e : ℤ) - (e + 1 : Nat) := by
    show (0 : ℤ) - 1 = _
    push_cast
    omega
  have hplace := digitCount_mul_pow_le k (e + 1)
  refine ⟨n, ⟨rfl, ?_, ?_, ?_⟩, ?_⟩
  · rw [value, hcoefficient, hexponent, Decimal.number_mul_pow_coefficient]
  · rw [hcoefficient, hexponent]
    unfold Decimal.adjustedExponent
    push_cast
    omega
  · rw [hexponent]
    push_cast
    omega
  · have hpoint :
        PointSpelling n.whole n.fraction (n.whole ++ CodePoint.ofChar '.' :: n.fraction) :=
      .pointed (.inr (by simp [n, Text.ofString_zero]))
    have hspell := Spelling.mk (n := n) hsign hpoint hdigits Text.isDigits_zero .absent
    rwa [List.append_nil] at hspell

include hsign in
/-- The point among the digits, filled up with zeros in front. -/
theorem spelling_pointAmong (places : Nat) (hplaces : 0 < places) :
    let padded := (Text.ofNat k).padZeros (places + 1)
    ∃ n, Represents n negative k (-places) ∧
      Spelling n (sign ++ (padded.take (padded.length - places) ++ "."
        ++ padded.drop (padded.length - places))) := by
  intro padded
  have hlength : places + 1 ≤ padded.length := by
    rw [length_padZeros]
    exact le_max_left ..
  have hdigits : Text.IsDigits padded := isDigits_padZeros _ (Text.isDigits_ofNat k)
  let whole := padded.take (padded.length - places)
  let fraction := padded.drop (padded.length - places)
  have hfraction : fraction.length = places := by
    rw [List.length_drop]
    omega
  let n : Numeral := ⟨negative, whole, fraction, 0⟩
  have hcoefficient : n.coefficient = k := by
    show Text.digitsValue (whole ++ fraction) = k
    rw [List.take_append_drop, Text.digitsValue_padZeros, Text.digitsValue_ofNat]
  have hexponent : n.exponent = -places := by
    show (0 : ℤ) - fraction.length = _
    omega
  refine ⟨n, .of_eq k rfl hcoefficient hexponent, ?_⟩
  have hpoint : PointSpelling whole fraction (whole ++ CodePoint.ofChar '.' :: fraction) :=
    .pointed (.inr (by rw [← List.length_pos_iff]; omega))
  have hspell := Spelling.mk (n := n) hsign hpoint
    (fun c hc => hdigits c (List.mem_of_mem_take hc))
    (fun c hc => hdigits c (List.mem_of_mem_drop hc)) .absent
  rw [List.append_nil] at hspell
  rwa [List.append_assoc]

/-- The written power of ten, with its sign and at least so many digits. -/
theorem powerSpelling_padded (width : Nat) (place : ℤ) :
    PowerSpelling place
      (Text.ofString (if place < 0 then "e-" else "e+")
        ++ (Text.ofNat place.natAbs).padZeros width) := by
  have hdigits := isDigits_padZeros width (Text.isDigits_ofNat place.natAbs)
  have hne : (Text.ofNat place.natAbs).padZeros width ≠ [] := by
    rw [← List.length_pos_iff, length_padZeros, Text.length_ofNat]
    have := digitCount_pos place.natAbs
    omega
  have hvalue : ((Text.ofNat place.natAbs).padZeros width).digitsValue = place.natAbs := by
    rw [Text.digitsValue_padZeros, Text.digitsValue_ofNat]
  split
  · next h =>
    have hspell := PowerSpelling.present (.inl rfl) .minus hne hdigits
    rw [hvalue] at hspell
    have hplace : Decimal.signed true place.natAbs = place := by
      simp only [Decimal.signed, if_true]
      omega
    rwa [hplace] at hspell
  · next h =>
    have hspell := PowerSpelling.present (.inl rfl) .plus hne hdigits
    rw [hvalue] at hspell
    have hplace : Decimal.signed false place.natAbs = place := by
      simp only [Decimal.signed, Bool.false_eq_true, if_false]
      omega
    rwa [hplace] at hspell

/-- One digit in front of the point and the others behind it, without a point if there are none. -/
theorem pointSpelling_leading {digits : Text} (hne : digits ≠ []) :
    PointSpelling (digits.take 1) (digits.drop 1)
      (digits.take 1 ++ if digits.length = 1 then [] else Text.ofString "." ++ digits.drop 1) := by
  have htake : digits.take 1 ≠ [] := by
    cases digits with
    | nil => exact absurd rfl hne
    | cons c digits => simp
  split
  · next h =>
    rw [List.append_nil, List.drop_eq_nil_of_le (by omega)]
    exact .whole htake
  · exact .pointed (.inl htake)

include hsign in
/-- One digit in front of the point and a power of ten. -/
theorem spelling_powered (width : Nat) (e : ℤ) :
    let digits := Text.ofNat k
    let place := e + (digits.length : ℤ) - 1
    ∃ n, Represents n negative k e ∧
      Spelling n (sign ++ (digits.take 1
        ++ (if digits.length = 1 then [] else Text.ofString "." ++ digits.drop 1)
        ++ Text.ofString (if place < 0 then "e-" else "e+")
        ++ (Text.ofNat place.natAbs).padZeros width)) := by
  intro digits place
  have hdigits : Text.IsDigits digits := Text.isDigits_ofNat k
  have hlength : 0 < digits.length := List.length_pos_iff.mpr (Text.ofNat_ne_nil k)
  let n : Numeral := ⟨negative, digits.take 1, digits.drop 1, place⟩
  have hcoefficient : n.coefficient = k := by
    show Text.digitsValue (digits.take 1 ++ digits.drop 1) = k
    rw [List.take_append_drop, Text.digitsValue_ofNat]
  have hexponent : n.exponent = e := by
    show place - (digits.drop 1).length = e
    rw [List.length_drop]
    omega
  refine ⟨n, .of_eq k rfl hcoefficient hexponent, ?_⟩
  have hspell := Spelling.mk (n := n) hsign (pointSpelling_leading (Text.ofNat_ne_nil k))
    (fun c hc => hdigits c (List.mem_of_mem_take hc))
    (fun c hc => hdigits c (List.mem_of_mem_drop hc)) (powerSpelling_padded width place)
  rwa [List.append_assoc (digits.take 1 ++ _)]

include hsign in
/-- Laid out in any format, `± k · 10 ^ e` spells a numeral with that number. -/
theorem spelling_layOut (f : FloatFormat) (e : ℤ) :
    ∃ n, Represents n negative k e ∧ Spelling n (sign ++ layOut f (Text.ofNat k) e) := by
  unfold layOut
  dsimp only
  split
  · split
    · next he =>
      obtain ⟨n, hn, hspell⟩ := spelling_zerosBehind hsign k e.toNat
      rw [Int.toNat_of_nonneg he] at hn
      exact ⟨n, hn, hspell⟩
    · next he =>
      obtain ⟨n, hn, hspell⟩ := spelling_pointAmong hsign k (-e).toNat (by omega)
      rw [Int.toNat_of_nonneg (by omega), neg_neg] at hn
      exact ⟨n, hn, hspell⟩
  · exact spelling_powered hsign k f.powerWidth e

end Layouts

/-! ## The digits of a float stay within bounds -/

theorem significand_lt (x : Binary64) : x.significand < 2 ^ 53 := by
  have hfraction : x.fractionField < fractionSize := Nat.mod_lt _ (by decide)
  unfold significand
  unfold fractionSize at *
  split <;> omega

theorem exponent_mem {x : Binary64} (hx : x.isFinite = true) :
    -1074 ≤ x.exponent ∧ x.exponent ≤ 971 := by
  have hmagnitude : x.magnitude < infiniteMagnitude := of_decide_eq_true hx
  have hfield : x.exponentField ≤ 2046 := by
    have hlt : x.exponentField < 2047 :=
      Nat.div_lt_of_lt_mul (by simpa [fractionSize, infiniteMagnitude] using hmagnitude)
    omega
  unfold exponent
  omega

/-- A generous bound: powers of two are taken for powers of ten. -/
theorem floorOnGrid_lt {m : Nat} (hm : m < 2 ^ 53) (q i : ℤ) :
    floorOnGrid m q i < 10 ^ (53 + q.toNat + (-i).toNat) := by
  have hpow : (2 : Nat) ^ (53 + q.toNat) ≤ 10 ^ (53 + q.toNat) :=
    Nat.pow_le_pow_left (by decide) _
  calc floorOnGrid m q i ≤ m * 2 ^ q.toNat * 10 ^ (-i).toNat := Nat.div_le_self ..
    _ < 2 ^ 53 * 2 ^ q.toNat * 10 ^ (-i).toNat := by gcongr
    _ ≤ 10 ^ (53 + q.toNat) * 10 ^ (-i).toNat := by
      rw [← pow_add]
      exact Nat.mul_le_mul_right _ hpow
    _ = 10 ^ (53 + q.toNat + (-i).toNat) := (pow_add ..).symm

theorem decimalPlace_mem {m : Nat} {q : ℤ} (hm : m < 2 ^ 53) (hq : q ≤ 971) :
    -340 ≤ decimalPlace m q ∧ decimalPlace m q ≤ 1023 := by
  have hpos := digitCount_pos (floorOnGrid m q (-340))
  have hle := (digitCount_le_iff (by omega)).mpr (floorOnGrid_lt hm q (-340))
  unfold decimalPlace
  omega

theorem le_of_nearestOnGrid? {m n : Nat} {q i : ℤ} (h : nearestOnGrid? m q i = some n) :
    n ≤ floorOnGrid m q i + 1 := by
  unfold nearestOnGrid? at h
  dsimp only at h
  split at h
  · split at h <;> cases h <;> omega
  · cases h
    omega
  · cases h
    omega
  · cases h

/-- Generous bounds for the digits and the exponent of a shortest decimal. -/
theorem shortest_bounds {m : Nat} {q : ℤ} (hm : m < 2 ^ 53) (hq : q ≤ 971) :
    digitCount (shortest m q).1 ≤ 1383 ∧ -358 ≤ (shortest m q).2 ∧ (shortest m q).2 ≤ 1024 := by
  unfold shortest
  cases hfound : (gridExponents m q).findSome? fun i =>
      (nearestOnGrid? m q i).map fun n => (n, i) with
  | none => exact ⟨by decide, by decide, by decide⟩
  | some pair =>
    obtain ⟨i, hi, hpair⟩ := List.exists_of_findSome?_eq_some hfound
    obtain ⟨n, hn, rfl⟩ := Option.map_eq_some_iff.mp hpair
    obtain ⟨j, hj, rfl⟩ := List.mem_map.mp hi
    have hjlt := List.mem_range.mp hj
    have hplace := decimalPlace_mem hm hq
    refine ⟨?_, ?_, ?_⟩
    · -- Rounding up can add one, which one more digit has room for.
      have hgrid := floorOnGrid_lt hm q (decimalPlace m q + 1 - (j : ℤ))
      have hlt : n < 10 ^ (53 + q.toNat + (-(decimalPlace m q + 1 - (j : ℤ))).toNat + 1) :=
        calc n ≤ floorOnGrid m q (decimalPlace m q + 1 - (j : ℤ)) + 1 := le_of_nearestOnGrid? hn
          _ ≤ 10 ^ (53 + q.toNat + (-(decimalPlace m q + 1 - (j : ℤ))).toNat) := hgrid
          _ < _ := Nat.pow_lt_pow_right (by decide) (by omega)
      have hcount := (digitCount_le_iff (by omega)).mpr hlt
      show digitCount n ≤ 1383
      omega
    · show -358 ≤ decimalPlace m q + 1 - (j : ℤ)
      omega
    · show decimalPlace m q + 1 - (j : ℤ) ≤ 1024
      omega

/-! ## The text of a float -/

/-- The shortest decimal of the magnitude of a finite float, as coefficient and exponent. -/
def digits (x : Binary64) : Nat × ℤ :=
  if x.magnitude = 0 then (0, 0) else shortest x.significand x.exponent

theorem digits_bounds {x : Binary64} (hx : x.isFinite = true) :
    digitCount x.digits.1 ≤ 1383 ∧ -358 ≤ x.digits.2 ∧ x.digits.2 ≤ 1024 := by
  unfold digits
  split
  · decide
  · exact shortest_bounds x.significand_lt (exponent_mem hx).2

theorem text_eq_layOut {x : Binary64} (hx : x.isFinite = true) :
    x.text = (if x.negative then [CodePoint.ofChar '-'] else []) ++
      layOut .display (Text.ofNat x.digits.1) x.digits.2 := by
  have hminus : Text.ofString "-" = [CodePoint.ofChar '-'] := rfl
  have hzero : Text.ofString "0.0" = layOut .display (Text.ofNat 0) 0 := by decide
  unfold text shortestText digits
  rw [if_pos hx, hminus, hzero]
  dsimp only
  split <;> rfl

/-- The text of a finite float spells a numeral that every decimal can hold. -/
theorem spelling_text {x : Binary64} (hx : x.isFinite = true) :
    ∃ n, Represents n x.negative x.digits.1 x.digits.2 ∧ Spelling n x.text ∧ n.WithinBounds := by
  have hsign : SignSpelling x.negative (if x.negative then [CodePoint.ofChar '-'] else []) := by
    cases x.negative
    · exact .unsigned
    · exact .minus
  obtain ⟨n, hn, hspell⟩ := spelling_layOut hsign x.digits.1 .display x.digits.2
  obtain ⟨hcount, hlow, hhigh⟩ := digits_bounds hx
  refine ⟨n, hn, by rwa [text_eq_layOut hx], ?_, ?_⟩
  · refine hn.place_le.trans ?_
    unfold Decimal.adjustedExponent maxAdjustedExponent
    omega
  · refine le_trans ?_ hn.exponent_ge
    unfold minExponent
    omega

end Binary64

end Telemetry
