import Telemetry.Proofs.Binary64.Layout
import Telemetry.Proofs.EventValue.Exact

/-!
# Event values do not depend on how they are written

`Datum.Denotes` is the number that an integer, a finite float, a numeral or a finite decimal stands
for. All four are turned into a decimal with that number (`EventValue.toDecimal_of_denotes`), so
two of them with one number have one outcome. The exceptions are the numerals whose power of ten no
decimal can hold: they are refused as no numbers at all, zeros among them.
-/

namespace Telemetry

namespace Numeral

/-- A text spells one numeral at most. -/
theorem Spelling.unique {m n : Numeral} {t : Text} (hm : Spelling m t) (hn : Spelling n t) :
    m = n :=
  Option.some.inj ((ofText?_of_spelling hm).symm.trans (ofText?_of_spelling hn))

end Numeral

namespace Datum

/-- The number that a datum stands for. A float stands for the number that its text spells. -/
def Denotes : Datum → ℚ → Prop
  | int i, q => (i : ℚ) = q
  | float x, q => x.isFinite = true ∧ ∃ n, Numeral.Spelling n x.text ∧ n.value = q
  | text t, q => ∃ n, Numeral.Spelling n t ∧ n.value = q
  | decimal d, q => d.value? = some q
  | _, _ => False

/-- The text of an integer is not too long, nor the power of ten of a numeral out of bounds. -/
def IsConvertible : Datum → Prop
  | int i => isLongInt i = false
  | text t => ∀ n, Numeral.Spelling n t → n.WithinBounds
  | _ => True

theorem hasLongInt_of_denotes {v : Datum} {q : ℚ} (hq : v.Denotes q) (hv : v.IsConvertible) :
    v.hasLongInt = false := by
  cases v with
  | int i => exact hv
  | float | text | decimal => rfl
  | _ => exact hq.elim

theorem exists_denotes_float {x : Binary64} (hx : x.isFinite = true) :
    ∃ q, (float x).Denotes q := by
  obtain ⟨n, -, hspell, -⟩ := Binary64.spelling_text hx
  exact ⟨n.value, hx, n, hspell, rfl⟩

end Datum

namespace EventValue

open Numeral

/-- One outcome for both: the same stored integer, or a refusal as out of range. -/
def SameOutcome (c : DecimalContext) (v w : Datum) : Prop :=
  (∃ i, normalize c v = .ok (some i) ∧ normalize c w = .ok (some i)) ∨
    Refused v .invalidField (normalize c v) ∧ Refused w .invalidField (normalize c w)

theorem value?_ofInt (i : ℤ) : (Decimal.ofInt i).value? = some (i : ℚ) := by
  show some (Decimal.number (decide (i < 0)) i.natAbs 0) = some (i : ℚ)
  unfold Decimal.number
  rw [zpow_zero, mul_one]
  congr 1
  split
  · next h =>
    have hneg : i < 0 := of_decide_eq_true h
    rw [← Int.cast_natCast, Int.ofNat_natAbs_of_nonpos hneg.le]
    push_cast
    ring
  · next h =>
    have hpos : 0 ≤ i := by simpa using h
    rw [← Int.cast_natCast, Int.natAbs_of_nonneg hpos]

/-- Every form is turned into a decimal with the number that it stands for. -/
theorem toDecimal_of_denotes {v : Datum} {q : ℚ} (hq : v.Denotes q) (hv : v.IsConvertible) :
    ∃ d, toDecimal v = .ok (some d) ∧ d.value? = some q := by
  cases v with
  | int i =>
    obtain rfl : (i : ℚ) = q := hq
    exact ⟨.ofInt i, rfl, value?_ofInt i⟩
  | float x =>
    obtain ⟨hx, n, hspell, rfl⟩ := hq
    -- A text spells one numeral only, so it is the printed one, which is within the bounds.
    obtain ⟨m, -, hm, hbounds⟩ := Binary64.spelling_text hx
    obtain rfl := hm.unique hspell
    refine ⟨.finite m.negative m.coefficient m.exponent, ?_, rfl⟩
    unfold toDecimal
    dsimp only
    rw [ofText?_decimal hspell, if_pos hbounds]
  | text t =>
    obtain ⟨n, hspell, rfl⟩ := hq
    refine ⟨.finite n.negative n.coefficient n.exponent, ?_, rfl⟩
    unfold toDecimal
    dsimp only
    rw [ofText?_decimal hspell, if_pos (hv n hspell)]
  | decimal d => exact ⟨d, toDecimal_finite hq, hq⟩
  | _ => exact hq.elim

/-- What becomes of a datum that stands for a number depends on the number alone. -/
theorem normalize_of_denotes (c : DecimalContext) {v : Datum} {q : ℚ} (hq : v.Denotes q)
    (hv : v.IsConvertible) :
    normalize c v =
      if InRange q then .ok (some (towardZero (q * 10 ^ 6)))
      else .error (reject v .outOfRange) := by
  obtain ⟨d, hd, hvalue⟩ := toDecimal_of_denotes hq hv
  rw [normalize_of_toDecimal c hd hvalue, Datum.hasLongInt_of_denotes hq hv]
  rfl

/-- A numeral beyond the bounds of decimals is refused as no number. -/
theorem normalize_beyond_bounds (c : DecimalContext) {t : Text} {n : Numeral}
    (hspell : Spelling n t) (hbounds : ¬ n.WithinBounds) :
    Refused (.text t) .notANumber (normalize c (.text t)) := by
  have hdecimal : toDecimal (.text t) = .error (reject (.text t) .notANumber) := by
    unfold toDecimal
    dsimp only
    rw [ofText?_decimal hspell, if_neg hbounds]
  unfold normalize
  rw [hdecimal]
  exact refused_reject _ .notANumber

/--
Two data that stand for one number have one outcome, however they are written, and every finite
float stands for a number. Numerals whose power of ten no decimal can hold are refused instead.
-/
theorem normalize_representation (c : DecimalContext) :
    (∀ {v w : Datum} {q : ℚ}, v.Denotes q → w.Denotes q → v.IsConvertible → w.IsConvertible →
      SameOutcome c v w) ∧
    (∀ {x : Binary64}, x.isFinite = true → ∃ q, (Datum.float x).Denotes q) ∧
    ∀ {t : Text} {n : Numeral}, Spelling n t → ¬ n.WithinBounds →
      Refused (.text t) .notANumber (normalize c (.text t)) := by
  refine ⟨?_, Datum.exists_denotes_float, normalize_beyond_bounds c⟩
  intro v w q hv hw hvc hwc
  unfold SameOutcome
  rw [normalize_of_denotes c hv hvc, normalize_of_denotes c hw hwc]
  by_cases h : InRange q
  · simp only [h, if_true]
    exact .inl ⟨_, rfl, rfl⟩
  · simp only [h, if_false]
    exact .inr ⟨refused_reject v .outOfRange, refused_reject w .outOfRange⟩

section Powered

variable (whole power : Nat)

/-- The numeral of whole digits and a power of ten. -/
def powered : Numeral := ⟨false, Text.ofNat whole, [], power⟩

theorem spelling_powered :
    Spelling (powered whole power)
      (Text.ofNat whole ++ CodePoint.ofChar 'e' :: Text.ofNat power) := by
  have hpower := PowerSpelling.present (.inl rfl) .unsigned (Text.ofNat_ne_nil power)
    (Text.isDigits_ofNat power)
  rw [Text.digitsValue_ofNat] at hpower
  exact Spelling.mk (n := powered whole power) .unsigned (.whole (Text.ofNat_ne_nil whole))
    (Text.isDigits_ofNat whole) (by simp [powered, Text.IsDigits]) hpower

theorem coefficient_powered : (powered whole power).coefficient = whole := by
  show Text.digitsValue (Text.ofNat whole ++ []) = whole
  rw [List.append_nil, Text.digitsValue_ofNat]

theorem exponent_powered : (powered whole power).exponent = power := Int.sub_zero _

theorem value_powered : (powered whole power).value = whole * 10 ^ power := by
  rw [value, coefficient_powered, exponent_powered]
  exact congrArg _ (zpow_natCast ..)

/-- Beyond the bounds are the powers that leave no room for the digits. -/
theorem withinBounds_powered :
    (powered whole power).WithinBounds ↔ power + digitCount whole ≤ 1000000000000000000 := by
  unfold WithinBounds Decimal.adjustedExponent maxAdjustedExponent minExponent
  rw [coefficient_powered, exponent_powered]
  omega

end Powered

/-- Thirty thousand as a numeral with a power of ten and as an integer. -/
theorem normalize_representation_thirty_thousand :
    (Datum.text "3e4").Denotes 30000 ∧ (Datum.int 30000).Denotes 30000 ∧
      (Datum.text "3e4").IsConvertible ∧ (Datum.int 30000).IsConvertible ∧
      SameOutcome .standard (.text "3e4") (.int 30000) ∧
      Refused (.text "1e1000000000000000000") .notANumber
        (normalize .standard (.text "1e1000000000000000000")) := by
  have htext : Text.ofString "3e4" = Text.ofNat 3 ++ CodePoint.ofChar 'e' :: Text.ofNat 4 := by
    cbv
  have hlarge : Text.ofString "1e1000000000000000000" =
      Text.ofNat 1 ++ CodePoint.ofChar 'e' :: Text.ofNat 1000000000000000000 := by cbv
  rw [htext, hlarge]
  have hspell := spelling_powered 3 4
  have hv : (Datum.text (Text.ofNat 3 ++ CodePoint.ofChar 'e' :: Text.ofNat 4)).Denotes 30000 :=
    ⟨_, hspell, by norm_num [value_powered]⟩
  have hw : (Datum.int 30000).Denotes 30000 := by norm_num [Datum.Denotes]
  have hvc : (Datum.text (Text.ofNat 3 ++ CodePoint.ofChar 'e' :: Text.ofNat 4)).IsConvertible := by
    intro n hn
    obtain rfl := hspell.unique hn
    exact (withinBounds_powered 3 4).mpr (by decide)
  have hwc : (Datum.int 30000).IsConvertible := by
    unfold Datum.IsConvertible
    decide +kernel
  have hbounds : ¬ (powered 1 1000000000000000000).WithinBounds := by
    rw [withinBounds_powered]
    decide
  exact ⟨hv, hw, hvc, hwc, (normalize_representation .standard).1 hv hw hvc hwc,
    (normalize_representation .standard).2.2 (spelling_powered _ _) hbounds⟩

/-- A zero is refused as no number when it is written with a power of ten beyond the bounds. -/
theorem zero_beyond_bounds :
    (Datum.text "0e1000000000000000000").Denotes 0 ∧ (Datum.int 0).Denotes 0 ∧
      ¬ SameOutcome .standard (.text "0e1000000000000000000") (.int 0) := by
  have htext : Text.ofString "0e1000000000000000000" =
      Text.ofNat 0 ++ CodePoint.ofChar 'e' :: Text.ofNat 1000000000000000000 := by cbv
  rw [htext]
  have hbounds : ¬ (powered 0 1000000000000000000).WithinBounds := by
    rw [withinBounds_powered]
    decide
  obtain ⟨r, hrefused, -, -, hkind⟩ :=
    normalize_beyond_bounds .standard (spelling_powered _ _) hbounds
  refine ⟨⟨_, spelling_powered _ _, by rw [value_powered]; simp⟩, by simp [Datum.Denotes], ?_⟩
  rintro (⟨i, hi, -⟩ | ⟨⟨s, hs, -, -, hinvalid⟩, -⟩)
  · rw [hrefused] at hi
    cases hi
  · rw [hrefused] at hs
    cases hs
    rw [hkind] at hinvalid
    cases hinvalid

end EventValue

end Telemetry
