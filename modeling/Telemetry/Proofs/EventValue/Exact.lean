import Telemetry.EventValue
import Telemetry.Proofs.Decimal.Value

/-!
# Event values are exact

What becomes of an event value is decided by the number that its decimal denotes and by nothing
else: beyond the range it is refused, within the range it is cut off toward zero after the sixth
place (`EventValue.normalize_of_toDecimal`). Neither the precision nor the rounding of the context
has a part in it. For a decimal that is passed as such this is `EventValue.normalize_decimal`.
-/

namespace Telemetry

namespace EventValue

/-- The numbers that may be given. -/
def InRange (q : ℚ) : Prop := minWhole ≤ q ∧ q ≤ maxWhole

instance (q : ℚ) : Decidable (InRange q) := inferInstanceAs (Decidable (_ ∧ _))

/-- The result is a rejection of this class; it names the field and carries the value. -/
def Refused (value : Datum) (kind : RejectionClass) (result : Except Fault (Option Int)) : Prop :=
  ∃ r, result = .error (.rejected r) ∧ r.field = .eventValue ∧ r.value = value ∧ r.kind = kind

theorem refused_reject (value : Datum) (cause : RejectionCause) :
    Refused value (Rejection.kind ⟨.eventValue, value, cause⟩) (.error (reject value cause)) :=
  ⟨_, rfl, rfl, rfl, rfl⟩

theorem isOutOfRange_iff (negative : Bool) (k : Nat) (e : ℤ) :
    isOutOfRange (.finite negative k e) = true ↔ ¬ InRange (Decimal.number negative k e) := by
  have hk : (0 : ℚ) ≤ k * 10 ^ e := by positivity
  unfold isOutOfRange InRange
  rw [Decimal.exceeds_iff, not_and_or, not_le, not_le]
  cases negative
  · simp only [Decimal.number, maxWhole, minWhole, Bool.false_eq_true, if_false]
    norm_num
    intro h
    linarith
  · simp only [Decimal.number, maxWhole, minWhole, if_true]
    norm_num
    intro h
    linarith

/-- The widened context keeps every digit that truncation can see. -/
theorem inStoredUnits_finite (c : DecimalContext) (negative : Bool) (k : Nat) (e : ℤ) :
    inStoredUnits c (.finite negative k e) =
      some (towardZero (Decimal.number negative k e * 10 ^ 6)) := by
  have hwide : digitCount k < (c.widen (digitCount k + scaleDigits + 1)).precision :=
    lt_of_lt_of_le (by omega) (le_max_right ..)
  unfold inStoredUnits digitsOf Decimal.scale
  rw [Decimal.truncate?_rounded hwide, Decimal.truncate?_finite, Decimal.number_mul_pow]
  rfl

/-- Nothing would be stored for a special value, if one came so far. -/
theorem normalize_special (c : DecimalContext) {value : Datum} {d : Decimal}
    (hd : toDecimal value = .ok (some d)) (hq : d.value? = none) :
    normalize c value = .ok none := by
  unfold normalize
  rw [hd]
  cases d with
  | finite negative k e => cases hq
  | infinity | nan => rfl

/-- What becomes of a value whose decimal is known depends on the number alone. -/
theorem normalize_of_toDecimal (c : DecimalContext) {value : Datum} {d : Decimal} {q : ℚ}
    (hd : toDecimal value = .ok (some d)) (hq : d.value? = some q) :
    normalize c value =
      if InRange q then .ok (some (towardZero (q * 10 ^ 6)))
      else if value.hasLongInt then .error .longInt
      else .error (reject value .outOfRange) := by
  cases d with
  | infinity | nan => cases hq
  | finite negative k e =>
    obtain rfl : Decimal.number negative k e = q := Option.some.inj hq
    unfold normalize
    rw [hd]
    simp only [isOutOfRange_iff, inStoredUnits_finite, ite_not]

/-- What is stored for a number in range is in the stored range. -/
theorem stored_mem {q : ℚ} (h : InRange q) :
    minStored ≤ towardZero (q * 10 ^ 6) ∧ towardZero (q * 10 ^ 6) ≤ maxStored := by
  obtain ⟨hlow, hhigh⟩ := h
  apply towardZero_mem
  · have hmin : ((minStored : ℤ) : ℚ) = minWhole * 10 ^ 6 := by
      norm_num [minStored, minWhole, scale, scaleDigits, pow10]
    rw [hmin]
    linarith
  · have hmax : ((maxStored : ℤ) : ℚ) = maxWhole * 10 ^ 6 := by
      norm_num [maxStored, maxWhole, scale, scaleDigits, pow10]
    rw [hmax]
    linarith

/-- Whatever is stored, for a datum of any kind, is in the stored range. -/
theorem mem_of_normalize {c : DecimalContext} {value : Datum} {i : ℤ}
    (h : normalize c value = .ok (some i)) : minStored ≤ i ∧ i ≤ maxStored := by
  rcases hd : toDecimal value with fault | d?
  · simp [normalize, hd] at h
  rcases d? with _ | d
  · simp [normalize, hd] at h
  cases hq : d.value? with
  | none =>
    rw [normalize_special c hd hq] at h
    cases h
  | some q =>
    rw [normalize_of_toDecimal c hd hq] at h
    split at h
    · next hrange =>
      obtain rfl := Option.some.inj (Except.ok.inj h)
      exact stored_mem hrange
    · split at h <;> cases h

theorem toDecimal_finite {d : Decimal} {q : ℚ} (hq : d.value? = some q) :
    toDecimal (.decimal d) = .ok (some d) := by
  cases d with
  | infinity | nan => cases hq
  | finite negative k e => rfl

/--
A decimal is refused as no number if it is a special value, refused as out of range if it is beyond
the ends by however little, and else cut off toward zero at the sixth place, in every context.
-/
theorem normalize_decimal (c : DecimalContext) (d : Decimal) :
    match d.value? with
    | none => Refused (.decimal d) .notANumber (normalize c (.decimal d))
    | some q =>
      if 2 ^ 31 - 1 < q ∨ q < -2 ^ 31 then
        Refused (.decimal d) .invalidField (normalize c (.decimal d))
      else
        ∃ i : ℤ, normalize c (.decimal d) = .ok (some i) ∧ i = towardZero (q * 10 ^ 6) ∧
          -2 ^ 31 * 10 ^ 6 ≤ i ∧ i ≤ (2 ^ 31 - 1) * 10 ^ 6 := by
  cases hq : d.value? with
  | none =>
    cases d with
    | finite negative k e => cases hq
    | infinity negative => exact refused_reject _ .notFinite
    | nan negative signaling payload => exact refused_reject _ .notFinite
  | some q =>
    have hnormal := normalize_of_toDecimal c (toDecimal_finite hq) hq
    have hrange : (2 ^ 31 - 1 < q ∨ q < -2 ^ 31) ↔ ¬ InRange q := by
      rw [InRange, not_and_or, not_le, not_le, or_comm]
      norm_num [minWhole, maxWhole]
    simp only [hrange, ite_not]
    split
    · next h => exact ⟨_, by rw [hnormal, if_pos h], rfl, stored_mem h⟩
    · next h =>
      rw [hnormal, if_neg h]
      exact refused_reject _ .outOfRange

end EventValue

end Telemetry
