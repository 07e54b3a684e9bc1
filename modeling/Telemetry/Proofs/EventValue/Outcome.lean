import Telemetry.Proofs.EventValue.Numerals
import Telemetry.Proofs.EventValue.Representation
import Telemetry.Proofs.LogLine

/-!
# How an event value is taken

Whatever is passed as an event value is taken in one of four ways: it has a stored form, it is of
another kind than a number, it is refused, or it is an integer beyond the range of which not even
the refusal can be worded, as it has too many digits (`EventValue.normalize_ends`). Which way it is
depends on the kind of the value and on the number that it is read as.
-/

namespace Telemetry

/-- The texts of infinities and NaNs are no numerals. -/
theorem Binary64.ofText?_specialText (x : Binary64) : Decimal.ofText? x.specialText = none := by
  unfold specialText
  split
  · decide
  · split <;> decide

namespace Datum

/-- The datum is nothing, a number or a text. -/
def IsEventValueKind : Datum → Prop
  | null | int _ | float _ | text _ | decimal _ => True
  | _ => False

/-- The datum is an integer with more digits than can be written. -/
def IsUnwritableInt : Datum → Prop
  | int i => isLongInt i = true
  | _ => False

/-- The datum is taken for this number: it stands for it, and no bound is in the way. -/
structure ReadsAs (d : Datum) (q : ℚ) : Prop where
  denotes : d.Denotes q
  convertible : d.IsConvertible

variable {d : Datum} {q : ℚ}

theorem ReadsAs.isEventValueKind (h : d.ReadsAs q) : d.IsEventValueKind := by
  cases d with
  | null | int | float | text | decimal => trivial
  | _ => exact h.denotes.elim

theorem ReadsAs.not_isUnwritableInt (h : d.ReadsAs q) : ¬d.IsUnwritableInt := by
  cases d with
  | int i =>
    intro hlong
    exact Bool.false_ne_true (h.convertible.symm.trans hlong)
  | _ => exact id

end Datum

namespace EventValue

/-- What is stored of a value: nothing of nothing, else its number, cut off at the sixth place. -/
inductive StoredForm (value : Datum) : Option Int → Prop where
  | null (hnull : value = .null) : StoredForm value none
  | number {q : ℚ} (hnumber : value.ReadsAs q) (hrange : InRange q) :
    StoredForm value (some (towardZero (q * 10 ^ 6)))

/-- The class that a value is refused under: it is no number, or its number is beyond the range. -/
inductive Refusal (value : Datum) : RejectionClass → Prop where
  | notANumber (hnull : value ≠ .null) (hnumber : ∀ q, ¬value.ReadsAs q) :
    Refusal value .notANumber
  | invalidField {q : ℚ} (hnumber : value.ReadsAs q) (hrange : ¬InRange q) :
    Refusal value .invalidField

/-- How a value is taken. -/
inductive NormalizeEnds (value : Datum) : Except Fault (Option Int) → Prop where
  | stored (hkind : value.IsEventValueKind) (hwritable : ¬value.IsUnwritableInt)
    {o : Option Int} (h : StoredForm value o) : NormalizeEnds value (.ok o)
  | otherKind (hkind : ¬value.IsEventValueKind) :
    NormalizeEnds value (.error (.notNumber value.kindName))
  | refused (hkind : value.IsEventValueKind) (hwritable : ¬value.IsUnwritableInt)
    {r : Rejection} (hfield : r.field = .eventValue) (hvalue : r.value = value)
    (h : Refusal value r.kind) : NormalizeEnds value (.error (.rejected r))
  | unwritable (h : value.IsUnwritableInt) : NormalizeEnds value (.error .longInt)

variable {value : Datum} (c : DecimalContext)

theorem normalize_of_error {fault : Fault} (hd : toDecimal value = .error fault) :
    normalize c value = .error fault := by
  unfold normalize
  rw [hd]

theorem normalize_of_not_isEventValueKind (h : ¬value.IsEventValueKind) :
    normalize c value = .error (.notNumber value.kindName) := by
  cases value with
  | null | int | float | text | decimal => exact absurd trivial h
  | _ => rfl

theorem not_inRange_of_isLongInt {i : Int} (h : Datum.isLongInt i = true) : ¬InRange i := by
  rintro ⟨hlow, hhigh⟩
  have hlow : minWhole ≤ i := by exact_mod_cast hlow
  have hhigh : i ≤ maxWhole := by exact_mod_cast hhigh
  unfold minWhole at hlow
  unfold maxWhole at hhigh
  have hshort : Datum.isLongInt i = false := Datum.isLongInt_of_lt (by omega)
  exact Bool.false_ne_true (hshort.symm.trans h)

/-- Not only the integer, but its refusal too has no text. -/
theorem normalize_of_isUnwritableInt (h : value.IsUnwritableInt) :
    normalize c value = .error .longInt := by
  cases value with
  | int i =>
    rw [normalize_of_toDecimal c rfl (value?_ofInt i), if_neg (not_inRange_of_isLongInt h)]
    exact if_pos h
  | _ => exact h.elim

theorem normalizeEnds_of_readsAs {q : ℚ} (hq : value.ReadsAs q) :
    NormalizeEnds value (normalize c value) := by
  rw [normalize_of_denotes c hq.denotes hq.convertible]
  split
  · next hrange =>
    exact .stored hq.isEventValueKind hq.not_isUnwritableInt (.number hq hrange)
  · next hrange =>
    exact .refused hq.isEventValueKind hq.not_isUnwritableInt rfl rfl (.invalidField hq hrange)

theorem toDecimal_float_of_not_finite {x : Binary64} (hx : x.isFinite = false) :
    toDecimal (.float x) = .error (reject (.float x) .notANumber) := by
  unfold toDecimal Binary64.text
  simp only [hx, Bool.false_eq_true, if_false, x.ofText?_specialText]

theorem normalize_float_of_not_finite {x : Binary64} (hx : x.isFinite = false) :
    Refused (.float x) .notANumber (normalize c (.float x)) := by
  rw [normalize_of_error c (toDecimal_float_of_not_finite hx)]
  exact refused_reject _ .notANumber

/-- A text is no number if it spells none, or one that no decimal can hold. -/
theorem normalize_text_of_not_readsAs {t : Text} (h : ∀ q, ¬(Datum.text t).ReadsAs q) :
    Refused (.text t) .notANumber (normalize c (.text t)) := by
  by_cases ht : t ∈ Numeral.pattern
  · obtain ⟨n, hn⟩ := Numeral.mem_pattern_iff.mp ht
    refine normalize_beyond_bounds c hn fun hbounds => h n.value ⟨⟨n, hn, rfl⟩, fun m hm => ?_⟩
    rwa [hm.unique hn]
  · rw [normalize_of_error c (toDecimal_of_not_mem_pattern ht)]
    exact refused_reject _ .notANumber

/-- A value of the right kind that is read as no number is refused for that. -/
theorem refused_of_not_readsAs (hkind : value.IsEventValueKind)
    (hwritable : ¬value.IsUnwritableInt) (hnull : value ≠ .null)
    (h : ∀ q, ¬value.ReadsAs q) : Refused value .notANumber (normalize c value) := by
  cases value with
  | null => exact absurd rfl hnull
  | int i => exact absurd ⟨rfl, Bool.eq_false_of_not_eq_true hwritable⟩ (h i)
  | float x =>
    refine normalize_float_of_not_finite c (Bool.eq_false_of_not_eq_true fun hx => ?_)
    obtain ⟨q, hq⟩ := Datum.exists_denotes_float hx
    exact h q ⟨hq, trivial⟩
  | text t => exact normalize_text_of_not_readsAs c h
  | decimal d =>
    have hspecial : d.value? = none :=
      Option.eq_none_iff_forall_ne_some.mpr fun q hq => h q ⟨hq, trivial⟩
    have hrefused := normalize_decimal c d
    rwa [hspecial] at hrefused
  | _ => exact hkind.elim

theorem normalize_ends (value : Datum) : NormalizeEnds value (normalize c value) := by
  by_cases hlong : value.IsUnwritableInt
  · rw [normalize_of_isUnwritableInt c hlong]
    exact .unwritable hlong
  by_cases hkind : value.IsEventValueKind
  swap
  · rw [normalize_of_not_isEventValueKind c hkind]
    exact .otherKind hkind
  by_cases hnull : value = .null
  · subst hnull
    exact .stored hkind hlong (.null rfl)
  by_cases hnumber : ∃ q, value.ReadsAs q
  · obtain ⟨q, hq⟩ := hnumber
    exact normalizeEnds_of_readsAs c hq
  · have hnumber := not_exists.mp hnumber
    obtain ⟨r, hr, hfield, hvalue, hclass⟩ := refused_of_not_readsAs c hkind hlong hnull hnumber
    rw [hr]
    exact .refused hkind hlong hfield hvalue (hclass ▸ .notANumber hnull hnumber)

end EventValue

end Telemetry
