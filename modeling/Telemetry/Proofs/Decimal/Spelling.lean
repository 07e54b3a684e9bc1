import Telemetry.Decimal.Numeral
import Telemetry.Proofs.Decimal.Value

/-!
# The grammar of plain decimal numerals

`Numeral.Spelling` says which texts are numerals: an optional sign, digits with at most one point
and at least one digit, an optional power of ten. It is stated apart from the reader and does not
follow its order. The reader finds the parts of every spelling (`Numeral.ofText?_of_spelling`), so
a text spells one numeral at most, and has a decimal if the power of ten is within bounds
(`Numeral.ofText?_decimal`).
-/

namespace Telemetry

namespace Numeral

/-- The ways to write a sign; nothing stands for plus. -/
inductive SignSpelling : (negative : Bool) → Text → Prop where
  | unsigned : SignSpelling false []
  | plus : SignSpelling false [CodePoint.ofChar '+']
  | minus : SignSpelling true [CodePoint.ofChar '-']

/-- The ways to write digits around a point: the point may be missing, a digit may not. -/
inductive PointSpelling : (whole fraction : Text) → Text → Prop where
  | whole {whole : Text} (hne : whole ≠ []) : PointSpelling whole [] whole
  | pointed {whole fraction : Text} (hne : whole ≠ [] ∨ fraction ≠ []) :
    PointSpelling whole fraction (whole ++ CodePoint.ofChar '.' :: fraction)

/-- The ways to write a power of ten; nothing stands for zero. -/
inductive PowerSpelling : (power : Int) → Text → Prop where
  | absent : PowerSpelling 0 []
  | present {mark : CodePoint} {negative : Bool} {sign digits : Text}
      (hmark : mark = CodePoint.ofChar 'e' ∨ mark = CodePoint.ofChar 'E')
      (hsign : SignSpelling negative sign) (hne : digits ≠ []) (hdigits : Text.IsDigits digits) :
    PowerSpelling (Decimal.signed negative digits.digitsValue) (mark :: (sign ++ digits))

/-- The text spells the numeral. -/
inductive Spelling (n : Numeral) : Text → Prop where
  | mk {sign digits power : Text} (hsign : SignSpelling n.negative sign)
      (hpoint : PointSpelling n.whole n.fraction digits) (hwhole : Text.IsDigits n.whole)
      (hfraction : Text.IsDigits n.fraction) (hpower : PowerSpelling n.power power) :
    Spelling n (sign ++ (digits ++ power))

/-! ## The reader finds the parts -/

theorem takeSign_spelling {negative : Bool} {sign rest : Text} (h : SignSpelling negative sign)
    (hrest : ∀ c ∈ rest.head?, c ≠ CodePoint.ofChar '-' ∧ c ≠ CodePoint.ofChar '+') :
    takeSign (sign ++ rest) = (negative, rest) := by
  cases h with
  | unsigned =>
    cases rest with
    | nil => rfl
    | cons c rest =>
      obtain ⟨hminus, hplus⟩ := hrest c rfl
      simp [takeSign, hminus, hplus]
  | plus => rfl
  | minus => rfl

theorem takeDigits_append {digits rest : Text} (h : Text.IsDigits digits)
    (hrest : ∀ c ∈ rest.head?, c.isDigit = false) :
    takeDigits (digits ++ rest) = (digits, rest) := by
  unfold takeDigits
  rw [List.takeWhile_append_of_pos h, List.dropWhile_append_of_pos h]
  cases rest with
  | nil => simp
  | cons c rest => simp [hrest c rfl]

/-- A digit is no mark of a numeral. -/
theorem ne_of_isDigit {c mark : CodePoint} (h : c.isDigit = true) (hmark : mark.isDigit = false) :
    c ≠ mark := by
  rintro rfl
  rw [h] at hmark
  cases hmark

theorem head_of_isDigits {t rest : Text} (ht : Text.IsDigits t) (hne : t ≠ []) :
    ∀ c ∈ (t ++ rest).head?, c.isDigit = true := by
  cases t with
  | nil => exact absurd rfl hne
  | cons d t =>
    rintro c ⟨⟩
    exact ht d List.mem_cons_self

theorem readPower?_spelling {power : Int} {t : Text} (h : PowerSpelling power t) :
    readPower? Text.digitsValue t = some power := by
  cases h with
  | absent => rfl
  | @present mark negative sign digits hmark hsign hne hdigits =>
    have hhead : ∀ c ∈ digits.head?, c ≠ CodePoint.ofChar '-' ∧ c ≠ CodePoint.ofChar '+' := by
      intro c hc
      rw [← List.append_nil digits] at hc
      have hdigit := head_of_isDigits hdigits hne c hc
      exact ⟨ne_of_isDigit hdigit (by decide), ne_of_isDigit hdigit (by decide)⟩
    have hall : digits.all CodePoint.isDigit = true := List.all_eq_true.mpr hdigits
    simp only [readPower?, hmark, if_true, takeSign_spelling hsign hhead]
    simp [hne, hall]

/-- What follows the digits is no digit and no point. -/
theorem head_of_powerSpelling {power : Int} {t : Text} (h : PowerSpelling power t) :
    ∀ c ∈ t.head?, c.isDigit = false ∧ c ≠ CodePoint.ofChar '.' := by
  cases h with
  | absent => simp
  | @present mark negative sign digits hmark hsign hne hdigits =>
    rintro c ⟨⟩
    rcases hmark with rfl | rfl <;> decide

theorem takeFraction_of_head {t : Text} (h : ∀ c ∈ t.head?, c ≠ CodePoint.ofChar '.') :
    takeFraction t = ([], t) := by
  cases t with
  | nil => rfl
  | cons c t => simp [takeFraction, h c rfl]

/-- The digits in front of the point, and the rest with the point. -/
theorem takeDigits_point {whole fraction digits power : Text}
    (h : PointSpelling whole fraction digits) (hwhole : Text.IsDigits whole)
    (hfraction : Text.IsDigits fraction)
    (hpower : ∀ c ∈ power.head?, c.isDigit = false ∧ c ≠ CodePoint.ofChar '.') :
    ∃ rest, takeDigits (digits ++ power) = (whole, rest) ∧
      takeFraction rest = (fraction, power) := by
  have hpowerDigit : ∀ c ∈ power.head?, c.isDigit = false := fun c hc => (hpower c hc).1
  cases h with
  | whole hne =>
    refine ⟨power, takeDigits_append hwhole hpowerDigit, ?_⟩
    exact takeFraction_of_head fun c hc => (hpower c hc).2
  | pointed hne =>
    refine ⟨CodePoint.ofChar '.' :: (fraction ++ power), ?_, ?_⟩
    · rw [List.append_assoc]
      refine takeDigits_append hwhole ?_
      rintro c ⟨⟩
      decide
    · simp only [takeFraction, if_true]
      exact takeDigits_append hfraction hpowerDigit

theorem PointSpelling.ne_nil {whole fraction digits : Text}
    (h : PointSpelling whole fraction digits) : whole ≠ [] ∨ fraction ≠ [] := by
  cases h with
  | whole hne => exact .inl hne
  | pointed hne => exact hne

/-- The first code point of a numeral behind its sign is a digit or the point. -/
theorem head_of_pointSpelling {whole fraction digits power : Text}
    (h : PointSpelling whole fraction digits) (hwhole : Text.IsDigits whole) :
    ∀ c ∈ (digits ++ power).head?, c.isDigit = true ∨ c = CodePoint.ofChar '.' := by
  cases h with
  | whole hne => exact fun c hc => .inl (head_of_isDigits hwhole hne c hc)
  | pointed hne =>
    cases whole with
    | nil =>
      rintro c ⟨⟩
      exact .inr rfl
    | cons d whole =>
      rintro c ⟨⟩
      exact .inl (hwhole d List.mem_cons_self)

/-- Every spelling of a numeral is read as that numeral. -/
theorem ofText?_of_spelling {n : Numeral} {t : Text} (h : Spelling n t) : ofText? t = some n := by
  obtain @⟨sign, digits, power, hsign, hpoint, hwhole, hfraction, hpower⟩ := h
  -- Without a sign in front, what follows must not look like one.
  have hhead : ∀ c ∈ (digits ++ power).head?,
      c ≠ CodePoint.ofChar '-' ∧ c ≠ CodePoint.ofChar '+' := by
    intro c hc
    rcases head_of_pointSpelling hpoint hwhole c hc with hdigit | rfl
    · exact ⟨ne_of_isDigit hdigit (by decide), ne_of_isDigit hdigit (by decide)⟩
    · decide
  obtain ⟨rest, hdigits, hrest⟩ :=
    takeDigits_point hpoint hwhole hfraction (head_of_powerSpelling hpower)
  have hsome : (n.whole.isEmpty && n.fraction.isEmpty) = false := by
    rcases hpoint.ne_nil with hne | hne <;> simp [hne]
  simp only [ofText?, read?, takeSign_spelling hsign hhead, hdigits, hrest, hsome,
    Bool.false_eq_true, if_false, readPower?_spelling hpower, Option.map_some]

/-! ## The number of a numeral -/

/-- The number that a numeral denotes. -/
def value (n : Numeral) : ℚ := Decimal.number n.negative n.coefficient n.exponent

/-- The power of ten is one that a decimal can hold, for the first and for the last digit. -/
def WithinBounds (n : Numeral) : Prop :=
  Decimal.adjustedExponent n.coefficient n.exponent ≤ maxAdjustedExponent
    ∧ minExponent ≤ n.exponent

instance (n : Numeral) : Decidable n.WithinBounds := inferInstanceAs (Decidable (_ ∧ _))

theorem toDecimal?_eq (n : Numeral) :
    n.toDecimal? =
      if n.WithinBounds then some (.finite n.negative n.coefficient n.exponent) else none := rfl

theorem ofText?_decimal {n : Numeral} {t : Text} (h : Spelling n t) :
    Decimal.ofText? t =
      if n.WithinBounds then some (.finite n.negative n.coefficient n.exponent) else none := by
  rw [Decimal.ofText?, ofText?_of_spelling h, Option.bind_some, toDecimal?_eq]

end Numeral

end Telemetry
