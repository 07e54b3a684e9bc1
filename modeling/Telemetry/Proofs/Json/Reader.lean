import Telemetry.Json.Reader
import Telemetry.Json.Writer
import Telemetry.Proofs.Decimal.Spelling
import Telemetry.Proofs.Text.Utf8

/-!
# Written strings and integers are read back

A code point stands in a string in one of three forms, each of which the reader takes off as a whole
(`Json.escape_spec`, `Json.readUnits_escape`). The rest is an induction over the text: what is read
behind the last escape is the closing quote. Joining pairs changes nothing, as a text without
surrogates has none (`Json.readString_quote`).

The digits of an integer end where no digit follows. A point or a power behind them would make them
a float, so what follows must be neither (`Json.EndsNumber`).
-/

namespace Telemetry

namespace Json

/-! ## Strings -/

/-- How a code point can stand in a string: as a letter, as a number, or as it is. -/
inductive Escape (c : CodePoint) : Text → Prop where
  | letter {e : CodePoint} (hunicode : e ≠ CodePoint.ofChar 'u') (hscalar : ¬ e.isSurrogate)
    (h : escaped? e = some c) : Escape c [CodePoint.ofChar '\\', e]
  | number {h₁ h₂ h₃ h₄ : CodePoint} (hscalar : Text.isScalar [h₁, h₂, h₃, h₄])
    (h : codeUnit? h₁ h₂ h₃ h₄ = some c) :
    Escape c [CodePoint.ofChar '\\', CodePoint.ofChar 'u', h₁, h₂, h₃, h₄]
  | plain (hquote : c ≠ CodePoint.ofChar '"') (hescape : c ≠ CodePoint.ofChar '\\')
    (hcontrol : ¬ c.val < 32) : Escape c [c]

/-- The four digits in which a control is written are its number. -/
theorem escape_control : ∀ n : Fin 32,
    let high : CodePoint := 48 + Fin.ofNat _ (n.val / 16)
    let low := (hexDigits 1 (n.val % 16)).headD 0
    hexDigits 4 n.val = [48, 48, high, low] ∧ (hexDigits 4 n.val).isScalar ∧
      codeUnit? 48 48 high low = some (Fin.ofNat 0x110000 n.val) := by
  decide

theorem escape_spec (c : CodePoint) : Escape c (escape c) := by
  have hnumber {n : Nat} (hn : n < 0x110000) (h : c.val = n) : c = ⟨n, hn⟩ := Fin.ext h
  by_cases hself : c = CodePoint.ofChar '"' ∨ c = CodePoint.ofChar '\\'
  · rcases hself with rfl | rfl <;> exact .letter (by decide) (by decide) (by decide)
  by_cases hletter : c.val = 8 ∨ c.val = 9 ∨ c.val = 10 ∨ c.val = 12 ∨ c.val = 13
  · rcases hletter with h | h | h | h | h <;>
      obtain rfl := hnumber (by decide) h <;> exact .letter (by decide) (by decide) (by decide)
  unfold escape letterEscape?
  simp only [not_or] at hself hletter
  obtain ⟨h8, h9, h10, h12, h13⟩ := hletter
  simp only [hself, h8, h9, h10, h12, h13, or_self, if_false]
  split
  · next hcontrol =>
    obtain ⟨hdigits, hscalar, hunit⟩ := escape_control ⟨c.val, hcontrol⟩
    have hc : Fin.ofNat 0x110000 c.val = c := Fin.ext (Nat.mod_eq_of_lt c.isLt)
    rw [hdigits] at hscalar ⊢
    rw [hc] at hunit
    exact .number hscalar hunit
  · next hcontrol => exact .plain hself.1 hself.2 hcontrol

theorem readUnits_escape (c : CodePoint) (rest : Text) :
    readUnits (escape c ++ rest) = (readUnits rest).map fun (t, rest) => (c :: t, rest) := by
  have hescape := escape_spec c
  have hmark : CodePoint.ofChar '\\' ≠ CodePoint.ofChar '"' := by decide
  generalize escape c = e at hescape
  cases hescape with
  | letter hunicode _ h =>
    rw [readUnits.eq_def]
    simp [hmark, hunicode, h]
  | number _ h =>
    rw [readUnits.eq_def]
    simp [hmark, h]
  | plain hquote hbackslash hcontrol =>
    rw [readUnits.eq_def]
    simp [hquote, hbackslash, hcontrol]

theorem isScalar_flatMap_escape {t : Text} (ht : t.isScalar) :
    Text.isScalar (t.flatMap escape) := by
  induction t with
  | nil => rfl
  | cons c t ih =>
    rw [Text.isScalar_cons, Bool.and_eq_true, Bool.not_eq_true'] at ht
    rw [List.flatMap_cons, Text.isScalar_append, ih ht.2, Bool.and_true]
    have hescape := escape_spec c
    generalize escape c = e at hescape
    cases hescape with
    | letter _ hscalar _ => simp [Text.isScalar, hscalar]; decide
    | number hscalar _ => exact hscalar
    | plain => simp [Text.isScalar, ht.1]

theorem readUnits_flatMap_escape (t rest : Text) :
    readUnits (t.flatMap escape ++ (CodePoint.ofChar '"' :: rest)) = some (t, rest) := by
  induction t with
  | nil =>
    rw [readUnits.eq_def]
    rfl
  | cons c t ih =>
    rw [List.flatMap_cons, List.append_assoc, readUnits_escape, ih]
    rfl

theorem readString_quote {t : Text} (ht : t.isScalar) (rest : Text) :
    readString (t.flatMap escape ++ (CodePoint.ofChar '"' :: rest)) = some (t, rest) := by
  rw [readString, readUnits_flatMap_escape]
  exact congrArg some (Prod.ext (Text.joinPairs_of_isScalar ht) rfl)

/-! ## Integers -/

theorem isScalar_of_isDigits {t : Text} (h : t.IsDigits) : t.isScalar := by
  rw [Text.isScalar, List.all_eq_true]
  intro c hc
  have hdigit := h c hc
  simp only [CodePoint.isDigit, Bool.and_eq_true, decide_eq_true_eq] at hdigit
  simp only [CodePoint.isSurrogate, Bool.not_eq_true', Bool.and_eq_false_iff,
    decide_eq_false_iff_not]
  omega

/-- What follows does not go on with a number. -/
def EndsNumber (rest : Text) : Prop :=
  ∀ c ∈ rest.head?, c.isDigit = false ∧ c ≠ CodePoint.ofChar '.' ∧
    c ≠ CodePoint.ofChar 'e' ∧ c ≠ CodePoint.ofChar 'E'

theorem takeDigits_of_endsNumber {digits rest : Text} (h : digits.IsDigits)
    (hrest : EndsNumber rest) : Numeral.takeDigits (digits ++ rest) = (digits, rest) := by
  refine Numeral.takeDigits_append h ?_
  intro c hc
  exact (hrest c hc).1

theorem readFraction_of_endsNumber {rest : Text} (h : EndsNumber rest) :
    readFraction rest = some ([], rest) := by
  cases rest with
  | nil => rfl
  | cons c rest => simp [readFraction, (h c rfl).2.1]

theorem readPower_of_endsNumber {rest : Text} (h : EndsNumber rest) :
    readPower rest = some ([], rest) := by
  cases rest with
  | nil => rfl
  | cons c rest => simp [readPower, (h c rfl).2.2]

theorem readMagnitude_ofNat (negative : Bool) (n : Nat) {rest : Text} (h : EndsNumber rest) :
    readMagnitude negative (Text.ofNat n ++ rest) =
      some (.int (Decimal.signed negative n), rest) := by
  unfold readMagnitude
  rw [takeDigits_of_endsNumber (Text.isDigits_ofNat n) h]
  have hzero : ((Text.ofNat n).isEmpty || ((Text.ofNat n).head? == some (CodePoint.ofChar '0') &&
      (Text.ofNat n).length != 1)) = false := by
    by_cases hhead : (Text.ofNat n).head? = some (CodePoint.ofChar '0')
    · simp [Text.length_ofNat_of_head hhead, Text.ofNat_ne_nil]
    · simp [hhead, Text.ofNat_ne_nil]
  simp [hzero, readFraction_of_endsNumber h, readPower_of_endsNumber h, numberOf,
    Text.digitsValue_ofNat]

theorem readNumber_ofInt (i : Int) {rest : Text} (h : EndsNumber rest) :
    readNumber (Text.ofInt i ++ rest) = some (.int i, rest) := by
  unfold Text.ofInt
  split
  · next hneg =>
    have hsigned : Decimal.signed true i.natAbs = i := by
      simp only [Decimal.signed, if_true]
      omega
    rw [List.append_assoc]
    refine (readMagnitude_ofNat true i.natAbs h).trans ?_
    rw [hsigned]
  · next hpos =>
    have hsigned : Decimal.signed false i.natAbs = i := by
      simp only [Decimal.signed, Bool.false_eq_true, if_false]
      omega
    have hread := readMagnitude_ofNat false i.natAbs h
    rw [hsigned] at hread
    cases hdigits : Text.ofNat i.natAbs with
    | nil => exact absurd hdigits (Text.ofNat_ne_nil _)
    | cons c digits =>
      have hc : c ≠ CodePoint.ofChar '-' := by
        rintro rfl
        have hdigit := Text.isDigits_ofNat i.natAbs (CodePoint.ofChar '-') (by simp [hdigits])
        exact absurd hdigit (by decide)
      rw [hdigits] at hread
      simpa [readNumber, hc] using hread

end Json

end Telemetry
