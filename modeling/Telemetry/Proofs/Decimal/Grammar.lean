import Mathlib.Computability.Language
import Telemetry.Proofs.Decimal.Spelling

/-!
# The pattern of plain decimal numerals

`Numeral.pattern` is the grammar of numerals as a regular language. A run of digits without a point
matches it in several ways, since the digits behind a missing point are digits in front of it just
as well. The reader does not search among them: it takes as many digits as there are. That this
loses nothing is shown in two halves. Whatever is read was spelled so
(`Numeral.spelling_of_ofText?`), and whatever matches is the spelling of a numeral
(`Numeral.mem_pattern_iff`), so that the pattern, the spellings and the reader describe one set of
texts.
-/

namespace Telemetry

namespace Numeral

open Computability

/-! ## What the reader takes was spelled so -/

theorem takeSign_spec (t : Text) :
    ∃ sign, SignSpelling (takeSign t).1 sign ∧ t = sign ++ (takeSign t).2 := by
  cases t with
  | nil => exact ⟨[], .unsigned, rfl⟩
  | cons c rest =>
    by_cases hminus : c = CodePoint.ofChar '-'
    · subst hminus
      exact ⟨_, .minus, rfl⟩
    · by_cases hplus : c = CodePoint.ofChar '+'
      · subst hplus
        exact ⟨_, .plus, rfl⟩
      · have hunsigned : takeSign (c :: rest) = (false, c :: rest) := by
          simp [takeSign, hminus, hplus]
        rw [hunsigned]
        exact ⟨[], .unsigned, rfl⟩

theorem takeDigits_spec (t : Text) :
    Text.IsDigits (takeDigits t).1 ∧ t = (takeDigits t).1 ++ (takeDigits t).2 :=
  ⟨List.all_eq_true.mp List.all_takeWhile, List.takeWhile_append_dropWhile.symm⟩

/-- Digits are split off behind a point, or there is none and nothing is split off. -/
theorem takeFraction_spec (t : Text) :
    Text.IsDigits (takeFraction t).1 ∧
      (takeFraction t = ([], t) ∨
        t = CodePoint.ofChar '.' :: ((takeFraction t).1 ++ (takeFraction t).2)) := by
  cases t with
  | nil => exact ⟨List.forall_mem_nil _, .inl rfl⟩
  | cons c rest =>
    by_cases hpoint : c = CodePoint.ofChar '.'
    · subst hpoint
      obtain ⟨hdigits, hsplit⟩ := takeDigits_spec rest
      exact ⟨hdigits, .inr (congrArg _ hsplit)⟩
    · have hnone : takeFraction (c :: rest) = ([], c :: rest) := by
        simp [takeFraction, hpoint]
      rw [hnone]
      exact ⟨List.forall_mem_nil _, .inl rfl⟩

theorem powerSpelling_of_readPower? {t : Text} {power : Int}
    (h : readPower? Text.digitsValue t = some power) : PowerSpelling power t := by
  cases t with
  | nil =>
    obtain rfl := Option.some.inj h
    exact .absent
  | cons mark rest =>
    obtain ⟨sign, hsign, hrest⟩ := takeSign_spec rest
    simp only [readPower?] at h
    split at h
    · next hmark =>
      split at h
      · cases h
      · next hsome =>
        obtain rfl := Option.some.inj h
        simp only [Bool.or_eq_true, not_or, List.isEmpty_iff, Bool.not_eq_true',
          Bool.not_eq_false] at hsome
        obtain ⟨hne, hdigits⟩ := hsome
        have hpower := PowerSpelling.present hmark hsign hne (List.all_eq_true.mp hdigits)
        rwa [← hrest] at hpower
    · cases h

/-- A text that is read as a numeral spells it. -/
theorem spelling_of_ofText? {n : Numeral} {t : Text} (h : ofText? t = some n) :
    Spelling n t := by
  obtain ⟨sign, hsign, ht⟩ := takeSign_spec t
  obtain ⟨hwhole, hrest⟩ := takeDigits_spec (takeSign t).2
  obtain ⟨hfraction, hpoint⟩ := takeFraction_spec (takeDigits (takeSign t).2).2
  unfold ofText? read? at h
  dsimp only at h
  split at h
  · cases h
  · next hsome =>
    obtain ⟨power, hpower, rfl⟩ := Option.map_eq_some_iff.mp h
    have hpower := powerSpelling_of_readPower? hpower
    generalize (takeSign t).1 = negative, (takeSign t).2 = t₁ at *
    generalize (takeDigits t₁).1 = whole, (takeDigits t₁).2 = t₂ at *
    -- A numeral has a digit, in front of the point or behind it.
    have hne : whole ≠ [] ∨ (takeFraction t₂).1 ≠ [] := by
      simpa [List.isEmpty_iff, imp_iff_not_or] using hsome
    subst ht hrest
    rcases hpoint with hnone | hpoint
    · rw [hnone] at hne hpower hfraction ⊢
      exact .mk hsign (.whole (hne.resolve_right fun h => h rfl)) hwhole hfraction hpower
    · have hsplit : whole ++ t₂ =
          (whole ++ CodePoint.ofChar '.' :: (takeFraction t₂).1) ++ (takeFraction t₂).2 := by
        rw [List.append_assoc, List.cons_append, ← hpoint]
      rw [hsplit]
      exact .mk hsign (.pointed hne) hwhole hfraction hpower

/-! ## The pattern -/

/-- One of some characters. -/
def oneOf (cs : List Char) : Language CodePoint :=
  {t : Text | ∃ c ∈ cs, t = [CodePoint.ofChar c]}

def digit : Language CodePoint := {t : Text | ∃ c : CodePoint, c.isDigit = true ∧ t = [c]}

def opt (l : Language CodePoint) : Language CodePoint := l + 1

/-- The numerals as a regular expression writes them: `[+-]?(D+.?D*|.D+)([eE][+-]?D+)?`. -/
def pattern : Language CodePoint :=
  opt (oneOf ['+', '-']) *
    (digit * digit∗ * opt (oneOf ['.']) * digit∗ + oneOf ['.'] * (digit * digit∗)) *
      opt (oneOf ['e', 'E'] * opt (oneOf ['+', '-']) * (digit * digit∗))

theorem mem_oneOf {cs : List Char} {t : Text} :
    t ∈ oneOf cs ↔ ∃ c ∈ cs, t = [CodePoint.ofChar c] := Iff.rfl

theorem mem_opt {l : Language CodePoint} {t : Text} : t ∈ opt l ↔ t ∈ l ∨ t = [] := by
  rw [opt, Language.mem_add, Language.mem_one]

theorem mem_digit_star {t : Text} : t ∈ digit∗ ↔ Text.IsDigits t := by
  rw [Language.mem_kstar]
  constructor
  · rintro ⟨ts, rfl, hts⟩ c hc
    obtain ⟨u, hu, hc⟩ := List.mem_flatten.mp hc
    obtain ⟨d, hd, rfl⟩ := hts u hu
    rwa [List.mem_singleton.mp hc]
  · intro ht
    refine ⟨t.map fun c => [c], (List.flatMap_singleton' t).symm, fun u hu => ?_⟩
    obtain ⟨c, hc, rfl⟩ := List.mem_map.mp hu
    exact ⟨c, ht c hc, rfl⟩

theorem mem_digits {t : Text} : t ∈ digit * digit∗ ↔ Text.IsDigits t ∧ t ≠ [] := by
  rw [Language.mem_mul]
  constructor
  · rintro ⟨_, ⟨c, hc, rfl⟩, rest, hrest, rfl⟩
    have hsingle : Text.IsDigits [c] := by
      intro d hd
      rwa [List.mem_singleton.mp hd]
    exact ⟨hsingle.append (mem_digit_star.mp hrest), nofun⟩
  · rintro ⟨ht, hne⟩
    cases t with
    | nil => exact absurd rfl hne
    | cons c rest =>
      refine ⟨[c], ⟨c, ht c List.mem_cons_self, rfl⟩, rest, ?_, rfl⟩
      exact mem_digit_star.mpr fun d hd => ht d (List.mem_cons_of_mem _ hd)

theorem mem_sign_iff {t : Text} :
    t ∈ opt (oneOf ['+', '-']) ↔ ∃ negative, SignSpelling negative t := by
  rw [mem_opt, mem_oneOf]
  constructor
  · rintro (⟨c, hc, rfl⟩ | rfl)
    · rcases List.mem_cons.mp hc with rfl | hc
      · exact ⟨_, .plus⟩
      · rw [List.mem_singleton.mp hc]
        exact ⟨_, .minus⟩
    · exact ⟨_, .unsigned⟩
  · rintro ⟨negative, ⟨⟩ | ⟨⟩ | ⟨⟩⟩
    · exact .inr rfl
    · exact .inl ⟨'+', by decide, rfl⟩
    · exact .inl ⟨'-', by decide, rfl⟩

/-- The ways to match digits without a point all stand for the same digits. -/
theorem mem_point_iff {t : Text} :
    t ∈ digit * digit∗ * opt (oneOf ['.']) * digit∗ + oneOf ['.'] * (digit * digit∗) ↔
      ∃ whole fraction, PointSpelling whole fraction t ∧ Text.IsDigits whole ∧
        Text.IsDigits fraction := by
  rw [Language.mem_add, Language.mem_mul, Language.mem_mul]
  simp only [Language.mem_mul (l := digit * digit∗)]
  constructor
  · rintro (h | h)
    · obtain ⟨_, ⟨whole, hwhole, point, hpoint, rfl⟩, fraction, hfraction, rfl⟩ := h
      obtain ⟨hwhole, hne⟩ := mem_digits.mp hwhole
      have hfraction := mem_digit_star.mp hfraction
      rcases mem_opt.mp hpoint with ⟨c, hc, rfl⟩ | rfl
      · rw [List.mem_singleton.mp hc, List.append_assoc]
        exact ⟨whole, fraction, .pointed (.inl hne), hwhole, hfraction⟩
      · rw [List.append_nil]
        refine ⟨whole ++ fraction, [], .whole ?_, hwhole.append hfraction, nofun⟩
        exact List.append_ne_nil_of_left_ne_nil hne _
    · obtain ⟨_, ⟨c, hc, rfl⟩, fraction, hfraction, rfl⟩ := h
      obtain ⟨hfraction, hne⟩ := mem_digits.mp hfraction
      rw [List.mem_singleton.mp hc]
      exact ⟨[], fraction, .pointed (.inr hne), nofun, hfraction⟩
  · rintro ⟨whole, fraction, hpoint, hwhole, hfraction⟩
    cases hpoint with
    | whole hne =>
      refine .inl ⟨t, ⟨t, mem_digits.mpr ⟨hwhole, hne⟩, [], ?_, List.append_nil t⟩, [], ?_,
        List.append_nil t⟩
      · exact mem_opt.mpr (.inr rfl)
      · exact mem_digit_star.mpr nofun
    | pointed hne =>
      have hmark : [CodePoint.ofChar '.'] ∈ oneOf ['.'] := ⟨'.', by decide, rfl⟩
      by_cases hwhole' : whole = []
      · subst hwhole'
        have hne := hne.resolve_left fun h => h rfl
        exact .inr ⟨_, hmark, fraction, mem_digits.mpr ⟨hfraction, hne⟩, rfl⟩
      · refine .inl ⟨whole ++ [CodePoint.ofChar '.'],
          ⟨whole, mem_digits.mpr ⟨hwhole, hwhole'⟩, _, mem_opt.mpr (.inl hmark), rfl⟩, fraction,
          mem_digit_star.mpr hfraction, ?_⟩
        rw [List.append_assoc]
        rfl

theorem mem_power_iff {t : Text} :
    t ∈ opt (oneOf ['e', 'E'] * opt (oneOf ['+', '-']) * (digit * digit∗)) ↔
      ∃ power, PowerSpelling power t := by
  rw [mem_opt]
  constructor
  · rintro (⟨_, ⟨_, ⟨mark, hmark, rfl⟩, sign, hsign, rfl⟩, digits, hdigits, rfl⟩ | rfl)
    · obtain ⟨negative, hsign⟩ := mem_sign_iff.mp hsign
      obtain ⟨hdigits, hne⟩ := mem_digits.mp hdigits
      refine ⟨_, .present ?_ hsign hne hdigits⟩
      simpa using List.mem_map_of_mem (f := CodePoint.ofChar) hmark
    · exact ⟨0, .absent⟩
  · rintro ⟨power, hpower⟩
    cases hpower with
    | absent => exact .inr rfl
    | @present mark negative sign digits hmark hsign hne hdigits =>
      refine .inl ⟨mark :: sign, ⟨[mark], ?_, sign, mem_sign_iff.mpr ⟨negative, hsign⟩, rfl⟩,
        digits, mem_digits.mpr ⟨hdigits, hne⟩, rfl⟩
      rcases hmark with rfl | rfl
      · exact ⟨'e', by decide, rfl⟩
      · exact ⟨'E', by decide, rfl⟩

/-- The texts that match the pattern are those that spell a numeral. -/
theorem mem_pattern_iff {t : Text} : t ∈ pattern ↔ ∃ n, Spelling n t := by
  constructor
  · intro h
    obtain ⟨_, hfront, power, hpower, rfl⟩ := Language.mem_mul.mp h
    obtain ⟨sign, hsign, digits, hdigits, rfl⟩ := Language.mem_mul.mp hfront
    obtain ⟨negative, hsign⟩ := mem_sign_iff.mp hsign
    obtain ⟨whole, fraction, hpoint, hwhole, hfraction⟩ := mem_point_iff.mp hdigits
    obtain ⟨p, hpower⟩ := mem_power_iff.mp hpower
    rw [List.append_assoc]
    exact ⟨⟨negative, whole, fraction, p⟩, .mk hsign hpoint hwhole hfraction hpower⟩
  · rintro ⟨n, @⟨sign, digits, power, hsign, hpoint, hwhole, hfraction, hpower⟩⟩
    rw [← List.append_assoc]
    exact ⟨_, ⟨_, mem_sign_iff.mpr ⟨_, hsign⟩, _,
      mem_point_iff.mpr ⟨_, _, hpoint, hwhole, hfraction⟩, rfl⟩, _,
      mem_power_iff.mpr ⟨_, hpower⟩, rfl⟩

/-! ## Short numerals -/

/-- A numeral is negative just if its text begins with a minus sign. -/
theorem Spelling.negative_eq {n : Numeral} {t : Text} (h : Spelling n t) :
    n.negative = decide (t.head? = some (CodePoint.ofChar '-')) := by
  obtain @⟨sign, digits, power, hsign, hpoint, hwhole, hfraction, hpower⟩ := h
  generalize n.negative = negative at hsign
  cases hsign with
  | plus =>
    show false = decide (some (CodePoint.ofChar '+') = some (CodePoint.ofChar '-'))
    decide
  | minus =>
    show true = decide (some (CodePoint.ofChar '-') = some (CodePoint.ofChar '-'))
    decide
  | unsigned =>
    have hhead : (digits ++ power).head? ≠ some (CodePoint.ofChar '-') := by
      intro hc
      rcases head_of_pointSpelling hpoint hwhole _ hc with hdigit | hc
      · exact absurd hdigit (by decide)
      · exact absurd hc (by decide)
    exact (decide_eq_false hhead).symm

theorem Spelling.length_digits_le {n : Numeral} {t : Text} (h : Spelling n t) :
    (n.whole ++ n.fraction).length ≤ t.length := by
  obtain @⟨sign, digits, power, hsign, hpoint, hwhole, hfraction, hpower⟩ := h
  have hdigits : (n.whole ++ n.fraction).length ≤ digits.length := by
    generalize n.whole = whole, n.fraction = fraction at hpoint
    cases hpoint <;> simp
  simp only [List.length_append] at hdigits ⊢
  omega

/-- Decimals hold every numeral whose text and whose power of ten are this short. -/
theorem Spelling.withinBounds {n : Numeral} {t : Text} (h : Spelling n t)
    (hlength : t.length ≤ 10 ^ 17) (hpower : n.power.natAbs ≤ 10 ^ 17) : n.WithinBounds := by
  have hdigits := h.length_digits_le
  have hcount : digitCount n.coefficient ≤ max 1 (n.whole ++ n.fraction).length := by
    obtain ⟨-, -, hwhole, hfraction, -⟩ := h
    rw [digitCount_le_iff (by omega)]
    refine (Text.digitsValue_lt (hwhole.append hfraction)).trans_le ?_
    exact Nat.pow_le_pow_right (by decide) (le_max_right ..)
  rw [List.length_append] at hdigits hcount
  unfold WithinBounds Decimal.adjustedExponent exponent maxAdjustedExponent minExponent
  omega

end Numeral

end Telemetry
