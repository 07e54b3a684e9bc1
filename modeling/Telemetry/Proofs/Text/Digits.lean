import Mathlib.Data.List.Induction
import Mathlib.Tactic.Ring
import Telemetry.Text.Digits

/-!
# Digits and the numbers they denote

`digitCount` is bounded by the exponents of the powers of ten around a number
(`digitCount_le_iff`), and `Text.digitsValue` reads off what `Text.ofNat` writes
(`Text.digitsValue_ofNat`). A run of digits that is split denotes the sum of its parts at their
places (`Text.digitsValue_append`), so zeros in front do not count, and `Text.ofNat` writes none
(`Text.length_ofNat_of_head`). They are all that is lost when digits are read and written again
(`Text.ofNat_digitsValue`).
-/

namespace Telemetry

theorem pow10_eq (n : Nat) : pow10 n = 10 ^ n := rfl

theorem digitCount_pos (n : Nat) : 0 < digitCount n := Nat.length_toDigits_pos

theorem digitCount_le_iff {n k : Nat} (hk : 0 < k) : digitCount n ≤ k ↔ n < 10 ^ k :=
  Nat.length_toDigits_le_iff (by decide) hk

theorem lt_pow_digitCount (n : Nat) : n < 10 ^ digitCount n :=
  (digitCount_le_iff (digitCount_pos n)).mp (Nat.le_refl _)

theorem pow_le_of_digitCount {n : Nat} (hn : n ≠ 0) : 10 ^ (digitCount n - 1) ≤ n := by
  rcases Nat.eq_zero_or_pos (digitCount n - 1) with h | h
  · rw [h]
    omega
  · by_contra hlt
    have := (digitCount_le_iff h).mpr (Nat.not_le.mp hlt)
    omega

theorem digitCount_mul_pow_le (n k : Nat) : digitCount (n * 10 ^ k) ≤ digitCount n + k := by
  have hpos := digitCount_pos n
  rw [digitCount_le_iff (by omega), Nat.pow_add]
  exact Nat.mul_lt_mul_of_pos_right (lt_pow_digitCount n) (Nat.pow_pos (by decide))

namespace Text

def IsDigits (t : Text) : Prop := ∀ c ∈ t, c.isDigit = true

theorem IsDigits.append {s t : Text} (hs : IsDigits s) (ht : IsDigits t) : IsDigits (s ++ t) := by
  intro c hc
  rcases List.mem_append.mp hc with h | h
  · exact hs c h
  · exact ht c h

theorem ofString_zero : ofString "0" = [CodePoint.ofChar '0'] := rfl

theorem isDigits_zero : IsDigits (ofString "0") := by
  rw [ofString_zero]
  rintro c hc
  rw [List.mem_singleton.mp hc]
  decide

theorem replicate_zero (n : Nat) : replicate n "0" = List.replicate n (CodePoint.ofChar '0') := by
  unfold replicate
  rw [ofString_zero]
  induction n with
  | zero => rfl
  | succ n ih => rw [List.replicate_succ, List.flatten_cons, ih, List.replicate_succ]; rfl

theorem isDigits_replicate_zero (n : Nat) : IsDigits (replicate n "0") := by
  intro c hc
  rw [replicate_zero] at hc
  rw [List.eq_of_mem_replicate hc]
  decide

theorem isDigits_ofNat (n : Nat) : IsDigits (ofNat n) := by
  intro c hc
  obtain ⟨d, hd, rfl⟩ := List.mem_map.mp hc
  have hdigit := Nat.isDigit_of_mem_toDigits (by decide) (by decide) hd
  simp only [Char.isDigit, Bool.and_eq_true, decide_eq_true_eq, UInt32.le_iff_toNat_le] at hdigit
  change 48 ≤ d.toNat ∧ d.toNat ≤ 57 at hdigit
  show (decide (48 ≤ d.toNat) && decide (d.toNat ≤ 57)) = true
  simp only [hdigit, decide_true, Bool.and_self]

theorem length_ofNat (n : Nat) : (ofNat n).length = digitCount n := List.length_map ..

theorem ofNat_ne_nil (n : Nat) : ofNat n ≠ [] := by
  rw [← List.length_pos_iff, length_ofNat]
  exact digitCount_pos n

/-- Reading on behind digits that denote `init`. -/
theorem foldl_digits (t : Text) (init : Nat) :
    t.foldl (fun n c => n * 10 + c.digitValue) init = init * 10 ^ t.length + digitsValue t := by
  unfold digitsValue
  induction t generalizing init with
  | nil => simp
  | cons c t ih =>
    simp only [List.foldl_cons, List.length_cons]
    rw [ih (init * 10 + c.digitValue), ih (0 * 10 + c.digitValue)]
    ring

theorem digitsValue_append (s t : Text) :
    digitsValue (s ++ t) = digitsValue s * 10 ^ t.length + digitsValue t := by
  rw [← foldl_digits]
  unfold digitsValue
  rw [List.foldl_append]

theorem digitsValue_replicate_zero (n : Nat) : digitsValue (replicate n "0") = 0 := by
  rw [replicate_zero]
  induction n with
  | zero => rfl
  | succ n ih => rw [List.replicate_succ', digitsValue_append, ih]; rfl

theorem digitsValue_padZeros (width : Nat) (t : Text) :
    digitsValue (padZeros width t) = digitsValue t := by
  unfold padZeros
  rw [digitsValue_append, digitsValue_replicate_zero, Nat.zero_mul, Nat.zero_add]

theorem digitsValue_ofNat (n : Nat) : digitsValue (ofNat n) = n := by
  have hfold : digitsValue (ofNat n) = Nat.ofDigitChars 10 (Nat.toDigits 10 n) 0 := by
    unfold digitsValue ofNat
    rw [List.foldl_map, Nat.ofDigitChars_eq_foldl]
    congr 1
    funext k c
    exact congrArg (· + _) (Nat.mul_comm k 10)
  rw [hfold, Nat.ofDigitChars_ten_toDigits]

theorem digitsValue_lt {t : Text} (ht : IsDigits t) : digitsValue t < 10 ^ t.length := by
  induction t with
  | nil => decide
  | cons c t ih =>
    have hc : c.digitValue ≤ 9 := by
      have hdigit := ht c List.mem_cons_self
      simp only [CodePoint.isDigit, Bool.and_eq_true, decide_eq_true_eq] at hdigit
      unfold CodePoint.digitValue
      omega
    have htail := ih fun c hc => ht c (List.mem_cons_of_mem _ hc)
    have hvalue : digitsValue (c :: t) = c.digitValue * 10 ^ t.length + digitsValue t := by
      have hsingle : digitsValue [c] = c.digitValue := Nat.zero_add _
      rw [← hsingle, ← digitsValue_append]
      rfl
    rw [hvalue, List.length_cons, Nat.pow_succ]
    have := Nat.mul_le_mul_right (10 ^ t.length) hc
    omega

/-- Of the numbers only zero is written with a zero in front. -/
theorem length_ofNat_of_head {n : Nat} (h : (ofNat n).head? = some (CodePoint.ofChar '0')) :
    (ofNat n).length = 1 := by
  obtain ⟨t, ht⟩ := List.head?_eq_some_iff.mp h
  have hdigits := isDigits_ofNat n
  have hvalue := digitsValue_ofNat n
  have hlength := length_ofNat n
  rw [ht] at hdigits hvalue hlength ⊢
  by_contra hlong
  have hpos : 0 < t.length := by simpa [List.length_pos_iff] using hlong
  -- The digits behind the zero denote the number as well, and they are one digit less.
  have hsmall : digitsValue t < 10 ^ t.length :=
    digitsValue_lt fun c hc => hdigits c (List.mem_cons_of_mem _ hc)
  have hsame : digitsValue t = n := hvalue
  have hcount := (digitCount_le_iff hpos).mpr (hsame ▸ hsmall)
  rw [List.length_cons] at hlength
  omega

/-- The text without the zeros in front; of zeros alone, and of nothing, one zero is left. -/
def dropZeros (t : Text) : Text :=
  match t.dropWhile (· = CodePoint.ofChar '0') with
  | [] => "0"
  | c :: rest => c :: rest

theorem dropZeros_zero_cons (t : Text) : dropZeros (CodePoint.ofChar '0' :: t) = dropZeros t := by
  simp [dropZeros]

theorem dropZeros_of_head {c : CodePoint} {t : Text} (hc : c ≠ CodePoint.ofChar '0') :
    dropZeros (c :: t) = c :: t := by
  simp [dropZeros, hc]

theorem ofNat_digitValue {c : CodePoint} (hc : c.isDigit = true) : ofNat c.digitValue = [c] := by
  simp only [CodePoint.isDigit, Bool.and_eq_true, decide_eq_true_eq] at hc
  have hsmall : c.digitValue < 10 := by
    unfold CodePoint.digitValue
    omega
  have hchar : CodePoint.ofChar c.digitValue.digitChar = c := by
    apply Fin.ext
    show c.digitValue.digitChar.toNat = c.val
    rw [Nat.toNat_digitChar_of_lt_ten hsmall]
    unfold CodePoint.digitValue
    omega
  unfold ofNat
  rw [Nat.toDigits_of_lt_base hsmall, List.map_singleton, hchar]

theorem ofNat_mul_add_digitValue {n : Nat} {c : CodePoint} (hn : 0 < n) (hc : c.isDigit = true) :
    ofNat (n * 10 + c.digitValue) = ofNat n ++ [c] := by
  rw [← ofNat_digitValue hc]
  simp only [CodePoint.isDigit, Bool.and_eq_true, decide_eq_true_eq] at hc
  have hsmall : c.digitValue < 10 := by
    unfold CodePoint.digitValue
    omega
  unfold ofNat
  rw [← List.map_append, Nat.toDigits_append_toDigits (by decide) hn hsmall, Nat.mul_comm]

/-- Digits without a zero in front are the digits of the number that they denote. -/
theorem ofNat_digitsValue_of_head {t : Text} (ht : IsDigits t) (hne : t ≠ [])
    (hhead : t.head? ≠ some (CodePoint.ofChar '0')) : ofNat (digitsValue t) = t := by
  induction t using List.reverseRecOn with
  | nil => exact absurd rfl hne
  | append_singleton s c ih =>
    have hc : c.isDigit = true := ht c (List.mem_append_right s List.mem_cons_self)
    have hsingle : digitsValue [c] = c.digitValue := Nat.zero_add _
    rw [digitsValue_append, hsingle, List.length_singleton, Nat.pow_one]
    by_cases hs : s = []
    · subst hs
      rw [List.nil_append, ← ofNat_digitValue hc]
      exact congrArg ofNat (Nat.zero_add _)
    · have hhead : s.head? ≠ some (CodePoint.ofChar '0') := by
        obtain ⟨d, rest, rfl⟩ := List.exists_cons_of_ne_nil hs
        exact hhead
      have hdigits := ih (fun d hd => ht d (List.mem_append_left _ hd)) hs hhead
      have hpos : 0 < digitsValue s := by
        rw [Nat.pos_iff_ne_zero]
        intro hzero
        rw [← hdigits, hzero] at hhead
        exact hhead rfl
      rw [ofNat_mul_add_digitValue hpos hc, hdigits]

/-- Zeros in front are all that is lost of the digits of a number. -/
theorem ofNat_digitsValue {t : Text} (ht : IsDigits t) : ofNat (digitsValue t) = dropZeros t := by
  induction t with
  | nil => rfl
  | cons c t ih =>
    by_cases hc : c = CodePoint.ofChar '0'
    · subst hc
      have hvalue : digitsValue (CodePoint.ofChar '0' :: t) = digitsValue t := rfl
      rw [hvalue, ih fun d hd => ht d (List.mem_cons_of_mem _ hd), dropZeros_zero_cons]
    · rw [dropZeros_of_head hc]
      exact ofNat_digitsValue_of_head ht nofun fun h => hc (Option.some.inj h)

end Text

end Telemetry
