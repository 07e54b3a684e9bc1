import Telemetry.Text.Utf16

/-!
# Counting code units

A code point takes two code units from U+10000 on and one below, whatever stands next to it, and a
code unit takes two bytes. So the length of a field counts its code points, those from U+10000 on
twice (`Text.fieldLength_counts`), and the lengths of two texts add up even where a pair of
surrogates is torn apart.
-/

namespace Telemetry

namespace CodePoint

theorem length_utf16 (c : CodePoint) : c.utf16.length = if c.val < 0x10000 then 1 else 2 := by
  unfold utf16
  split <;> rfl

end CodePoint

namespace Text

theorem utf16_cons (c : CodePoint) (t : Text) : utf16 (c :: t) = c.utf16 ++ utf16 t :=
  List.flatMap_cons

theorem length_utf16Bytes (t : Text) : t.utf16Bytes.length = 2 * t.utf16.length := by
  unfold utf16Bytes
  induction t.utf16 with
  | nil => rfl
  | cons u units ih =>
    rw [List.flatMap_cons, List.length_append, ih, List.length_cons]
    show 2 + 2 * units.length = _
    omega

theorem fieldLength_eq (t : Text) : t.fieldLength = t.utf16.length := by
  unfold fieldLength
  rw [length_utf16Bytes]
  omega

theorem fieldLength_cons (c : CodePoint) (t : Text) :
    fieldLength (c :: t) = (if c.val < 0x10000 then 1 else 2) + t.fieldLength := by
  rw [fieldLength_eq, fieldLength_eq, utf16_cons, List.length_append, CodePoint.length_utf16]

theorem fieldLength_append (s t : Text) :
    fieldLength (s ++ t) = s.fieldLength + t.fieldLength := by
  simp only [fieldLength_eq, utf16, List.flatMap_append, List.length_append]

theorem fieldLength_eq_count (t : Text) :
    t.fieldLength =
      t.countP (fun c => c.val < 0x10000) + 2 * t.countP (fun c => 0x10000 ≤ c.val) := by
  induction t with
  | nil => rfl
  | cons c t ih =>
    rw [fieldLength_cons, List.countP_cons, List.countP_cons, ih]
    by_cases hc : c.val < 0x10000
    · have hle : ¬ 0x10000 ≤ c.val := Nat.not_le.mpr hc
      simp only [hc, hle, decide_true, decide_false, if_true, Bool.false_eq_true, if_false]
      omega
    · have hle : 0x10000 ≤ c.val := Nat.not_lt.mp hc
      simp only [hc, hle, decide_true, decide_false, if_true, Bool.false_eq_true, if_false]
      omega

/-- Every code point takes one code unit or two. -/
theorem length_le_fieldLength (t : Text) :
    t.length ≤ t.fieldLength ∧ t.fieldLength ≤ 2 * t.length := by
  induction t with
  | nil => decide
  | cons c t ih =>
    rw [fieldLength_cons, List.length_cons]
    split <;> omega

/--
The length of a field is half the number of its bytes, with no byte left over, and counts the code
points of the text, those from U+10000 on twice. The length of two texts in a row is the sum of
theirs, wherever they meet, and only the empty text has none.
-/
theorem fieldLength_counts (t : Text) :
    t.utf16Bytes.length = 2 * t.fieldLength ∧
    t.fieldLength =
      t.countP (fun c => c.val < 0x10000) + 2 * t.countP (fun c => 0x10000 ≤ c.val) ∧
    (∀ s : Text, fieldLength (t ++ s) = t.fieldLength + s.fieldLength) ∧
    (t.fieldLength = 0 ↔ t = []) ∧
    t.length ≤ t.fieldLength ∧ t.fieldLength ≤ 2 * t.length := by
  have hbytes : t.utf16Bytes.length = 2 * t.fieldLength := by
    rw [length_utf16Bytes, fieldLength_eq]
  obtain ⟨hlow, hhigh⟩ := length_le_fieldLength t
  have hempty : t.fieldLength = 0 ↔ t = [] := by
    rw [← List.length_eq_zero_iff]
    omega
  exact ⟨hbytes, fieldLength_eq_count t, fieldLength_append t, hempty, hlow, hhigh⟩

/-- A high surrogate at the end of a text, and a low one at the start of the next. -/
example : fieldLength ([0xD83D] ++ [0xDE00]) = 2 ∧ fieldLength [0x1F600] = 2 := by decide

end Text

end Telemetry
