import Telemetry.Text.Utf16
import Telemetry.Text.Utf8

/-!
# UTF-8 is read back

A code point that is no surrogate is read back from its bytes, whatever follows them
(`Text.readUtf8_utf8`): it is put together again of its groups of six bits, and it is as large as
the number of its bytes demands. So a text without surrogates is read back from its bytes
(`Text.ofUtf8?_of_toUtf8?`). Without surrogates there are no pairs of them to join either
(`Text.joinPairs_of_isScalar`).
-/

namespace Telemetry

namespace Text

theorem isScalar_append (s t : Text) : isScalar (s ++ t) = (isScalar s && isScalar t) :=
  List.all_append

theorem isScalar_cons (c : CodePoint) (t : Text) :
    isScalar (c :: t) = (!c.isSurrogate && isScalar t) := List.all_cons

section

variable {b : UInt8} (bytes : List UInt8)

theorem readUtf8_ascii {c : CodePoint} (hb : b.toNat = c.val) (h : c.val < 0x80) :
    readUtf8 0 0 0 (b :: bytes) = (readUtf8 0 0 0 bytes).map (c :: ·) := by
  simp [readUtf8, hb, h]

/-- The first of several bytes tells how many follow, and holds the leading bits. -/
theorem readUtf8_lead {bits pending least : Nat}
    (h : b.toNat = 0xC0 + bits ∧ bits < 0x20 ∧ pending = 1 ∧ least = 0x80 ∨
      b.toNat = 0xE0 + bits ∧ bits < 0x10 ∧ pending = 2 ∧ least = 0x800 ∨
      b.toNat = 0xF0 + bits ∧ bits < 0x08 ∧ pending = 3 ∧ least = 0x10000) :
    readUtf8 0 0 0 (b :: bytes) = readUtf8 pending bits least bytes := by
  rcases h with ⟨hb, hbits, rfl, rfl⟩ | ⟨hb, hbits, rfl, rfl⟩ | ⟨hb, hbits, rfl, rfl⟩
  · have hsize : 0xC0 + bits < 0xE0 := by omega
    have hlead : ¬ 0xC0 + bits < 0x80 ∧ ¬ 0xC0 + bits < 0xC0 := by omega
    simp [readUtf8, hb, hlead, hsize]
  · have hsize : 0xE0 + bits < 0xF0 := by omega
    have hlead : ¬ 0xE0 + bits < 0x80 ∧ ¬ 0xE0 + bits < 0xC0 ∧ ¬ 0xE0 + bits < 0xE0 := by omega
    simp [readUtf8, hb, hlead, hsize]
  · have hsize : 0xF0 + bits < 0xF8 := by omega
    have hlead : ¬ 0xF0 + bits < 0x80 ∧ ¬ 0xF0 + bits < 0xC0 ∧ ¬ 0xF0 + bits < 0xE0 ∧
        ¬ 0xF0 + bits < 0xF0 := by omega
    simp [readUtf8, hb, hlead, hsize]

/-- A byte in the middle adds its six bits. -/
theorem readUtf8_middle {n : Nat} (hb : b.toNat = 0x80 + n) (h : n < 0x40)
    (pending bits least : Nat) :
    readUtf8 (pending + 2) bits least (b :: bytes) =
      readUtf8 (pending + 1) (bits * 0x40 + n) least bytes := by
  have hsize : ¬ 0x80 + n < 0x80 ∧ ¬ 0xC0 ≤ 0x80 + n := by omega
  simp [readUtf8, hb, hsize]

/-- The last byte completes a code point. -/
theorem readUtf8_last {n bits least : Nat} (hb : b.toNat = 0x80 + n) (h : n < 0x40)
    {c : CodePoint} (hc : c.val = bits * 0x40 + n) (hleast : least ≤ c.val)
    (hscalar : c.isSurrogate = false) :
    readUtf8 1 bits least (b :: bytes) = (readUtf8 0 0 0 bytes).map (c :: ·) := by
  have hsize : ¬ 0x80 + n < 0x80 ∧ ¬ 0xC0 ≤ 0x80 + n := by omega
  have hlt : bits * 0x40 + n < 0x110000 := hc ▸ c.isLt
  obtain rfl : c = ⟨bits * 0x40 + n, hlt⟩ := Fin.ext hc
  have hlong : ¬ bits * 0x40 + n < least := Nat.not_lt.mpr hleast
  simp [readUtf8, hb, hsize, hlt, hscalar, hlong]

end

theorem readUtf8_utf8 {c : CodePoint} (hc : c.isSurrogate = false) (bytes : List UInt8) :
    readUtf8 0 0 0 (c.utf8 ++ bytes) = (readUtf8 0 0 0 bytes).map (c :: ·) := by
  have hlt := c.isLt
  have hbyte {n : Nat} (h : n < 0x100) : (UInt8.ofNat n).toNat = n := by
    rw [UInt8.toNat_ofNat']
    omega
  have htail {n : Nat} (h : n < 0x40) : (UInt8.ofNat (0x80 + n)).toNat = 0x80 + n :=
    hbyte (by omega)
  unfold CodePoint.utf8
  split
  · next h => exact readUtf8_ascii bytes (hbyte (by omega)) h
  split
  · next h =>
    refine (readUtf8_lead _ (.inl ⟨hbyte (by omega), by omega, rfl, rfl⟩)).trans ?_
    exact readUtf8_last bytes (htail (by omega)) (by omega) (by omega) (by omega) hc
  split
  · next h =>
    refine (readUtf8_lead _ (.inr (.inl ⟨hbyte (by omega), by omega, rfl, rfl⟩))).trans ?_
    refine (readUtf8_middle _ (htail (by omega)) (by omega) 0 _ _).trans ?_
    exact readUtf8_last bytes (htail (by omega)) (by omega) (by omega) (by omega) hc
  · next h =>
    refine (readUtf8_lead _ (.inr (.inr ⟨hbyte (by omega), by omega, rfl, rfl⟩))).trans ?_
    refine (readUtf8_middle _ (htail (by omega)) (by omega) 1 _ _).trans ?_
    refine (readUtf8_middle _ (htail (by omega)) (by omega) 0 _ _).trans ?_
    exact readUtf8_last bytes (htail (by omega)) (by omega) (by omega) (by omega) hc

theorem ofUtf8?_of_toUtf8? {t : Text} {bytes : List UInt8} (h : t.toUtf8? = some bytes) :
    ofUtf8? bytes = some t := by
  unfold toUtf8? at h
  split at h
  · next hscalar =>
    obtain rfl := Option.some.inj h
    unfold ofUtf8?
    clear h
    induction t with
    | nil => rfl
    | cons c t ih =>
      rw [isScalar_cons, Bool.and_eq_true, Bool.not_eq_true'] at hscalar
      rw [List.flatMap_cons, readUtf8_utf8 hscalar.1, ih hscalar.2]
      rfl
  · cases h

/-! ## Pairs -/

theorem joinPairs_of_isScalar {t : Text} (h : t.isScalar) : t.joinPairs = t := by
  fun_induction joinPairs t with
  | case1 high low rest hpair ih =>
    -- The first half of a pair would be a surrogate.
    rw [isScalar_cons, Bool.and_eq_true, Bool.not_eq_true'] at h
    simp only [CodePoint.isHighSurrogate, CodePoint.isSurrogate, Bool.and_eq_true,
      decide_eq_true_eq, Bool.and_eq_false_iff, decide_eq_false_iff_not] at hpair h
    omega
  | case2 high low rest hpair ih =>
    rw [isScalar_cons, Bool.and_eq_true] at h
    rw [ih h.2]
  | case3 => rfl

end Text

end Telemetry
