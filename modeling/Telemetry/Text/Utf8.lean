import Telemetry.Text.Basic

/-!
# UTF-8

Writing fails exactly on surrogates. Reading is strict: it refuses overlong forms, surrogates, code
points beyond U+10FFFF, and bytes that are cut off or stand alone.
-/

namespace Telemetry

namespace CodePoint

/-- The UTF-8 bytes of a code point, by its size. -/
def utf8 (c : CodePoint) : List UInt8 :=
  if c.val < 0x80 then [UInt8.ofNat c.val]
  else if c.val < 0x800 then
    [UInt8.ofNat (0xC0 + c.val / 0x40), UInt8.ofNat (0x80 + c.val % 0x40)]
  else if c.val < 0x10000 then
    [UInt8.ofNat (0xE0 + c.val / 0x1000), UInt8.ofNat (0x80 + c.val / 0x40 % 0x40),
      UInt8.ofNat (0x80 + c.val % 0x40)]
  else
    [UInt8.ofNat (0xF0 + c.val / 0x40000), UInt8.ofNat (0x80 + c.val / 0x1000 % 0x40),
      UInt8.ofNat (0x80 + c.val / 0x40 % 0x40), UInt8.ofNat (0x80 + c.val % 0x40)]

end CodePoint

namespace Text

/-- The UTF-8 bytes of a text; none if it holds a surrogate. -/
def toUtf8? (t : Text) : Option (List UInt8) :=
  if t.isScalar then some (t.flatMap CodePoint.utf8) else none

/--
Reads the rest of a UTF-8 text: `pending` continuation bytes are still to come for the code point
whose bits so far are `bits`, and which is at least `least` if it is written in its shortest form.
-/
def readUtf8 : (pending bits least : Nat) → List UInt8 → Option Text
  | 0, _, _, [] => some []
  | _ + 1, _, _, [] => none
  | 0, _, _, b :: rest =>
    let n := b.toNat
    if h : n < 0x80 then (readUtf8 0 0 0 rest).map (⟨n, by omega⟩ :: ·)
    else if n < 0xC0 then none
    else if n < 0xE0 then readUtf8 1 (n - 0xC0) 0x80 rest
    else if n < 0xF0 then readUtf8 2 (n - 0xE0) 0x800 rest
    else if n < 0xF8 then readUtf8 3 (n - 0xF0) 0x10000 rest
    else none
  | pending + 1, bits, least, b :: rest =>
    let n := b.toNat
    if n < 0x80 ∨ 0xC0 ≤ n then none
    else
      let bits := bits * 0x40 + (n - 0x80)
      match pending with
      | 0 =>
        if h : bits < 0x110000 then
          let c : CodePoint := ⟨bits, h⟩
          if bits < least || c.isSurrogate then none else (readUtf8 0 0 0 rest).map (c :: ·)
        else none
      | pending + 1 => readUtf8 (pending + 1) bits least rest

/-- The text whose UTF-8 bytes these are. -/
def ofUtf8? (bytes : List UInt8) : Option Text := readUtf8 0 0 0 bytes

end Text

end Telemetry
