import Telemetry.Text.Basic

/-!
# UTF-16

The length of a field is its number of UTF-16 code units, that is half the number of bytes of its
little-endian encoding. A code point beyond U+FFFF takes two units, every other takes one, a lone
surrogate included. `Text.joinPairs` is what becomes of a text that travels through such units:
a high surrogate followed by a low one is read as the one code point that the pair stands for.
-/

namespace Telemetry

namespace CodePoint

/-- The code units of a code point: a pair of surrogates beyond U+FFFF, else one unit. -/
def utf16 (c : CodePoint) : List UInt16 :=
  if c.val < 0x10000 then [UInt16.ofNat c.val]
  else
    let offset := c.val - 0x10000
    [UInt16.ofNat (0xD800 + offset / 0x400), UInt16.ofNat (0xDC00 + offset % 0x400)]

/-- The code point that a high and a low surrogate stand for together. -/
def ofPair (high low : CodePoint) : CodePoint :=
  ⟨0x10000 + (high.val - 0xD800) % 0x400 * 0x400 + (low.val - 0xDC00) % 0x400, by omega⟩

end CodePoint

namespace Text

/-- The UTF-16 code units of a text. -/
def utf16 (t : Text) : List UInt16 := t.flatMap CodePoint.utf16

/-- The two bytes of a code unit, the low byte first. -/
def unitBytes (u : UInt16) : List UInt8 :=
  [UInt8.ofNat (u.toNat % 256), UInt8.ofNat (u.toNat / 256)]

/-- The little-endian UTF-16 bytes of a text, lone surrogates let through. -/
def utf16Bytes (t : Text) : List UInt8 := t.utf16.flatMap unitBytes

/-- The length of a field: the UTF-16 code units of the text, two bytes each. -/
def fieldLength (t : Text) : Nat := t.utf16Bytes.length / 2

/-- Each high surrogate that a low one follows is joined with it. -/
def joinPairs : Text → Text
  | high :: low :: rest =>
    if high.isHighSurrogate && low.isLowSurrogate then CodePoint.ofPair high low :: joinPairs rest
    else high :: joinPairs (low :: rest)
  | t => t

end Text

end Telemetry
