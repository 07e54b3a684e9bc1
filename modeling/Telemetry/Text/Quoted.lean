import Telemetry.Text.Printable
import Telemetry.Text.Digits

/-!
# Quoted text

How a text or a string of bytes is shown inside a message. Single quotes enclose it, double quotes
if it holds a single quote and no double one. A backslash and the enclosing quote are escaped, and
so is whatever is not printable: line feed, carriage return and tab by a letter, the rest by its
number in two, four or eight hexadecimal digits.
-/

namespace Telemetry

/-- The hexadecimal digits of a number, in lower case, filled up to a width. -/
def hexDigits (width n : Nat) : Text :=
  Text.padZeros width ((Nat.toDigits 16 n).map CodePoint.ofChar)

namespace Text

/-- The quote that encloses a text, by the code points in it. -/
def enclosingQuote (t : Text) : CodePoint :=
  if t.contains (CodePoint.ofChar '\'') && !t.contains (CodePoint.ofChar '"') then
    CodePoint.ofChar '"'
  else CodePoint.ofChar '\''

end Text

namespace CodePoint

/-- The code points that are escaped by a letter or by themselves inside a given quote. -/
def shortEscape? (quote c : CodePoint) : Option Text :=
  if c = quote ∨ c = ofChar '\\' then some [ofChar '\\', c]
  else if c = ofChar '\n' then some "\\n"
  else if c = ofChar '\r' then some "\\r"
  else if c = ofChar '\t' then some "\\t"
  else none

/-- A code point as it stands in a quoted text. -/
def quoted (quote c : CodePoint) : Text :=
  match shortEscape? quote c with
  | some t => t
  | none =>
    if c.isPrintable then [c]
    else if c.val < 0x100 then "\\x" ++ hexDigits 2 c.val
    else if c.val < 0x10000 then "\\u" ++ hexDigits 4 c.val
    else "\\U" ++ hexDigits 8 c.val

end CodePoint

namespace Text

/-- A text between quotes. -/
def quoted (t : Text) : Text :=
  let quote := t.enclosingQuote
  [quote] ++ t.flatMap (CodePoint.quoted quote) ++ [quote]

/-- The code points with the same numbers as the bytes. -/
def ofBytes (bytes : List UInt8) : Text :=
  bytes.map fun b => ⟨b.toNat, Nat.lt_trans b.toNat_lt (by decide)⟩

/-- A byte as it stands in quoted bytes: ASCII where it is printable, else by its number. -/
def quotedByte (quote c : CodePoint) : Text :=
  match CodePoint.shortEscape? quote c with
  | some t => t
  | none => if 32 ≤ c.val ∧ c.val < 127 then [c] else "\\x" ++ hexDigits 2 c.val

/-- A string of bytes between quotes, with a letter in front that tells it from a text. -/
def quotedBytes (bytes : List UInt8) : Text :=
  let t := ofBytes bytes
  let quote := t.enclosingQuote
  "b" ++ [quote] ++ t.flatMap (quotedByte quote) ++ [quote]

end Text

end Telemetry
