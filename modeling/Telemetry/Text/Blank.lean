import Telemetry.Text.Basic

/-!
# Blanks

The code points with the Unicode property White_Space may surround a number that is read from text.
The words of a file of assignments are set apart by them and by the four information separators
U+001C to U+001F.
-/

namespace Telemetry

namespace CodePoint

/-- The ranges of the code points with the property White_Space. -/
def blankRanges : List (Nat × Nat) :=
  [(0x09, 0x0D), (0x20, 0x20), (0x85, 0x85), (0xA0, 0xA0), (0x1680, 0x1680), (0x2000, 0x200A),
   (0x2028, 0x2029), (0x202F, 0x202F), (0x205F, 0x205F), (0x3000, 0x3000)]

/-- Whether the code point is white space. -/
def isBlank (c : CodePoint) : Bool :=
  blankRanges.any fun r => decide (r.1 ≤ c.val) && decide (c.val ≤ r.2)

/-- Whether the code point is white space or an information separator. -/
def isSpace (c : CodePoint) : Bool :=
  c.isBlank || (decide (0x1C ≤ c.val) && decide (c.val ≤ 0x1F))

end CodePoint

namespace Text

/-- The text without the code points of a class in front and behind. -/
def strip (inClass : CodePoint → Bool) (t : Text) : Text :=
  ((t.dropWhile inClass).reverse.dropWhile inClass).reverse

/-- The text without the blanks in front and behind. -/
def trim (t : Text) : Text := t.strip CodePoint.isBlank

end Text

end Telemetry
