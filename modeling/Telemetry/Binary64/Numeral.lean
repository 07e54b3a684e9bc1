import Telemetry.Binary64.Rounding
import Telemetry.Decimal.Numeral

/-!
# Numerals as floats

A numeral stands for the float that is nearest to it, rounded once. Of its digits the first
`Binary64.decisiveDigits` count, and of those behind them only whether one is not zero: two adjacent
floats meet at a number of fewer digits, so nothing else can tell on which side of it the numeral
is. Of its power of ten no more digits are read once `Binary64.powerLimit` is reached.
-/

namespace Telemetry

namespace Binary64

/-- A power of ten that has reached this number takes no further digit. -/
def powerLimit : Nat := 0x10000

/-- The power of ten that a run of digits denotes, up to the digit that reaches the limit. -/
def powerValue (digits : Text) : Nat :=
  digits.foldl (fun n c => if n < powerLimit then n * 10 + c.digitValue else n) 0

/-- The number of digits that decide which float is nearest. -/
def decisiveDigits : Nat := 800

/-- The float nearest to a numeral. -/
def ofNumeral (n : Numeral) : Binary64 :=
  let isZero (c : CodePoint) : Bool := c.digitValue == 0
  let digits := (n.whole ++ n.fraction).dropWhile isZero
  let kept := Text.digitsValue (digits.take decisiveDigits)
  let rest := digits.drop decisiveDigits
  let exponent := n.exponent + rest.length
  if rest.all isZero then ofScaled n.negative kept exponent
  else ofScaled n.negative (kept * 10 + 1) (exponent - 1)

/-- Reads a text that is a numeral from its first to its last code point. -/
def ofText? (t : Text) : Option Binary64 := (Numeral.read? powerValue t).map ofNumeral

end Binary64

end Telemetry
