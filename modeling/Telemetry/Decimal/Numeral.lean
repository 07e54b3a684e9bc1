import Telemetry.Decimal.Basic

/-!
# Plain decimal numerals

The texts that are read as numbers: an optional sign, digits with at most one point among or around
them, and an optional power of ten. Nothing else is a numeral: no blank, no underscore, no digit
beyond ASCII, no name of a special value. A numeral is read exactly; it has a decimal unless its
power of ten is beyond what a decimal can hold.
-/

namespace Telemetry

/-- A numeral taken apart: `± whole.fraction · 10 ^ power`. -/
structure Numeral where
  /-- Whether a minus sign is in front. -/
  negative : Bool
  /-- The digits in front of the point. -/
  whole : Text
  /-- The digits behind the point. -/
  fraction : Text
  /-- The written power of ten, zero if none is written. -/
  power : Int
  deriving DecidableEq

namespace Numeral

/-- Splits off a sign; the first part tells whether it was a minus. -/
def takeSign : Text → Bool × Text
  | c :: rest =>
    if c = CodePoint.ofChar '-' then (true, rest)
    else if c = CodePoint.ofChar '+' then (false, rest)
    else (false, c :: rest)
  | [] => (false, [])

/-- Splits a text behind its leading digits. -/
def takeDigits (t : Text) : Text × Text :=
  (t.takeWhile CodePoint.isDigit, t.dropWhile CodePoint.isDigit)

/-- Splits off a point and the digits behind it, if there is one. -/
def takeFraction : Text → Text × Text
  | c :: rest => if c = CodePoint.ofChar '.' then takeDigits rest else ([], c :: rest)
  | [] => ([], [])

/--
Reads the power of ten that ends a numeral, given the number that its digits denote; nothing at all
stands for the power zero.
-/
def readPower? (valueOf : Text → Nat) : Text → Option Int
  | [] => some 0
  | c :: rest =>
    if c = CodePoint.ofChar 'e' ∨ c = CodePoint.ofChar 'E' then
      let (negative, digits) := takeSign rest
      if digits.isEmpty || !digits.all CodePoint.isDigit then none
      else some (Decimal.signed negative (valueOf digits))
    else none

/--
Reads a text that is a numeral from its first to its last code point, given the number that the
digits of its power denote.
-/
def read? (valueOf : Text → Nat) (t : Text) : Option Numeral :=
  let (negative, rest) := takeSign t
  let (whole, rest) := takeDigits rest
  let (fraction, rest) := takeFraction rest
  if whole.isEmpty && fraction.isEmpty then none
  else (readPower? valueOf rest).map fun power => { negative, whole, fraction, power }

/-- Reads a text that is a numeral from its first to its last code point. -/
def ofText? (t : Text) : Option Numeral := read? Text.digitsValue t

/-- The digits of a numeral joined to one number. -/
def coefficient (n : Numeral) : Nat := (n.whole ++ n.fraction).digitsValue

/-- The power of ten that the joined digits are multiplied with. -/
def exponent (n : Numeral) : Int := n.power - n.fraction.length

/-- The largest exponent that the leading digit of a decimal may have. -/
def maxAdjustedExponent : Int := 999999999999999999

/-- The least exponent that the last digit of a decimal may have. -/
def minExponent : Int := -1999999999999999997

/-- The decimal that a numeral denotes, digit for digit, if its power of ten is within bounds. -/
def toDecimal? (n : Numeral) : Option Decimal :=
  if Decimal.adjustedExponent n.coefficient n.exponent ≤ maxAdjustedExponent
      ∧ minExponent ≤ n.exponent then
    some (.finite n.negative n.coefficient n.exponent)
  else none

end Numeral

namespace Decimal

/-- Reads a plain decimal numeral. -/
def ofText? (t : Text) : Option Decimal := (Numeral.ofText? t).bind Numeral.toDecimal?

end Decimal

end Telemetry
