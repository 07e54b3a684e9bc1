import Telemetry.Binary64.Rounding
import Telemetry.Binary64.Shortest

/-!
# Floats as text

Three formats. `Binary64.text` writes the shortest decimal, positional between `0.0001` and `1e16`
and with a power of ten of at least two digits beyond. `Binary64.jsonText` writes the same digits
with other limits. `Binary64.fixed` rounds the exact binary value to a fixed number of places, ties
to even, and keeps the sign of a negative number that rounds to zero.
-/

namespace Telemetry

/-- How the digits of a float are laid out. -/
structure FloatFormat where
  /-- The place of the leading digit from which on a number is written positionally. -/
  leastPlace : Int
  /-- The first place of a leading digit that is written with a power of ten again. -/
  placeLimit : Int
  /-- The least number of digits of the power. -/
  powerWidth : Nat

namespace FloatFormat

/-- Positional up to sixteen places in front of the point and four behind it. -/
def display : FloatFormat where
  leastPlace := -4
  placeLimit := 16
  powerWidth := 2

/-- Positional from one place further behind the point on, and no zero in front of the power. -/
def json : FloatFormat where
  leastPlace := -5
  placeLimit := 16
  powerWidth := 1

end FloatFormat

namespace Binary64

/-- Lays out the positive number `digits · 10 ^ exponent`. -/
def layOut (f : FloatFormat) (digits : Text) (exponent : Int) : Text :=
  let place := exponent + (digits.length : Int) - 1
  if f.leastPlace ≤ place ∧ place < f.placeLimit then
    if 0 ≤ exponent then digits ++ Text.replicate exponent.toNat "0" ++ ".0"
    else
      let padded := digits.padZeros ((-exponent).toNat + 1)
      let whole := padded.length - (-exponent).toNat
      padded.take whole ++ "." ++ padded.drop whole
  else
    let fraction : Text := if digits.length = 1 then [] else "." ++ digits.drop 1
    digits.take 1 ++ fraction ++ (if place < 0 then "e-" else "e+")
      ++ (Text.ofNat place.natAbs).padZeros f.powerWidth

/-- The shortest decimal of a finite float, laid out. -/
def shortestText (f : FloatFormat) (x : Binary64) : Text :=
  let sign : Text := if x.negative then "-" else []
  if x.magnitude = 0 then sign ++ "0.0"
  else
    let (coefficient, exponent) := shortest x.significand x.exponent
    sign ++ layOut f (Text.ofNat coefficient) exponent

/-- The text of a float that is not finite. -/
def specialText (x : Binary64) : Text :=
  if x.isNaN then "nan" else if x.negative then "-inf" else "inf"

/-- The shortest text that reads back as the float. -/
def text (x : Binary64) : Text := if x.isFinite then shortestText .display x else specialText x

/-- The float as a JSON number; JSON has no other float than a finite one. -/
def jsonText (x : Binary64) : Text := if x.isFinite then shortestText .json x else "null"

/-- The magnitude of a finite float in units of `10 ^ -places`, rounded to an integer. -/
def inUnits (places : Nat) (x : Binary64) : Nat :=
  roundDiv (x.significand * pow2 x.exponent.toNat * pow10 places) (pow2 (-x.exponent).toNat)

/-- The float with a fixed number of places behind the point. -/
def fixed (places : Nat) (x : Binary64) : Text :=
  if x.isFinite then
    let units := inUnits places x
    let sign : Text := if x.negative then "-" else []
    sign ++ Text.ofNat (units / pow10 places) ++ "."
      ++ (Text.ofNat (units % pow10 places)).padZeros places
  else specialText x

end Binary64

end Telemetry
