import Telemetry.Binary64.Basic
import Telemetry.Decimal.Basic

/-!
# Rounding to binary floating-point

Quotients of natural numbers are rounded to the nearest integer, ties going to the even one. With
that a ratio is rounded to a float in one step: the grid of the floats around it is found first,
then the ratio is rounded on that grid. A carry into the next binade needs no care, because the
magnitudes of the floats run through in order. Sums are formed exactly and rounded once.
-/

namespace Telemetry

/-- The integer nearest to `numerator / denominator`; of two equally near ones the even one. -/
def roundDiv (numerator denominator : Nat) : Nat :=
  let quotient := numerator / denominator
  let rest := numerator % denominator
  if 2 * rest < denominator then quotient
  else if denominator < 2 * rest then quotient + 1
  else quotient + quotient % 2

namespace Binary64

/-- The largest `e` with `2 ^ e ≤ numerator / denominator`, both being positive. -/
def binade (numerator denominator : Nat) : Int :=
  let e : Int := (Nat.log2 numerator : Int) - Nat.log2 denominator
  if denominator * pow2 e.toNat ≤ numerator * pow2 (-e).toNat then e else e - 1

/-- The float nearest to `± numerator / denominator`, ties to even; overflow gives an infinity. -/
def ofRatio (negative : Bool) (numerator denominator : Nat) : Binary64 :=
  if numerator = 0 then zero negative
  else
    let exponent := max (-1074) (binade numerator denominator - 52)
    let significand :=
      roundDiv (numerator * pow2 (-exponent).toNat) (denominator * pow2 exponent.toNat)
    let magnitude := (exponent + 1074).toNat * fractionSize + significand
    if h : magnitude < infiniteMagnitude then
      ⟨negative, magnitude, Nat.lt_trans h (by decide)⟩
    else infinity negative

/-- The float nearest to `± coefficient · 10 ^ exponent`. -/
def ofScaled (negative : Bool) (coefficient : Nat) (exponent : Int) : Binary64 :=
  let place := Decimal.adjustedExponent coefficient exponent
  if coefficient = 0 ∨ place < -400 then zero negative
  else if 400 < place then infinity negative
  else ofRatio negative (coefficient * pow10 exponent.toNat) (pow10 (-exponent).toNat)

/-- The float nearest to a natural number. -/
def ofNat (n : Nat) : Binary64 := ofRatio false n 1

/-- The float nearest to an integer. -/
def ofInt (i : Int) : Binary64 := ofRatio (decide (i < 0)) i.natAbs 1

/--
The sum of two magnitudes, rounded once. An undefined operand is the result, else an infinite one.
-/
def addMagnitudes (x y : Binary64) : Binary64 :=
  if x.isNaN then x
  else if !y.isFinite then y
  else if !x.isFinite then x
  else
    let low := min x.exponent y.exponent
    let sum := x.significand * pow2 (x.exponent - low).toNat
      + y.significand * pow2 (y.exponent - low).toNat
    ofRatio false (sum * pow2 low.toNat) (pow2 (-low).toNat)

end Binary64

end Telemetry
