import Telemetry.Text.Digits

/-!
# Decimal numbers

A decimal keeps its sign, its coefficient and its exponent, so `1.50` and `1.5` differ, and so do
`0` and `-0`. Beside the finite ones there are the infinities and the NaNs, quiet and signaling.
Comparisons with an integer and truncation to one are exact, and neither builds a power of ten much
larger than its operands, however large the exponent.
-/

namespace Telemetry

/-- A decimal: a finite number `± coefficient · 10 ^ exponent`, or a special value. -/
inductive Decimal where
  | finite (negative : Bool) (coefficient : Nat) (exponent : Int)
  | infinity (negative : Bool)
  | nan (negative signaling : Bool) (payload : Nat)
  deriving DecidableEq

namespace Decimal

/-- The decimal with exponent zero. -/
def ofInt (i : Int) : Decimal := finite (decide (i < 0)) i.natAbs 0

/-- Neither an infinity nor a NaN. -/
def isFinite : Decimal → Bool
  | finite .. => true
  | _ => false

/-- The exponent of the leading digit of `coefficient · 10 ^ exponent`. -/
def adjustedExponent (coefficient : Nat) (exponent : Int) : Int :=
  exponent + (digitCount coefficient : Int) - 1

/--
Whether `coefficient · 10 ^ exponent` is larger than `bound`. The place of the leading digit decides
unless both have it in common, and then the exponent is as small as the operands are short.
-/
def exceeds (coefficient : Nat) (exponent : Int) (bound : Nat) : Bool :=
  if coefficient = 0 then false
  else if bound = 0 then true
  else
    let place := adjustedExponent coefficient exponent
    let boundPlace := (digitCount bound : Int) - 1
    if boundPlace < place then true
    else if place < boundPlace then false
    else decide (bound * pow10 (-exponent).toNat < coefficient * pow10 exponent.toNat)

/-- The integer part of `coefficient · 10 ^ exponent`. -/
def integerPart (coefficient : Nat) (exponent : Int) : Nat :=
  if coefficient = 0 then 0
  else if 0 ≤ exponent then coefficient * pow10 exponent.toNat
  else if digitCount coefficient ≤ (-exponent).toNat then 0
  else coefficient / pow10 (-exponent).toNat

/-- A magnitude with its sign. -/
def signed (negative : Bool) (magnitude : Nat) : Int :=
  if negative then -(magnitude : Int) else magnitude

/-- The number without its fraction; a special value has none. -/
def truncate? : Decimal → Option Int
  | finite negative coefficient exponent =>
    some (signed negative (integerPart coefficient exponent))
  | _ => none

end Decimal

end Telemetry
