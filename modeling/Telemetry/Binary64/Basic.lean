import Telemetry.Text.Digits

/-!
# Binary floating-point numbers

A 64-bit float is its sign and the 63 bits of its magnitude. The magnitudes are ordered as the
numbers that they stand for: finite ones first, then infinity, then the NaNs. A finite float is
`± significand · 2 ^ exponent` with a significand below `2 ^ 53`, and adjacent magnitudes differ by
one unit of `2 ^ exponent`.
-/

namespace Telemetry

/-- An IEEE 754 number of 64 bits. -/
structure Binary64 where
  /-- The sign bit. -/
  negative : Bool
  /-- The exponent field and the fraction field, in one. -/
  magnitude : Nat
  magnitude_lt : magnitude < 0x8000000000000000
  deriving DecidableEq

namespace Binary64

/-- The number of magnitudes that share an exponent field. -/
def fractionSize : Nat := 0x10000000000000

/-- The magnitude of the infinities. -/
def infiniteMagnitude : Nat := 0x7FF0000000000000

/-- The float with these bits. -/
def ofBits (bits : UInt64) : Binary64 where
  negative := decide (0x8000000000000000 ≤ bits.toNat)
  magnitude := bits.toNat % 0x8000000000000000
  magnitude_lt := Nat.mod_lt _ (by decide)

/-- The 64 bits as a number. -/
def bits (x : Binary64) : Nat := (if x.negative then 0x8000000000000000 else 0) + x.magnitude

/-- Neither an infinity nor a NaN. -/
def isFinite (x : Binary64) : Bool := decide (x.magnitude < infiniteMagnitude)

/-- An infinity. -/
def isInfinite (x : Binary64) : Bool := x.magnitude == infiniteMagnitude

/-- Not a number. -/
def isNaN (x : Binary64) : Bool := decide (infiniteMagnitude < x.magnitude)

/-- The exponent field. -/
def exponentField (x : Binary64) : Nat := x.magnitude / fractionSize

/-- The fraction field. -/
def fractionField (x : Binary64) : Nat := x.magnitude % fractionSize

/-- The significand of a finite float: the fraction, with the leading bit of a normal number. -/
def significand (x : Binary64) : Nat :=
  if x.exponentField = 0 then x.fractionField else fractionSize + x.fractionField

/-- The power of two that the significand is multiplied with. -/
def exponent (x : Binary64) : Int := (max x.exponentField 1 : Nat) - 1075

/-- The zeros. -/
def zero (negative : Bool) : Binary64 := ⟨negative, 0, by decide⟩

/-- The infinities. -/
def infinity (negative : Bool) : Binary64 := ⟨negative, infiniteMagnitude, by decide⟩

/-- The NaN with only the first bit of its fraction set. -/
def nan : Binary64 := ⟨false, 0x7FF8000000000000, by decide⟩

/-- Every NaN as the one NaN, every other float as it is. -/
def canonical (x : Binary64) : Binary64 := if x.isNaN then nan else x

/-- The float without its sign. -/
def abs (x : Binary64) : Binary64 := { x with negative := false }

/-- Whether a finite float is a whole number. -/
def isWhole (x : Binary64) : Bool :=
  decide (0 ≤ x.exponent) || x.significand % pow2 (-x.exponent).toNat == 0

/-- The integer part of the magnitude of a finite float. -/
def integerPart (x : Binary64) : Nat :=
  x.significand * pow2 x.exponent.toNat / pow2 (-x.exponent).toNat

/-- The least whole number that is not below the magnitude of a finite float. -/
def ceiling (x : Binary64) : Nat := if x.isWhole then x.integerPart else x.integerPart + 1

end Binary64

end Telemetry
