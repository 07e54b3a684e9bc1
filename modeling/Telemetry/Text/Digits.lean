import Telemetry.Text.Basic

/-!
# Decimal digits

Numbers as text and back. `Text.ofNat` writes no superfluous zero, `Text.digitsValue` reads any run
of digits.
-/

namespace Telemetry

/-- A power of ten. -/
def pow10 (n : Nat) : Nat := Nat.pow 10 n

/-- A power of two. -/
def pow2 (n : Nat) : Nat := Nat.pow 2 n

/-- The number of decimal digits; zero has one. -/
def digitCount (n : Nat) : Nat := (Nat.toDigits 10 n).length

namespace Text

/-- The decimal digits of a number. -/
def ofNat (n : Nat) : Text := (Nat.toDigits 10 n).map CodePoint.ofChar

/-- The decimal digits of an integer, a minus sign in front of a negative one. -/
def ofInt (i : Int) : Text := if i < 0 then "-" ++ ofNat i.natAbs else ofNat i.natAbs

/-- The number that a run of digits denotes. -/
def digitsValue (t : Text) : Nat := t.foldl (fun n c => n * 10 + c.digitValue) 0

/-- The text filled with zeros in front up to a width. -/
def padZeros (width : Nat) (t : Text) : Text := replicate (width - t.length) "0" ++ t

end Text

end Telemetry
