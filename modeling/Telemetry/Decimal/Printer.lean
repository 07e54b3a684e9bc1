import Telemetry.Decimal.Basic

/-!
# Decimals in scientific notation

The scientific string of a decimal: digits with a point where the exponent is not positive and the
number not below a millionth, else one digit in front of the point and a signed power of ten. The
coefficient and the exponent can be read off again, so two decimals never share a text.
-/

namespace Telemetry

namespace Decimal

/-- The digits with the point `places` digits from the right. -/
def pointed (digits : Text) (places : Nat) : Text :=
  if places = 0 then digits
  else
    let padded := digits.padZeros (places + 1)
    let whole := padded.length - places
    padded.take whole ++ "." ++ padded.drop whole

/-- An integer with its sign, be it positive or negative. -/
def signedExponent (e : Int) : Text := (if e < 0 then "-" else "+") ++ Text.ofNat e.natAbs

/-- The scientific string of `coefficient · 10 ^ exponent`. -/
def magnitudeText (coefficient : Nat) (exponent : Int) : Text :=
  let digits := Text.ofNat coefficient
  let place := adjustedExponent coefficient exponent
  if exponent ≤ 0 ∧ -6 ≤ place then pointed digits (-exponent).toNat
  else
    let fraction : Text := if digits.length = 1 then [] else "." ++ digits.drop 1
    digits.take 1 ++ fraction ++ "E" ++ signedExponent place

/-- The text of a decimal. -/
def text (d : Decimal) : Text :=
  let sign (negative : Bool) : Text := if negative then "-" else []
  match d with
  | finite negative coefficient exponent => sign negative ++ magnitudeText coefficient exponent
  | infinity negative => sign negative ++ "Infinity"
  | nan negative signaling payload =>
    sign negative ++ (if signaling then "sNaN" else "NaN")
      ++ (if payload = 0 then [] else Text.ofNat payload)

end Decimal

end Telemetry
