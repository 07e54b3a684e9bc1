import Telemetry.Fault
import Telemetry.Decimal.Numeral
import Telemetry.Decimal.Rounding

/-!
# Event values

An event value is given as an integer, a float, a decimal or a plain decimal numeral, and stored as
an integer in millionths. Every form is turned into an exact decimal first: a float into its
shortest decimal, a text by the grammar of numerals. The range is checked on the exact decimal, both
ends included, and only then is the number scaled and cut off toward zero. So the result depends on
the number alone, not on the form in which it was given.
-/

namespace Telemetry

namespace EventValue

/-- The number of decimal places that are kept. -/
def scaleDigits : Nat := 6

/-- The number of stored units in one. -/
def scale : Nat := pow10 scaleDigits

/-- The least and the largest number that may be given. -/
def minWhole : Int := -2147483648

@[inherit_doc minWhole]
def maxWhole : Int := 2147483647

/-- The least and the largest stored value. -/
def minStored : Int := minWhole * scale

@[inherit_doc minStored]
def maxStored : Int := maxWhole * scale

/-- The refusal of an event value. -/
def reject (value : Datum) (cause : RejectionCause) : Fault :=
  .rejected ⟨.eventValue, value, cause⟩

/-- The exact decimal of a datum; none stands for no value. -/
def toDecimal (value : Datum) : Except Fault (Option Decimal) :=
  match value with
  | .null => .ok none
  | .int i => .ok (some (.ofInt i))
  | .float x =>
    match Decimal.ofText? x.text with
    | some d => .ok (some d)
    | none => .error (reject value .notANumber)
  | .text t =>
    match Decimal.ofText? t with
    | some d => .ok (some d)
    | none => .error (reject value .notANumber)
  | .decimal d => if d.isFinite then .ok (some d) else .error (reject value .notFinite)
  | _ => .error (.notNumber value.kindName)

/-- The exact number is beyond the range of event values; a special value is not in question. -/
def isOutOfRange : Decimal → Bool
  | .finite negative coefficient exponent =>
    Decimal.exceeds coefficient exponent (if negative then minWhole else maxWhole).natAbs
  | _ => false

/-- The number of digits of a decimal. -/
def digitsOf : Decimal → Nat
  | .finite _ coefficient _ => digitCount coefficient
  | _ => 0

/--
The number in stored units, cut off toward zero. The context is widened so far that scaling keeps
every digit.
-/
def inStoredUnits (c : DecimalContext) (d : Decimal) : Option Int :=
  (d.scale (c.widen (digitsOf d + scaleDigits + 1)) scaleDigits).truncate?

/-- The stored value of a datum; none stands for no value. -/
def normalize (c : DecimalContext) (value : Datum) : Except Fault (Option Int) :=
  match toDecimal value with
  | .error fault => .error fault
  | .ok none => .ok none
  | .ok (some d) =>
    if isOutOfRange d then
      if value.hasLongInt then .error .longInt else .error (reject value .outOfRange)
    else .ok (inStoredUnits c d)

end EventValue

end Telemetry
