import Telemetry.Decimal.Basic

/-!
# Decimal rounding

Results of decimal arithmetic are rounded in a context: to its precision, in its direction, and to
the least exponent that it admits. `Decimal.scale` multiplies with a power of ten in a context. Its
result is exact as long as the precision covers the coefficient and the exponent stays above the
least one; below that the number is rounded to a multiple of the least power of ten.
-/

namespace Telemetry

/-- Where a number between two neighbours goes. -/
inductive Rounding where
  | up
  | down
  | ceiling
  | floor
  | halfUp
  | halfDown
  | halfEven
  /-- Away from zero only where the last kept digit would be zero or five. -/
  | zeroFiveUp
  deriving DecidableEq

/-- How results are rounded. -/
structure DecimalContext where
  /-- The number of digits that a result may have. -/
  precision : Nat
  rounding : Rounding
  deriving DecidableEq

namespace DecimalContext

/-- The context that holds unless a caller sets up another: 28 digits, ties to even. -/
def standard : DecimalContext := ⟨28, .halfEven⟩

/-- The least exponent of a leading digit. -/
def minAdjustedExponent : Int := -999999

/-- The largest exponent of a leading digit. -/
def maxAdjustedExponent : Int := 999999

/-- The least exponent of a last digit. -/
def minExponent (c : DecimalContext) : Int := minAdjustedExponent - ((c.precision : Int) - 1)

/-- The same context with at least this many digits. -/
def widen (c : DecimalContext) (digits : Nat) : DecimalContext :=
  { c with precision := max c.precision digits }

end DecimalContext

namespace Rounding

/--
Whether the kept part is increased by one, given the order of the cut-off part against half a unit;
the cut-off part is not zero.
-/
def increases (r : Rounding) (negative : Bool) (kept : Nat) (half : Ordering) : Bool :=
  match r with
  | up => true
  | down => false
  | ceiling => !negative
  | floor => negative
  | halfUp => half != .lt
  | halfDown => half == .gt
  | halfEven => half == .gt || (half == .eq && kept % 2 == 1)
  | zeroFiveUp => kept % 5 == 0

/--
The coefficient without its last `places` digits, rounded. Where more digits are cut off than there
are, nothing is kept and the cut-off part is below half a unit.
-/
def cut (r : Rounding) (negative : Bool) (coefficient places : Nat) : Nat :=
  if coefficient = 0 then 0
  else if digitCount coefficient < places then
    if r.increases negative 0 .lt then 1 else 0
  else
    let unit := pow10 places
    let kept := coefficient / unit
    let rest := coefficient % unit
    if rest = 0 then kept
    else if r.increases negative kept (compare (2 * rest) unit) then kept + 1
    else kept

end Rounding

namespace Decimal

/-- The decimal `± coefficient · 10 ^ exponent` as a context holds it. -/
def rounded (c : DecimalContext) (negative : Bool) (coefficient : Nat) (exponent : Int) : Decimal :=
  if coefficient = 0 then
    .finite negative 0 (max c.minExponent (min DecimalContext.maxAdjustedExponent exponent))
  else
    let surplus := max ((digitCount coefficient : Int) - c.precision) (c.minExponent - exponent)
    if surplus ≤ 0 then .finite negative coefficient exponent
    else
      let kept := c.rounding.cut negative coefficient surplus.toNat
      if c.precision < digitCount kept then .finite negative (kept / 10) (exponent + surplus + 1)
      else .finite negative kept (exponent + surplus)

/-- The leading digit of a finite decimal is beyond the place that a context admits. -/
def overflows : Decimal → Bool
  | finite _ coefficient exponent =>
    coefficient != 0
      && decide (DecimalContext.maxAdjustedExponent < adjustedExponent coefficient exponent)
  | _ => false

/-- The decimal times a power of ten; a special value stays what it is. -/
def scale (c : DecimalContext) (d : Decimal) (places : Int) : Decimal :=
  match d with
  | finite negative coefficient exponent => rounded c negative coefficient (exponent + places)
  | special => special

end Decimal

end Telemetry
