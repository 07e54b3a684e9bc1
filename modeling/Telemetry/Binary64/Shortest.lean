import Telemetry.Binary64.Basic

/-!
# Shortest decimal

The shortest decimal of a float is the one with the fewest digits among those that round to it; of
several with equally few digits it is the nearest one, and of two equally near the even one. The
decimals that round to a float form an interval around it. Grids of powers of ten are tried from
coarse to fine: the first one with a point in the interval gives the fewest digits, and if a grid
has a point in the interval then one of the two neighbours of the float on that grid is one.
-/

namespace Telemetry

namespace Binary64

/-- Compares `a · 2 ^ p` with `b · 10 ^ i`. -/
def compareScaled (a : Nat) (p : Int) (b : Nat) (i : Int) : Ordering :=
  compare (a * pow2 p.toNat * pow10 (-i).toNat) (b * pow10 i.toNat * pow2 (-p).toNat)

/--
Whether `b · 10 ^ i` rounds to the float with significand `m` and exponent `q`. The interval reaches
half a unit to either side, a quarter below a power of two, where the floats below lie closer
together. Its ends belong to it if the significand is even.
-/
def roundsTo (m : Nat) (q : Int) (b : Nat) (i : Int) : Bool :=
  let below := if m = fractionSize ∧ -1074 < q then 4 * m - 1 else 4 * m - 2
  let above := 4 * m + 2
  let low := compareScaled below (q - 2) b i
  let high := compareScaled above (q - 2) b i
  if m % 2 = 0 then low != .gt && high != .lt else low == .lt && high == .gt

/-- The largest multiple of `10 ^ i` that is at most `m · 2 ^ q`, as a number of such units. -/
def floorOnGrid (m : Nat) (q i : Int) : Nat :=
  m * pow2 q.toNat * pow10 (-i).toNat / (pow2 (-q).toNat * pow10 i.toNat)

/-- The point of a grid that is nearest to `m · 2 ^ q` among those that round to it. -/
def nearestOnGrid? (m : Nat) (q i : Int) : Option Nat :=
  let low := floorOnGrid m q i
  match roundsTo m q low i, roundsTo m q (low + 1) i with
  | true, true =>
    match compareScaled (2 * m) q (2 * low + 1) i with
    | .lt => some low
    | .gt => some (low + 1)
    | .eq => some (low + low % 2)
  | true, false => some low
  | false, true => some (low + 1)
  | false, false => none

/-- The place of the leading digit of `m · 2 ^ q`; no finite float but zero is below `10 ^ -324`. -/
def decimalPlace (m : Nat) (q : Int) : Int :=
  (digitCount (floorOnGrid m q (-340)) : Int) - 341

/-- The exponents of the grids to be tried, from the one above the leading digit downwards. -/
def gridExponents (m : Nat) (q : Int) : List Int :=
  (List.range 20).map fun (k : Nat) => decimalPlace m q + 1 - (k : Int)

/-- The shortest decimal of `m · 2 ^ q` as coefficient and exponent. -/
def shortest (m : Nat) (q : Int) : Nat × Int :=
  ((gridExponents m q).findSome? fun i => (nearestOnGrid? m q i).map fun n => (n, i)).getD (0, 0)

end Binary64

end Telemetry
