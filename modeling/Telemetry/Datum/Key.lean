import Telemetry.Datum.Basic

/-!
# Dictionary keys

A dictionary takes a key for the same if it is equal to one that it holds, and numbers are equal
across their kinds: `1`, `True`, `1.0` and `Decimal('1.00')` are one key. Each number has a normal
form as a decimal without trailing zeros, and two numbers are equal if their normal forms are. A
repeated key keeps its place and takes the new value. Containers that can change are no keys.
-/

namespace Telemetry

namespace Decimal

/-- Moves the trailing zeros of a coefficient into the exponent, at most `fuel` of them. -/
def stripZeros : (fuel coefficient : Nat) → Int → Nat × Int
  | 0, coefficient, exponent => (coefficient, exponent)
  | fuel + 1, coefficient, exponent =>
    if coefficient % 10 = 0 then stripZeros fuel (coefficient / 10) (exponent + 1)
    else (coefficient, exponent)

/-- The decimal of equal value without trailing zeros; a zero has neither sign nor exponent. -/
def normalized : Decimal → Decimal
  | finite negative coefficient exponent =>
    if coefficient = 0 then finite false 0 0
    else
      let (coefficient, exponent) := stripZeros (digitCount coefficient) coefficient exponent
      finite negative coefficient exponent
  | special => special

end Decimal

namespace Binary64

/-- The exact decimal of a float: a negative power of two is a power of five over one of ten. -/
def toDecimal (x : Binary64) : Decimal :=
  if x.isNaN then .nan x.negative false 0
  else if x.isInfinite then .infinity x.negative
  else if 0 ≤ x.exponent then .finite x.negative (x.significand * pow2 x.exponent.toNat) 0
  else .finite x.negative (x.significand * Nat.pow 5 (-x.exponent).toNat) x.exponent

end Binary64

namespace Datum

/-- The normal form of a number; other data are no numbers. -/
def numberKey? : Datum → Option Decimal
  | bool b => some (Decimal.ofInt (if b then 1 else 0)).normalized
  | int i => some (Decimal.ofInt i).normalized
  | float x => some x.toDecimal.normalized
  | decimal d => some d.normalized
  | _ => none

/-- Two numbers are equal; a NaN is equal to nothing. -/
def sameNumber (a b : Decimal) : Bool :=
  match a with
  | .nan .. => false
  | a => a == b

mutual

/-- Two data are the same key. -/
def sameKey : Datum → Datum → Bool
  | null, null => true
  | text s, text t => s == t
  | bytes a, bytes b => a == b
  | tuple as, tuple bs => sameKeys as bs
  | a, b =>
    match numberKey? a, numberKey? b with
    | some m, some n => sameNumber m n
    | _, _ => false

/-- Two tuples of keys are the same, item by item. -/
def sameKeys : List Datum → List Datum → Bool
  | [], [] => true
  | a :: as, b :: bs => sameKey a b && sameKeys as bs
  | _, _ => false

end

/-- Why a datum is no key. -/
inductive KeyFault where
  | unhashable (kind : Text)
  | signalingNaN

mutual

/-- The reason why a datum cannot be a key, if there is one. -/
def keyFault? : Datum → Option KeyFault
  | list _ => some (.unhashable "list")
  | dict _ => some (.unhashable "dict")
  | decimal (.nan _ true _) => some .signalingNaN
  | tuple items => itemsFault? items
  | other kind => if kind = setKind then some (.unhashable kind) else none
  | _ => none

/-- The reason why the first such item of a tuple cannot be a key. -/
def itemsFault? : List Datum → Option KeyFault
  | [] => none
  | d :: rest => (keyFault? d).orElse fun _ => itemsFault? rest

end

/-- Enters a key with its value: a key that is held keeps its place. -/
def put (key value : Datum) : List (Datum × Datum) → List (Datum × Datum)
  | [] => [(key, value)]
  | (k, v) :: rest => if sameKey k key then (k, value) :: rest else (k, v) :: put key value rest

/-- The dictionary with these pairs, entered in order. -/
def dictOf (pairs : List (Datum × Datum)) : List (Datum × Datum) :=
  pairs.foldl (fun entries p => put p.1 p.2 entries) []

end Datum

end Telemetry
