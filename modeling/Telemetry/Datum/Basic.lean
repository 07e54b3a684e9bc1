import Telemetry.Text.Digits
import Telemetry.Decimal.Basic
import Telemetry.Binary64.Basic

/-!
# Data

What a caller may hand to a draft, a message or a record: any value, of the right kind or not. A
datum is inspected at the boundary and never stored where a kind is known.
-/

namespace Telemetry

/-- A value as a caller passes it. -/
inductive Datum where
  | null
  | bool (b : Bool)
  | int (i : Int)
  | float (x : Binary64)
  | text (t : Text)
  | decimal (d : Decimal)
  | bytes (bs : List UInt8)
  | list (items : List Datum)
  | tuple (items : List Datum)
  /-- Entries in order of insertion, no key twice. -/
  | dict (entries : List (Datum × Datum))
  /-- A value of a kind that nothing here makes use of; only the name of the kind is known. -/
  | other (kind : Text)

namespace Datum

instance : Inhabited Datum := ⟨null⟩

/-- The name of the kind of a datum, as messages give it. -/
def kindName : Datum → Text
  | null => "NoneType"
  | bool _ => "bool"
  | int _ => "int"
  | float _ => "float"
  | text _ => "str"
  | decimal _ => "Decimal"
  | bytes _ => "bytes"
  | list _ => "list"
  | tuple _ => "tuple"
  | dict _ => "dict"
  | other kind => kind

/-- The kind of a datum by its full name, where that differs from the plain one. -/
def qualifiedKindName : Datum → Text
  | decimal _ => "decimal.Decimal"
  | d => d.kindName

/-- The kind of the complex numbers. -/
def complexKind : Text := "complex"

/-- The kind of the sets. -/
def setKind : Text := "set"

/--
A datum that stands for nothing: absent, zero, or empty. Of a set and of a complex number nothing is
known, so they count as empty and as zero.
-/
def isVoid : Datum → Bool
  | null => true
  | bool b => !b
  | int i => i == 0
  | float x => x.magnitude == 0
  | text t => t.isEmpty
  | decimal (.finite _ coefficient _) => coefficient == 0
  | decimal _ => false
  | bytes bs => bs.isEmpty
  | list items => items.isEmpty
  | tuple items => items.isEmpty
  | dict entries => entries.isEmpty
  | other kind => kind == complexKind || kind == setKind

/-- A text or nothing. -/
def ofText? : Option Text → Datum
  | some t => text t
  | none => null

/-- An integer or nothing. -/
def ofInt? : Option Int → Datum
  | some i => int i
  | none => null

/-- An integer with more digits than this has no text. -/
def maxIntDigits : Nat := 4300

/-- The integer is too long to be written in decimal. -/
def isLongInt (i : Int) : Bool := decide (pow10 maxIntDigits ≤ i.natAbs)

end Datum

end Telemetry
