import Telemetry.Datum.Basic
import Telemetry.Text.Quoted
import Telemetry.Decimal.Printer
import Telemetry.Binary64.Printer

/-!
# Data as text

`Datum.quoted` is how a datum is shown in a message and inside a container, `Datum.shown` how it
reads on its own: there a text stands without quotes and a decimal without its name. An integer of
more than 4300 digits has neither; `Datum.hasLongInt` finds it.
-/

namespace Telemetry

namespace Datum

/-- Items between brackets. -/
def bracketed (opening closing : Text) (items : List Text) : Text :=
  opening ++ Text.join ", " items ++ closing

mutual

/-- A datum as it is shown in a message. -/
def quoted : Datum → Text
  | null => "None"
  | bool b => if b then "True" else "False"
  | int i => Text.ofInt i
  | float x => x.text
  | text t => t.quoted
  | decimal d => "Decimal('" ++ d.text ++ "')"
  | bytes bs => Text.quotedBytes bs
  | list items => bracketed "[" "]" (quotedItems items)
  | tuple items =>
    bracketed "(" (if items.length = 1 then ",)" else ")") (quotedItems items)
  | dict entries => bracketed "\x7b" "\x7d" (quotedEntries entries)
  | other kind =>
    if kind = complexKind then "0j"
    else if kind = setKind then "set()"
    else "<" ++ kind ++ ">"

/-- The items of a container, shown one by one. -/
def quotedItems : List Datum → List Text
  | [] => []
  | d :: rest => quoted d :: quotedItems rest

/-- The entries of a dictionary, shown one by one. -/
def quotedEntries : List (Datum × Datum) → List Text
  | [] => []
  | (key, value) :: rest => (quoted key ++ ": " ++ quoted value) :: quotedEntries rest

end

/-- A datum as it reads on its own. -/
def shown : Datum → Text
  | text t => t
  | decimal d => d.text
  | d => quoted d

mutual

/-- An integer that is too long to be written is in the datum. -/
def hasLongInt : Datum → Bool
  | int i => isLongInt i
  | list items => itemsHaveLongInt items
  | tuple items => itemsHaveLongInt items
  | dict entries => entriesHaveLongInt entries
  | _ => false

/-- One of the items holds such an integer. -/
def itemsHaveLongInt : List Datum → Bool
  | [] => false
  | d :: rest => hasLongInt d || itemsHaveLongInt rest

/-- A key or a value among the entries holds such an integer. -/
def entriesHaveLongInt : List (Datum × Datum) → Bool
  | [] => false
  | (key, value) :: rest => hasLongInt key || hasLongInt value || entriesHaveLongInt rest

end

end Datum

end Telemetry
