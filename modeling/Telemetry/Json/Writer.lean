import Telemetry.Json.Quoted
import Telemetry.Text.Utf8
import Telemetry.EventRecord

/-!
# Writing JSON

Compact JSON in UTF-8: no blanks, entries in order, integers within 64 bits. A text with a surrogate
has no UTF-8 and is refused; so are decimals, bytes and keys that are no texts. Every container is
one level below the one that it stands in. Levels are counted modulo 256, and a list or a dictionary
on the last of them is refused; a tuple never is.
-/

namespace Telemetry

namespace Json

/-- The least and the largest integer that is written. -/
def minInt : Int := -0x8000000000000000

@[inherit_doc minInt]
def maxInt : Int := 0xFFFFFFFFFFFFFFFF

/-- A text as a JSON string, unless it has no UTF-8. -/
def writeText (t : Text) : Except Fault Text :=
  if t.isScalar then .ok (quote t) else .error .surrogate

/-- No list and no dictionary may be on this level. -/
def isTooDeep (level : Nat) : Bool := level % 256 == 255

mutual

/-- Writes a datum, which is on a level if it is a container. -/
def write (level : Nat) : Datum → Except Fault Text
  | .null => .ok "null"
  | .bool b => .ok (if b then "true" else "false")
  | .int i => if minInt ≤ i ∧ i ≤ maxInt then .ok (Text.ofInt i) else .error .jsonIntTooLong
  | .float x => .ok x.jsonText
  | .text t => writeText t
  | .decimal _ => .error (.notJson "decimal.Decimal")
  | .bytes _ => .error (.notJson "bytes")
  | .list items =>
    if isTooDeep level then .error .jsonTooDeep
    else
      match writeItems (level + 1) items with
      | .ok ts => .ok ("[" ++ Text.join "," ts ++ "]")
      | .error fault => .error fault
  | .tuple items =>
    match writeItems (level + 1) items with
    | .ok ts => .ok ("[" ++ Text.join "," ts ++ "]")
    | .error fault => .error fault
  | .dict entries =>
    if isTooDeep level then .error .jsonTooDeep
    else
      match writeEntries (level + 1) entries with
      | .ok ts => .ok ("\x7b" ++ Text.join "," ts ++ "\x7d")
      | .error fault => .error fault
  | .other kind => .error (.notJson kind)

/-- Writes the items of a container. -/
def writeItems (level : Nat) : List Datum → Except Fault (List Text)
  | [] => .ok []
  | d :: rest =>
    match write level d with
    | .error fault => .error fault
    | .ok t =>
      match writeItems level rest with
      | .error fault => .error fault
      | .ok ts => .ok (t :: ts)

/-- Writes the entries of a dictionary. -/
def writeEntries (level : Nat) : List (Datum × Datum) → Except Fault (List Text)
  | [] => .ok []
  | (.text key, value) :: rest =>
    match writeText key with
    | .error fault => .error fault
    | .ok key =>
      match write level value with
      | .error fault => .error fault
      | .ok t =>
        match writeEntries level rest with
        | .error fault => .error fault
        | .ok ts => .ok ((key ++ ":" ++ t) :: ts)
  | _ => .error .jsonKeyNotText

end

/-- The UTF-8 bytes of a datum in JSON. -/
def encode (d : Datum) : Except Fault (List UInt8) :=
  match write 1 d with
  | .error fault => .error fault
  | .ok t =>
    match t.toUtf8? with
    | some bytes => .ok bytes
    | none => .error .surrogate

end Json

namespace EventRecord

/-- The envelope of an event as JSON, ready for upload. -/
def json (r : EventRecord) (sessionId : Datum) : Except Fault (List UInt8) :=
  Json.encode (Payload.dictionary (r.payload sessionId).entries)

end EventRecord

end Telemetry
