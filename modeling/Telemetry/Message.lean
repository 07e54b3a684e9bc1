import Telemetry.Reading
import Telemetry.Datum.Key

/-!
# Messages that an event may belong to

A push message is reduced to its extras, a dictionary with texts for keys; its send id is one of
them, read as text whatever it is. An inbox message is known by its id. Extras may be given as any
sequence of pairs, and as anything void for none. Where a message is asked for something else may be
passed, and then what it has for an id is taken as it is (`MessageArgument`).
-/

namespace Telemetry

/-- A delivered push. -/
structure PushMessage where
  extras : List (Text × Datum)

/-- A message of the inbox. -/
structure InboxMessage where
  messageId : Text
  deriving DecidableEq

namespace Datum

/-- The items that a datum yields one after another; none if it yields nothing of the kind. -/
def items? : Datum → Option (List Datum)
  | list items => some items
  | tuple items => some items
  | text t => some (t.map fun c => text [c])
  | bytes bs => some (bs.map fun b => int b.toNat)
  | dict entries => some (entries.map Prod.fst)
  | other kind => if kind = setKind then some [] else none
  | _ => none

/-- The fault of a datum that is entered as a key and is none. -/
def checkKey (d : Datum) : Except Fault Unit :=
  match d.keyFault? with
  | none => .ok ()
  | some (.unhashable kind) => .error (.unhashable kind)
  | some .signalingNaN => .error .signalingKey

/-- Enters a sequence of pairs into a dictionary, counting from `index`. -/
def enterPairs : (index : Nat) → List Datum → List (Datum × Datum) →
    Except Fault (List (Datum × Datum))
  | _, [], entries => .ok entries
  | index, d :: rest, entries =>
    match d.items? with
    | none => .error (.pairNotSequence index)
    | some [key, value] =>
      match checkKey key with
      | .error fault => .error fault
      | .ok () => enterPairs (index + 1) rest (put key value entries)
    | some items => .error (.pairLength index items.length)

/-- The dictionary that a datum stands for: its own entries, or those of a sequence of pairs. -/
def toDict (d : Datum) : Except Fault (List (Datum × Datum)) :=
  match d with
  | dict entries => .ok entries
  | d =>
    match d.items? with
    | some items => enterPairs 0 items []
    | none => .error (.notIterable d.qualifiedKindName)

end Datum

namespace PushMessage

/--
The place of a key of the extras in the message. A key that cannot be shown is named by its kind.
-/
def keyPlace : Datum → Text
  | .text t => t
  | .bool b => if b then "1" else "0"
  | d => if d.hasLongInt then "<unprintable " ++ d.kindName ++ " object>" else d.quoted

/-- Enters an extra: a key that is held keeps its place. -/
def put (key : Text) (value : Datum) : List (Text × Datum) → List (Text × Datum)
  | [] => [(key, value)]
  | (k, v) :: rest => if k = key then (k, value) :: rest else (k, v) :: put key value rest

/-- The extras with these entries, or every key that is no text. -/
def readExtras : List (Datum × Datum) → List (Text × Datum) → List Problem →
    Except (List Problem) (List (Text × Datum))
  | [], extras, problems => if problems.isEmpty then .ok extras else .error problems.reverse
  | (key, value) :: rest, extras, problems =>
    match Reading.text key with
    | .ok t => readExtras rest (put t value extras) problems
    | .error kind =>
      readExtras rest extras (⟨["extras", keyPlace key, "[key]"], kind⟩ :: problems)

/-- The push with these extras. -/
def ofExtras (extras : Datum) : Except Fault PushMessage :=
  if extras.isVoid then .ok ⟨[]⟩
  else
    match extras.toDict with
    | .error fault => .error fault
    | .ok entries =>
      match readExtras entries [] [] with
      | .ok extras => .ok ⟨extras⟩
      | .error problems => .error (.invalid problems)

/-- The send id of a push, as text; it has none if the extras hold none. -/
def sendId (m : PushMessage) : Except Fault (Option Text) :=
  match m.extras.lookup pushSendIdKey with
  | none | some .null => .ok none
  | some value => if value.hasLongInt then .error .longInt else .ok (some value.shown)

end PushMessage

namespace InboxMessage

/-- The message with this id. -/
def ofId (messageId : Datum) : Except Fault InboxMessage :=
  match Reading.text messageId with
  | .ok t => .ok ⟨t⟩
  | .error kind => .error (.invalid [⟨["message_id"], kind⟩])

end InboxMessage

/-- What is passed as a message: one, or something else, by what it has in the place of an id. -/
inductive MessageArgument (μ : Type) where
  | message (m : μ)
  | other (id : Except Failure Datum)

namespace MessageArgument

/-- The send id of what is passed as a push. -/
def sendId : MessageArgument PushMessage → Except Fault Datum
  | message m => m.sendId.map Datum.ofText?
  | other id => id.mapError (Failure.fault "send_id")

/-- The id of what is passed as an inbox message. -/
def messageId : MessageArgument InboxMessage → Except Fault Datum
  | message m => .ok (.text m.messageId)
  | other id => id.mapError (Failure.fault "message_id")

end MessageArgument

end Telemetry
