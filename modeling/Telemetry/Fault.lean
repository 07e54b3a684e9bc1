import Telemetry.Field
import Telemetry.Datum.Printer

/-!
# Faults

Every way in which an operation can fail, as its cause, and the wording of each in one place.

A *rejection* is the refusal of an input of a draft. It names the field and carries the input; it is
the only kind of fault that is logged and counted. A *problem* is a field of a record, a message or
the settings that does not fit; a model reports all its problems at once.
-/

namespace Telemetry

/-- Why an input of a draft is refused. -/
inductive RejectionCause where
  /-- The field must be there. -/
  | required
  /-- The field must not be empty. -/
  | empty
  /-- The field is longer than a field may be. -/
  | tooLong (length : Nat)
  /-- The number is below the least or above the largest one. -/
  | outOfRange
  /-- The text is no plain numeral, or the float is not finite. -/
  | notANumber
  /-- The decimal is an infinity or a NaN. -/
  | notFinite
  deriving DecidableEq

/-- The two classes that rejections are counted under. -/
inductive RejectionClass where
  | invalidField
  | notANumber
  deriving DecidableEq

namespace RejectionClass

/-- The name of a class, as logs and metrics give it. -/
def name : RejectionClass → Text
  | invalidField => "InvalidField"
  | notANumber => "NotANumber"

end RejectionClass

/-- A refused input of a draft. -/
structure Rejection where
  field : Field
  /-- The input as it was passed. -/
  value : Datum
  cause : RejectionCause

namespace Rejection

/-- The class that a rejection is counted under: a value that is no finite number, or the rest. -/
def kind (r : Rejection) : RejectionClass :=
  match r.cause with
  | .notANumber | .notFinite => .notANumber
  | _ => .invalidField

/-- The wording of a rejection. -/
def message (r : Rejection) : Text :=
  match r.cause with
  | .required => r.field.key ++ " is required"
  | .empty => r.field.key ++ " must not be empty"
  | .tooLong length =>
    r.field.key ++ " must not exceed " ++ Text.ofNat Field.maxLength ++ " characters (got "
      ++ Text.ofNat length ++ ")"
  | .outOfRange =>
    "Event value " ++ r.value.quoted ++ " must be between -2147483648 and 2147483647"
  | .notANumber => "Event value " ++ r.value.quoted ++ " is not a number"
  | .notFinite => "Event value " ++ r.value.quoted ++ " is not a finite number"

end Rejection

/-- What is wrong with a field of a model. -/
inductive ProblemKind where
  | missing
  | notText
  | notUnicode
  | notInt
  | intUnreadable
  | intTooLong
  | intHasFraction
  | notFinite
  | notFloat
  | floatUnreadable
  | boolUnreadable
  /-- Not one of the admitted texts. -/
  | notAmong (choices : List Text)
  | empty (field : Field)
  | tooLong (field : Field)
  | valueOutOfRange
  /-- Both send ids are set. -/
  | bothSendIds
  deriving DecidableEq

namespace ProblemKind

/-- Choices as a phrase: separated by commas, and by a word before the last. -/
def choicePhrase : List Text → Text
  | [] => []
  | [a] => a.quoted
  | [a, b] => a.quoted ++ " or " ++ b.quoted
  | a :: rest => a.quoted ++ ", " ++ choicePhrase rest

/-- The code of a problem. -/
def code : ProblemKind → Text
  | missing => "missing"
  | notText => "string_type"
  | notUnicode => "string_unicode"
  | notInt => "int_type"
  | intUnreadable => "int_parsing"
  | intTooLong => "int_parsing_size"
  | intHasFraction => "int_from_float"
  | notFinite => "finite_number"
  | notFloat => "float_type"
  | floatUnreadable => "float_parsing"
  | boolUnreadable => "bool_parsing"
  | notAmong _ => "literal_error"
  | empty _ | tooLong _ | valueOutOfRange | bothSendIds => "value_error"

/-- The wording of a problem. -/
def message : ProblemKind → Text
  | missing => "Field required"
  | notText => "Input should be a valid string"
  | notUnicode =>
    "Input should be a valid string, unable to parse raw data as a unicode string"
  | notInt => "Input should be a valid integer"
  | intUnreadable => "Input should be a valid integer, unable to parse string as an integer"
  | intTooLong => "Unable to parse input string as an integer, exceeded maximum size"
  | intHasFraction => "Input should be a valid integer, got a number with a fractional part"
  | notFinite => "Input should be a finite number"
  | notFloat => "Input should be a valid number"
  | floatUnreadable => "Input should be a valid number, unable to parse string as a number"
  | boolUnreadable => "Input should be a valid boolean, unable to interpret input"
  | notAmong choices => "Input should be " ++ choicePhrase choices
  | empty field => "Value error, " ++ field.key ++ " must not be empty"
  | tooLong field =>
    "Value error, " ++ field.key ++ " must not exceed " ++ Text.ofNat Field.maxLength
      ++ " characters"
  | valueOutOfRange =>
    "Value error, event_value must be between -2147483648000000 and 2147483647000000"
  | bothSendIds =>
    "Value error, conversion_send_id and last_received_send_id are mutually exclusive"

end ProblemKind

/-- A field that does not fit, by its place in the model; the model as a whole has no place. -/
structure Problem where
  place : List Text
  kind : ProblemKind
  deriving DecidableEq

namespace Problem

/-- A problem on a line of its own: place, code and wording. -/
def line (p : Problem) : Text :=
  Text.join "." p.place ++ "|" ++ p.kind.code ++ "|" ++ p.kind.message

/-- The problem of a field, if it has one. -/
def of? {α : Type} : Except Problem α → Option Problem
  | .ok _ => none
  | .error p => some p

end Problem

/-- Why an operation failed. -/
inductive Fault where
  | rejected (r : Rejection)
  /-- A field of a draft was given a datum of another kind than text. -/
  | notText (field : Field) (kind : Text)
  /-- The event value was given a datum that is no number. -/
  | notNumber (kind : Text)
  /-- An integer is too long to be written. -/
  | longInt
  /-- The draft has created its event. -/
  | finalized
  /-- A model does not fit. -/
  | invalid (problems : List Problem)
  /-- Something that was passed in failed with an error of its own. -/
  | raised (message : Text)
  /-- Something of a kind that lacks what is looked up in it. -/
  | noAttribute (kind name : Text)
  /-- The session source keeps its own send id. -/
  | conversionOwned
  /-- The push source keeps its own send id. -/
  | lastReceivedOwned
  /-- A memory sink cannot hold fewer than no events. -/
  | negativeCapacity
  /-- The capacity of a memory sink does not fit into 64 bits. -/
  | hugeCapacity
  /-- Extras that are no sequence of pairs. -/
  | notIterable (kind : Text)
  /-- A pair of a sequence of pairs is no sequence itself. -/
  | pairNotSequence (index : Nat)
  /-- A pair of a sequence of pairs has not two parts. -/
  | pairLength (index length : Nat)
  /-- A container that can change cannot be a key. -/
  | unhashable (kind : Text)
  /-- A signaling NaN cannot be a key. -/
  | signalingKey
  /-- A text holds a surrogate and cannot be encoded. -/
  | surrogate
  /-- A datum of a kind that JSON does not know. -/
  | notJson (kind : Text)
  /-- An integer beyond 64 bits cannot be encoded. -/
  | jsonIntTooLong
  /-- A key that is no text cannot be encoded. -/
  | jsonKeyNotText
  /-- Containers in containers, too deep to be encoded. -/
  | jsonTooDeep
  /-- A key of a log entry that cannot be printed. -/
  | logKey (kind : Text)
  /-- A field of a log call has the name of an argument of a function that the call goes through. -/
  | reservedField (function name : Text)
  /-- A name that stands for a text and not for a rank of severity. -/
  | noRank (text : Text)
  /-- An integer beyond the largest float. -/
  | intTooLarge
  /-- A total beyond the largest float, which is no whole number. -/
  | infiniteTotal
  /-- A total that is no number. -/
  | undefinedTotal
  /-- A decimal has a magnitude beyond the largest decimal of the context. -/
  | decimalOverflow
  /-- An operation on a signaling NaN. -/
  | signalingOperand
  /-- A datum of a kind that has no magnitude. -/
  | noMagnitude (kind : Text)
  /-- A datum of a kind that cannot be added to a float. -/
  | notAddable (kind : Text)
  /-- A handle that names nothing. -/
  | unknownHandle
  /-- A handle that is in use. -/
  | takenHandle

namespace Fault

/-- The wording of a fault. -/
def message : Fault → Text
  | rejected r => r.message
  | notText field kind => field.key ++ " must be a string, not " ++ kind
  | notNumber kind => "event value must be a number, not " ++ kind
  | longInt =>
    "Exceeds the limit (4300 digits) for integer string conversion; "
      ++ "use sys.set_int_max_str_digits() to increase the limit"
  | finalized => "EventBuilder has already created its event"
  | invalid problems => Text.join "\n" (problems.map Problem.line)
  | raised message => message
  | noAttribute kind name => "'" ++ kind ++ "' object has no attribute '" ++ name ++ "'"
  | conversionOwned => "conversion send id is owned by the configured analytics session"
  | lastReceivedOwned => "last received send id is owned by the configured push delivery"
  | negativeCapacity => "maxlen must be non-negative"
  | hugeCapacity => "Python int too large to convert to C ssize_t"
  | notIterable kind => "'" ++ kind ++ "' object is not iterable"
  | pairNotSequence index =>
    "cannot convert dictionary update sequence element #" ++ Text.ofNat index
      ++ " to a sequence"
  | pairLength index length =>
    "dictionary update sequence element #" ++ Text.ofNat index ++ " has length "
      ++ Text.ofNat length ++ "; 2 is required"
  | unhashable kind => "unhashable type: '" ++ kind ++ "'"
  | signalingKey => "Cannot hash a signaling NaN value"
  | surrogate => "str is not valid UTF-8: surrogates not allowed"
  | notJson kind => "Type is not JSON serializable: " ++ kind
  | jsonIntTooLong => "Integer exceeds 64-bit range"
  | jsonKeyNotText => "Dict key must be str"
  | jsonTooDeep => "Recursion limit reached"
  | reservedField function name =>
    function ++ "() got multiple values for argument '" ++ name ++ "'"
  | noRank text => text.quoted
  | intTooLarge => "int too large to convert to float"
  | infiniteTotal => "cannot convert float infinity to integer"
  | undefinedTotal => "cannot convert float NaN to integer"
  | decimalOverflow => "[<class 'decimal.Overflow'>]"
  | signalingOperand => "[<class 'decimal.InvalidOperation'>]"
  | noMagnitude kind => "bad operand type for abs(): '" ++ kind ++ "'"
  | notAddable kind => "unsupported operand type(s) for +=: 'float' and '" ++ kind ++ "'"
  | logKey kind => "keys must be str, int, float, bool or None, not " ++ kind
  | unknownHandle => "unknown handle"
  | takenHandle => "handle in use"

end Fault

/-- Why something that is passed in does not give what is looked up in it. -/
inductive Failure where
  /-- It fails with an error of its own. -/
  | raised (message : Text)
  /-- It is of a kind that has nothing of the name. -/
  | lacking (kind : Text)

/-- The fault that looking up a name ends with. -/
def Failure.fault (name : Text) : Failure → Fault
  | raised message => .raised message
  | lacking kind => .noAttribute kind name

end Telemetry
