import Telemetry.Fault
import Telemetry.Text.Blank
import Telemetry.Text.Utf8
import Telemetry.Binary64.Numeral

/-!
# Reading model fields

The fields of records, messages and settings are read leniently. Bytes in UTF-8 stand for a text. A
truth value, a float or decimal without fraction, and a written integer stand for an integer
(`Reading.intText`). Every number and every written number stands for a float, rounded once.
-/

namespace Telemetry

namespace Reading

/-- Reads a text. -/
def text : Datum → Except ProblemKind Text
  | .text t => .ok t
  | .bytes bs =>
    match Text.ofUtf8? bs with
    | some t => .ok t
    | none => .error .notUnicode
  | _ => .error .notText

/-- Reads a datum that may be absent. -/
def optional {α : Type} (read : Datum → Except ProblemKind α) :
    Datum → Except ProblemKind (Option α)
  | .null => .ok none
  | d => (read d).map some

/-- A field of a model: its datum read, or what stands for an absent one. -/
def field {α : Type} (name : Text) (absent : Except ProblemKind α)
    (read : Datum → Except ProblemKind α) (d : Option Datum) : Except Problem α :=
  let result := match d with
    | some d => read d
    | none => absent
  result.mapError fun kind => ⟨[name], kind⟩

/-- The underscore. -/
def underscore : CodePoint := CodePoint.ofChar '_'

/-- Two underscores follow each other. -/
def hasDoubleUnderscore : Text → Bool
  | a :: b :: rest => (a == underscore && b == underscore) || hasDoubleUnderscore (b :: rest)
  | _ => false

/-- The text without its underscores, if each of them stands alone inside the text. -/
def withoutUnderscores? (t : Text) : Option Text :=
  if t.head? == some underscore || t.getLast? == some underscore || hasDoubleUnderscore t then none
  else some (t.filter (· != underscore))

/-- A written integer may have this many digits. -/
def maxIntDigits : Nat := 4300

/-- Reads an integer in its plain form: a minus sign or none, and digits without a zero in front. -/
def plainInt (t : Text) : Except ProblemKind Int :=
  let negative := t.head? == some (CodePoint.ofChar '-')
  let magnitude := if negative then t.drop 1 else t
  let digits := magnitude.takeWhile CodePoint.isDigit
  if digits.head? == some (CodePoint.ofChar '0') then
    if magnitude.length = 1 then .ok 0 else .error .intUnreadable
  else if maxIntDigits < digits.length then .error .intTooLong
  else if digits.isEmpty || digits.length != magnitude.length then .error .intUnreadable
  else .ok (Decimal.signed negative (Text.digitsValue digits))

/--
Skips zeros and underscores, `last` being the one that was skipped before. A digit or a minus sign
ends them. In front of a point the last one stays, and at the end it does so too.
-/
def skipZeros (last : CodePoint) : Text → Option Text
  | [] => some [last]
  | c :: rest =>
    if c = CodePoint.ofChar '0' ∨ c = underscore then skipZeros c rest
    else if c.isDigit || c == CodePoint.ofChar '-' then some (c :: rest)
    else if c = CodePoint.ofChar '.' then some (last :: c :: rest)
    else none

/-- A text that begins with a digit, without the zeros that only fill it up in front. -/
def withoutLeadingZeros? : Text → Option Text
  | [] => none
  | c :: rest =>
    if c = CodePoint.ofChar '0' then skipZeros c rest
    else if c.isDigit then some (c :: rest)
    else none

/-- The text without a point and zeros at its end. -/
def withoutVoidFraction (t : Text) : Text :=
  let zeros := t.reverse.takeWhile (· == CodePoint.ofChar '0')
  match t.reverse.dropWhile (· == CodePoint.ofChar '0') with
  | c :: whole => if c = CodePoint.ofChar '.' ∧ zeros ≠ [] then whole.reverse else t
  | [] => t

/--
What is left of a written integer without its ornaments: blanks around it, a plus sign, zeros in
front of its digits, a point with zeros behind them, and single underscores between them.
-/
def withoutOrnaments? (t : Text) : Option Text :=
  let digits := match t.trim with
    | [] => none
    | c :: rest =>
      if c = CodePoint.ofChar '+' then withoutLeadingZeros? rest
      else if c = CodePoint.ofChar '-' then (withoutLeadingZeros? rest).map (c :: ·)
      else withoutLeadingZeros? (c :: rest)
  digits.map fun t =>
    let t := withoutVoidFraction t
    (withoutUnderscores? t).getD t

/-- Reads a written integer: in its plain form, else in what is left of it without ornaments. -/
def intText (t : Text) : Except ProblemKind Int :=
  match plainInt t with
  | .error .intUnreadable =>
    match (withoutOrnaments? t).map plainInt with
    | some (.ok i) => .ok i
    | _ => .error .intUnreadable
  | result => result

/-- Reads a text as an integer; a surrogate makes it no text at all. -/
def encodableText {α : Type} (read : Text → Except ProblemKind α) (t : Text) :
    Except ProblemKind α :=
  if t.isScalar then read t else .error .notUnicode

/-- Reads a float without fraction as an integer, within 64 bits. -/
def intOfFloat (x : Binary64) : Except ProblemKind Int :=
  if !x.isFinite then .error .notFinite
  else if !x.isWhole then .error .intHasFraction
  else if x.integerPart < 0x8000000000000000 then .ok (Decimal.signed x.negative x.integerPart)
  else .error .intTooLong

/-- The number of zeros that a coefficient ends with, if it has at least so many digits. -/
def endsWithZeros (coefficient places : Nat) : Bool :=
  coefficient == 0
    || (decide (places < digitCount coefficient) && coefficient % pow10 places == 0)

/-- Reads a decimal without fraction as an integer. -/
def intOfDecimal : Decimal → Except ProblemKind Int
  | .finite negative coefficient exponent =>
    if 0 ≤ exponent || endsWithZeros coefficient (-exponent).toNat then
      .ok (Decimal.signed negative (Decimal.integerPart coefficient exponent))
    else .error .intHasFraction
  | _ => .error .notFinite

/-- Reads an integer. -/
def int : Datum → Except ProblemKind Int
  | .int i => .ok i
  | .bool b => .ok (if b then 1 else 0)
  | .text t => encodableText intText t
  | .bytes bs =>
    match Text.ofUtf8? bs with
    | some t => intText t
    | none => .error .intUnreadable
  | .float x => intOfFloat x
  | .decimal d => intOfDecimal d
  | _ => .error .notInt

/-- Reads a float as it is written: a numeral, or a name of an infinity or of no number. -/
def floatNumeral? (t : Text) : Option Binary64 :=
  match Binary64.ofText? t with
  | some x => some x
  | none =>
    let (negative, rest) := Numeral.takeSign t
    let name := rest.foldCase
    if name = "inf" ∨ name = "infinity" then some (Binary64.infinity negative)
    else if name = "nan" then some Binary64.nan
    else none

/-- Reads a written float: with blanks around it, or with underscores inside it. -/
def floatText (t : Text) : Except ProblemKind Binary64 :=
  match floatNumeral? t.trim with
  | some x => .ok x
  | none =>
    match (withoutUnderscores? t).bind floatNumeral? with
    | some x => .ok x
    | none => .error .floatUnreadable

/-- Reads a float. -/
def float : Datum → Except ProblemKind Binary64
  | .float x => .ok x
  | .bool b => .ok (Binary64.ofNat (if b then 1 else 0))
  | .int i =>
    let x := Binary64.ofInt i
    if x.isFinite then .ok x else .error .notFloat
  | .decimal (.finite negative coefficient exponent) =>
    .ok (Binary64.ofScaled negative coefficient exponent)
  | .decimal (.infinity negative) => .ok (Binary64.infinity negative)
  | .decimal (.nan _ signaling _) => if signaling then .error .notFloat else .ok Binary64.nan
  | .text t => encodableText floatText t
  | .bytes bs =>
    match Text.ofUtf8? bs with
    | some t => floatText t
    | none => .error .floatUnreadable
  | _ => .error .notFloat

/-- Reads a written truth value, in any case of letters. -/
def boolText (t : Text) : Except ProblemKind Bool :=
  let word := t.foldCase
  if ["1", "on", "t", "true", "y", "yes"].any fun s => word == Text.ofString s then .ok true
  else if ["0", "off", "f", "false", "n", "no"].any fun s => word == Text.ofString s then .ok false
  else .error .boolUnreadable

end Reading

end Telemetry
