import Telemetry.Binary64.Numeral
import Telemetry.Datum.Key
import Telemetry.Text.Utf16
import Telemetry.Text.Utf8

/-!
# Reading JSON

The whole of JSON, in UTF-8: blanks between tokens, strings with their escapes, numbers, the three
words, lists and dictionaries. Nothing else is read: no control inside a string, no zero in front
of a number, no comma behind a last item, nothing behind the value. A number without fraction and
power is an integer, every other one a float. Two escapes that are a pair of surrogates are one code
point, and a key that is repeated keeps its place and takes the last value.

A reader takes what it reads off the front of a text and passes on the rest. Values stand in each
other and behind each other, and each of them takes one code point at least: that is why the length
of the text bounds the turns (`Json.read?`).
-/

namespace Telemetry

namespace Json

/-! ## Strings -/

/-- The number that a hexadecimal digit stands for. -/
def hexValue? (c : CodePoint) : Option Nat :=
  if c.isDigit then some c.digitValue
  else if 97 ≤ c.val ∧ c.val ≤ 102 then some (c.val - 87)
  else if 65 ≤ c.val ∧ c.val ≤ 70 then some (c.val - 55)
  else none

/-- The code point that four hexadecimal digits stand for. -/
def codeUnit? (a b c d : CodePoint) : Option CodePoint := do
  let a ← hexValue? a
  let b ← hexValue? b
  let c ← hexValue? c
  let d ← hexValue? d
  return ⟨(((a * 16 + b) * 16 + c) * 16 + d) % 0x110000, by omega⟩

/-- The code point that an escape by a single letter or mark stands for. -/
def escaped? (c : CodePoint) : Option CodePoint :=
  if c = CodePoint.ofChar '"' ∨ c = CodePoint.ofChar '\\' ∨ c = CodePoint.ofChar '/' then some c
  else if c = CodePoint.ofChar 'b' then some (CodePoint.ofChar '\x08')
  else if c = CodePoint.ofChar 't' then some (CodePoint.ofChar '\t')
  else if c = CodePoint.ofChar 'n' then some (CodePoint.ofChar '\n')
  else if c = CodePoint.ofChar 'f' then some (CodePoint.ofChar '\x0c')
  else if c = CodePoint.ofChar 'r' then some (CodePoint.ofChar '\r')
  else none

/-- Reads a string up to its closing quote, every escape by itself. -/
def readUnits : Text → Option (Text × Text)
  | [] => none
  | c :: rest =>
    if c = CodePoint.ofChar '"' then some ([], rest)
    else if c = CodePoint.ofChar '\\' then
      match rest with
      | [] => none
      | e :: rest =>
        if e = CodePoint.ofChar 'u' then
          match rest with
          | h₁ :: h₂ :: h₃ :: h₄ :: rest =>
            match codeUnit? h₁ h₂ h₃ h₄ with
            | none => none
            | some u => (readUnits rest).map fun (t, rest) => (u :: t, rest)
          | _ => none
        else
          match escaped? e with
          | none => none
          | some u => (readUnits rest).map fun (t, rest) => (u :: t, rest)
    else if c.val < 32 then none
    else (readUnits rest).map fun (t, rest) => (c :: t, rest)

/-- Reads a string behind its opening quote. -/
def readString (t : Text) : Option (Text × Text) :=
  (readUnits t).map fun (t, rest) => (t.joinPairs, rest)

/-! ## Numbers -/

/-- Reads a point and digits behind it, if there is a point. -/
def readFraction : Text → Option (Text × Text)
  | [] => some ([], [])
  | c :: rest =>
    if c = CodePoint.ofChar '.' then
      let (digits, rest) := Numeral.takeDigits rest
      if digits.isEmpty then none else some (c :: digits, rest)
    else some ([], c :: rest)

/-- Splits off a sign, which is kept. -/
def takeSign : Text → Text × Text
  | [] => ([], [])
  | c :: rest =>
    if c = CodePoint.ofChar '-' ∨ c = CodePoint.ofChar '+' then ([c], rest) else ([], c :: rest)

/-- Reads a power of ten, if there is one. -/
def readPower : Text → Option (Text × Text)
  | [] => some ([], [])
  | c :: rest =>
    if c = CodePoint.ofChar 'e' ∨ c = CodePoint.ofChar 'E' then
      let (sign, rest) := takeSign rest
      let (digits, rest) := Numeral.takeDigits rest
      if digits.isEmpty then none else some (c :: sign ++ digits, rest)
    else some ([], c :: rest)

/-- The number with these parts. -/
def numberOf (negative : Bool) (whole fraction power : Text) : Option Datum :=
  if fraction.isEmpty && power.isEmpty then
    some (.int (Decimal.signed negative whole.digitsValue))
  else
    let sign : Text := if negative then "-" else []
    (Binary64.ofText? (sign ++ whole ++ fraction ++ power)).map Datum.float

/-- Reads a number behind its sign. -/
def readMagnitude (negative : Bool) (t : Text) : Option (Datum × Text) :=
  let (whole, rest) := Numeral.takeDigits t
  if whole.isEmpty || (whole.head? == some (CodePoint.ofChar '0') && whole.length != 1) then none
  else do
    let (fraction, rest) ← readFraction rest
    let (power, rest) ← readPower rest
    let d ← numberOf negative whole fraction power
    return (d, rest)

/-- Reads a number; its sign can only be a minus. -/
def readNumber : Text → Option (Datum × Text)
  | [] => none
  | c :: rest =>
    if c = CodePoint.ofChar '-' then readMagnitude true rest else readMagnitude false (c :: rest)

/-! ## Values -/

/-- The words that stand for values. -/
def words : List (Text × Datum) := [("null", .null), ("true", .bool true), ("false", .bool false)]

/-- Reads a word. -/
def readWord (t : Text) : Option (Datum × Text) :=
  (words.find? fun w => w.1.isPrefixOf t).map fun w => (w.2, t.drop w.1.length)

/-- A blank may stand around every token. -/
def isBlank (c : CodePoint) : Bool := c.val == 32 || c.val == 9 || c.val == 10 || c.val == 13

/-- The rest of a text behind its blanks. -/
def skipBlanks (t : Text) : Text := t.dropWhile isBlank

section

variable {α : Type} (readOne : Text → Option (α × Text)) (close : CodePoint)

/-- Reads what commas divide, one at least, up to the mark that closes it. -/
def readSeries : (turns : Nat) → Text → Option (List α × Text)
  | 0, _ => none
  | turns + 1, t =>
    match readOne t with
    | none => none
    | some (x, rest) =>
      match skipBlanks rest with
      | [] => none
      | c :: rest =>
        if c = CodePoint.ofChar ',' then
          (readSeries turns rest).map fun (xs, rest) => (x :: xs, rest)
        else if c = close then some ([x], rest)
        else none

/-- Reads what commas divide, if there is any of it, up to the mark that closes it. -/
def readAll (turns : Nat) (t : Text) : Option (List α × Text) :=
  match skipBlanks t with
  | [] => none
  | c :: rest => if c = close then some ([], rest) else readSeries readOne close turns (c :: rest)

end

/-- Reads the key of an entry, and the colon behind it. -/
def readKey (t : Text) : Option (Text × Text) :=
  match skipBlanks t with
  | [] => none
  | c :: rest =>
    if c = CodePoint.ofChar '"' then
      match readString rest with
      | none => none
      | some (key, rest) =>
        match skipBlanks rest with
        | [] => none
        | c :: rest => if c = CodePoint.ofChar ':' then some (key, rest) else none
    else none

/-- Reads an entry of a dictionary. -/
def readEntry (readOne : Text → Option (Datum × Text)) (t : Text) :
    Option ((Datum × Datum) × Text) :=
  match readKey t with
  | none => none
  | some (key, rest) => (readOne rest).map fun (d, rest) => ((.text key, d), rest)

/-- Reads a value. -/
def readValue : (turns : Nat) → Text → Option (Datum × Text)
  | 0, _ => none
  | turns + 1, t =>
    match skipBlanks t with
    | [] => none
    | c :: rest =>
      if c = CodePoint.ofChar '"' then (readString rest).map fun (t, rest) => (.text t, rest)
      else if c = CodePoint.ofChar '[' then
        (readAll (readValue turns) (CodePoint.ofChar ']') turns rest).map
          fun (items, rest) => (.list items, rest)
      else if c = CodePoint.ofChar '\x7b' then
        (readAll (readEntry (readValue turns)) (CodePoint.ofChar '\x7d') turns rest).map
          fun (entries, rest) => (.dict (Datum.dictOf entries), rest)
      else if c = CodePoint.ofChar '-' ∨ c.isDigit then readNumber (c :: rest)
      else readWord (c :: rest)

/-- Reads a text that is a value, blanks around it apart. -/
def read? (t : Text) : Option Datum :=
  match readValue (t.length + 1) t with
  | some (d, rest) => if (skipBlanks rest).isEmpty then some d else none
  | none => none

/-- Reads the UTF-8 bytes of a value. -/
def decode? (bytes : List UInt8) : Option Datum := (Text.ofUtf8? bytes).bind read?

end Json

end Telemetry
