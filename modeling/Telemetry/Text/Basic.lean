/-!
# Text as code points

Event names, identifiers and messages are lists of code points rather than `String`s, because a
field may hold a lone surrogate: it counts towards the length of the field and is refused only when
the text has to be written as UTF-8. `Text.ofString` embeds ordinary strings, and no surrogate is
in its image.
-/

namespace Telemetry

/-- A Unicode code point, surrogates included. -/
abbrev CodePoint := Fin 0x110000

namespace CodePoint

/-- The code point of a character. -/
def ofChar (c : Char) : CodePoint :=
  ⟨c.toNat, by
    have h := c.valid
    simp only [UInt32.isValidChar, Nat.isValidChar] at h
    show c.val.toNat < 0x110000
    omega⟩

/-- The code points U+D800 to U+DFFF, which stand for no character of their own. -/
def isSurrogate (c : CodePoint) : Bool :=
  decide (0xD800 ≤ c.val) && decide (c.val ≤ 0xDFFF)

/-- The first half of a surrogate pair. -/
def isHighSurrogate (c : CodePoint) : Bool :=
  decide (0xD800 ≤ c.val) && decide (c.val ≤ 0xDBFF)

/-- The second half of a surrogate pair. -/
def isLowSurrogate (c : CodePoint) : Bool :=
  decide (0xDC00 ≤ c.val) && decide (c.val ≤ 0xDFFF)

/-- The ASCII digits. -/
def isDigit (c : CodePoint) : Bool :=
  decide (48 ≤ c.val) && decide (c.val ≤ 57)

/-- The value of an ASCII digit. -/
def digitValue (c : CodePoint) : Nat := c.val - 48

/-- The character of a code point; a surrogate has none. -/
def toChar? (c : CodePoint) : Option Char :=
  if h : c.val.isValidChar then some (Char.ofNatAux c.val h) else none

/--
The lower-case ASCII letter that a code point has for its lower case: that of an ASCII letter, or
the k of the Kelvin sign. Every other code point is its own.
-/
def toLower (c : CodePoint) : CodePoint :=
  if h : 65 ≤ c.val ∧ c.val ≤ 90 then ⟨c.val + 32, by omega⟩
  else if c.val = 0x212A then ofChar 'k'
  else c

end CodePoint

/-- A text: its code points in order. -/
abbrev Text := List CodePoint

namespace Text

/-- The text of a string. -/
def ofString (s : String) : Text := s.toList.map CodePoint.ofChar

instance : Coe String Text := ⟨ofString⟩

/-- The string with these code points; none if a surrogate is among them. -/
def toString? (t : Text) : Option String := (t.mapM CodePoint.toChar?).map String.ofList

/-- No surrogate is in the text. -/
def isScalar (t : Text) : Bool := t.all fun c => !c.isSurrogate

/-- The text in which upper and lower case of ASCII letters are no longer told apart. -/
def foldCase (t : Text) : Text := t.map CodePoint.toLower

/-- The text repeated. -/
def replicate (n : Nat) (t : Text) : Text := (List.replicate n t).flatten

/-- The texts with a separator between each two. -/
def join (separator : Text) (ts : List Text) : Text := (ts.intersperse separator).flatten

end Text

end Telemetry
