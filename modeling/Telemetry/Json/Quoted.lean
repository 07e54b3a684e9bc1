import Telemetry.Text.Quoted
import Telemetry.Text.Utf16

/-!
# JSON strings

Two written forms of a text. `Json.quote` escapes what JSON makes it escape: the double quote, the
backslash and the controls below U+0020. `Json.asciiQuote` escapes everything beyond printable ASCII
as well, in UTF-16 code units.
-/

namespace Telemetry

namespace Json

/-- The escapes that name a code point by itself or by a letter. -/
def letterEscape? (c : CodePoint) : Option Text :=
  if c = CodePoint.ofChar '"' ∨ c = CodePoint.ofChar '\\' then some [CodePoint.ofChar '\\', c]
  else if c.val = 8 then some "\\b"
  else if c.val = 9 then some "\\t"
  else if c.val = 10 then some "\\n"
  else if c.val = 12 then some "\\f"
  else if c.val = 13 then some "\\r"
  else none

/-- A code point inside a JSON string. -/
def escape (c : CodePoint) : Text :=
  match letterEscape? c with
  | some t => t
  | none => if c.val < 32 then "\\u" ++ hexDigits 4 c.val else [c]

/-- A text as a JSON string. -/
def quote (t : Text) : Text := "\"" ++ t.flatMap escape ++ "\""

/-- A code point inside a JSON string of ASCII alone. -/
def asciiEscape (c : CodePoint) : Text :=
  match letterEscape? c with
  | some t => t
  | none =>
    if 32 ≤ c.val ∧ c.val < 127 then [c]
    else c.utf16.flatMap fun u => "\\u" ++ hexDigits 4 u.toNat

/-- A text as a JSON string of ASCII alone. -/
def asciiQuote (t : Text) : Text := "\"" ++ t.flatMap asciiEscape ++ "\""

end Json

end Telemetry
