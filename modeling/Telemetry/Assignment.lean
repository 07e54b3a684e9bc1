import Telemetry.Registry
import Telemetry.Text.Blank

/-!
# Files of assignments

A file of assignments gives texts to names, one assignment a line. A text stands as it is, without
the spaces around it and a comment behind it, or in quotes, where it may hold line ends and escapes.
What cannot be read is skipped to the end of its line. A reference `${name}` in a text stands for
what was assigned to the name before, else for a variable of the surroundings
(`Assignment.resolve`). Reading ends because every line is left for a shorter rest
(`length_afterLine_lt`).
-/

namespace Telemetry

/-- A name with the text that is assigned to it, or with none. -/
structure Assignment where
  name : Text
  value : Option Text

namespace Assignment

/-! ## Code points with a meaning -/

/-- The end of a line. -/
def lineEnd : CodePoint := CodePoint.ofChar '\n'

/-- The other sign that ends a line. -/
def carriageReturn : CodePoint := CodePoint.ofChar '\r'

/-- The sign between a name and its value. -/
def equalsSign : CodePoint := CodePoint.ofChar '='

/-- The sign that a comment begins with. -/
def numberSign : CodePoint := CodePoint.ofChar '#'

/-- The sign that an escape begins with. -/
def backslash : CodePoint := CodePoint.ofChar '\\'

/-- The quote around names, and around values with few escapes. -/
def singleQuote : CodePoint := CodePoint.ofChar '\''

/-- The quote around values with all escapes. -/
def doubleQuote : CodePoint := CodePoint.ofChar '\x22'

/-- The sign that a reference ends with. -/
def closingBrace : CodePoint := CodePoint.ofChar '\x7d'

/-- A space that ends no line. -/
def isInner (c : CodePoint) : Bool := c.isSpace && c != lineEnd

/-- A code point that may be part of a name. -/
def isNamePart (c : CodePoint) : Bool := !(c == equalsSign || c == numberSign || c.isSpace)

/-! ## Lines -/

/--
The text with one code point for every line end. A carriage return ends a line too, together with
the line end behind it, if there is one.
-/
def withPlainLineEnds (afterReturn : Bool) : Text → Text
  | [] => []
  | c :: rest =>
    if c = carriageReturn then lineEnd :: withPlainLineEnds true rest
    else if c = lineEnd ∧ afterReturn then withPlainLineEnds false rest
    else c :: withPlainLineEnds false rest

/-- What stands behind the line that a text begins with. -/
def afterLine (t : Text) : Text := (t.dropWhile (· != lineEnd)).drop 1

theorem length_afterLine (t : Text) :
    (afterLine t).length = (t.dropWhile (· != lineEnd)).length - 1 := by
  simp [afterLine]

/-- Whatever is left of a text, its next line is shorter than the text. -/
theorem length_afterLine_lt {t rest : Text} (suffix : rest <:+ t) (nonempty : t ≠ []) :
    (afterLine rest).length < t.length := by
  have left : (rest.dropWhile (· != lineEnd)).length ≤ t.length :=
    ((List.dropWhile_suffix _).trans suffix).length_le
  have positive : 0 < t.length := List.length_pos_iff.2 nonempty
  rw [length_afterLine]
  omega

/-! ## Names and values -/

/-- The line without the word that marks a variable for export. -/
def withoutExport (t : Text) : Text :=
  let word : Text := "export"
  let rest := t.drop word.length
  if t.take word.length = word ∧ rest.head?.any isInner then rest.dropWhile isInner else t

/-- The name at the start of a text and what follows it. A name may stand in single quotes. -/
def name? : Text → Option (Text × Text)
  | [] => none
  | c :: rest =>
    if c = singleQuote then
      let inside := rest.takeWhile (· != singleQuote)
      let behind := rest.dropWhile (· != singleQuote)
      if inside.isEmpty || behind.isEmpty then none else some (inside, behind.drop 1)
    else if isNamePart c then some (c :: rest.takeWhile isNamePart, rest.dropWhile isNamePart)
    else none

/--
What stands in front of the quote that closes a value, and what follows it. A quote behind a
backslash closes a value only if it is the last one.
-/
def untilQuote? (quote : CodePoint) (afterBackslash : Bool) : Text → Option (Text × Text)
  | [] => none
  | c :: rest =>
    if c = quote ∧ !afterBackslash then some ([], rest)
    else
      match untilQuote? quote (c == backslash) rest with
      | some (inside, rest) => some (c :: inside, rest)
      | none => if c = quote then some ([], rest) else none

/-- The code points that a letter behind a backslash stands for, in double quotes. -/
def letterEscapes : List (CodePoint × CodePoint) :=
  [('a', '\x07'), ('b', '\x08'), ('f', '\x0c'), ('n', '\n'), ('r', '\r'), ('t', '\t'),
    ('v', '\x0b')].map fun e => (CodePoint.ofChar e.1, CodePoint.ofChar e.2)

/-- What a code point behind a backslash stands for; in single quotes these are fewer. -/
def escape? (quote c : CodePoint) : Option CodePoint :=
  if c = backslash ∨ c = singleQuote then some c
  else if quote = singleQuote then none
  else if c = doubleQuote then some c
  else letterEscapes.lookup c

/-- The text with its escapes replaced by what they stand for. -/
def withoutEscapes (quote : CodePoint) : Text → Text
  | c :: d :: rest =>
    if c = backslash then
      match escape? quote d with
      | some e => e :: withoutEscapes quote rest
      | none => c :: withoutEscapes quote (d :: rest)
    else c :: withoutEscapes quote (d :: rest)
  | t => t

/-- Cuts a comment off a value: a number sign behind a space, and what follows. -/
def withoutComment : Text → Text
  | [] => []
  | a :: rest =>
    if a.isSpace && (rest.dropWhile CodePoint.isSpace).head? == some numberSign then []
    else a :: withoutComment rest

/-- The value behind an equals sign and what follows it, unless its quote is never closed. -/
def value? (t : Text) : Option (Text × Text) :=
  let plain :=
    (Text.strip CodePoint.isSpace (withoutComment (t.takeWhile (· != lineEnd))),
      t.dropWhile (· != lineEnd))
  match t.dropWhile isInner with
  | [] => some plain
  | c :: rest =>
    if c = singleQuote ∨ c = doubleQuote then
      (untilQuote? c false rest).map fun (inside, rest) => (withoutEscapes c inside, rest)
    else some plain

/-! ## Lines as assignments -/

/-- An assignment that was read, if nothing but a comment follows it on its line. -/
def closed? (a : Assignment) (rest : Text) : Option Assignment :=
  match rest.dropWhile isInner with
  | [] => some a
  | c :: _ => if c = lineEnd ∨ c = numberSign then some a else none

/-- The assignment on the line that a text begins with, if there is one, and what is left of it. -/
def read (t : Text) : Option Assignment × Text :=
  let start := withoutExport t
  match name? start with
  | none => (none, start)
  | some (name, rest) =>
    match rest.dropWhile isInner with
    | [] => (some ⟨name, none⟩, [])
    | c :: behind =>
      if c = equalsSign then
        match value? behind with
        | some (value, rest) => (closed? ⟨name, some value⟩ rest, rest)
        | none => (none, behind)
      else (closed? ⟨name, none⟩ (c :: behind), c :: behind)

theorem withoutExport_suffix (t : Text) : withoutExport t <:+ t := by
  unfold withoutExport
  dsimp only
  split
  · exact (List.dropWhile_suffix _).trans (List.drop_suffix ..)
  · exact List.suffix_rfl

theorem name?_suffix {t name rest : Text} (h : name? t = some (name, rest)) : rest <:+ t := by
  unfold name? at h
  split at h
  · simp at h
  · next c tail =>
    have tailSuffix := List.suffix_cons c tail
    split at h
    · dsimp only at h
      split at h
      · simp at h
      · simp only [Option.some.injEq, Prod.mk.injEq] at h
        rw [← h.2]
        exact (List.drop_suffix ..).trans ((List.dropWhile_suffix _).trans tailSuffix)
    · split at h
      · simp only [Option.some.injEq, Prod.mk.injEq] at h
        rw [← h.2]
        exact (List.dropWhile_suffix _).trans tailSuffix
      · simp at h

theorem untilQuote?_suffix {quote : CodePoint} {afterBackslash : Bool} {t inside rest : Text}
    (h : untilQuote? quote afterBackslash t = some (inside, rest)) : rest <:+ t := by
  induction t generalizing afterBackslash inside rest with
  | nil => simp [untilQuote?] at h
  | cons c tail ih =>
    unfold untilQuote? at h
    split at h
    · grind [List.suffix_cons]
    · split at h
      · next found =>
        have := ih found
        grind [List.suffix_cons, List.IsSuffix.trans]
      · split at h <;> grind [List.suffix_cons]

theorem value?_suffix {t value rest : Text} (h : value? t = some (value, rest)) : rest <:+ t := by
  unfold value? at h
  dsimp only at h
  split at h
  · grind [List.dropWhile_suffix]
  · next c tail found =>
    split at h
    · obtain ⟨⟨inside, left⟩, found', same⟩ := Option.map_eq_some_iff.1 h
      have inner : c :: tail <:+ t := found ▸ List.dropWhile_suffix _
      have := untilQuote?_suffix found'
      grind [List.suffix_cons, List.IsSuffix.trans]
    · grind [List.dropWhile_suffix]

theorem read_suffix (t : Text) : (read t).2 <:+ t := by
  have start := withoutExport_suffix t
  unfold read
  dsimp only
  split
  · exact start
  · next name rest found =>
    have behindName := (name?_suffix found).trans start
    split
    · exact List.nil_suffix
    · next c behind inner =>
      have atSign : c :: behind <:+ t :=
        (inner ▸ List.dropWhile_suffix _ : c :: behind <:+ rest).trans behindName
      have behindSign := (List.suffix_cons c behind).trans atSign
      split
      · split
        · next value left valued => exact (value?_suffix valued).trans behindSign
        · exact behindSign
      · exact atSign

/-- The assignments of a text whose line ends are plain. -/
def ofLines (t : Text) : List Assignment :=
  let start := t.dropWhile CodePoint.isSpace
  if start = [] then [] else (read start).1.toList ++ ofLines (afterLine (read start).2)
termination_by t.length
decreasing_by
  next nonempty =>
  exact Nat.lt_of_lt_of_le (length_afterLine_lt (read_suffix _) nonempty)
    (List.dropWhile_suffix _).length_le

/-- The mark that a file may begin with, which is no part of its text. -/
def byteOrderMark : CodePoint := CodePoint.ofChar '\uFEFF'

/-- The assignments of a file, as they are written. -/
def ofText (t : Text) : List Assignment :=
  let t := if t.head? = some byteOrderMark then t.drop 1 else t
  ofLines (withPlainLineEnds false t)

/-! ## References -/

/-- What a reference begins with. -/
def referenceStart : Text := "$\x7b"

/-- What a reference stands for if its name is unknown, and what follows that. -/
def fallback (t : Text) : Text × Text :=
  let mark : Text := ":-"
  let behind := t.drop mark.length
  if t.take mark.length = mark then
    (behind.takeWhile (· != closingBrace), behind.dropWhile (· != closingBrace))
  else ([], t)

/-- A code point that may be part of the name of a reference. -/
def isReferencePart (c : CodePoint) : Bool := c != closingBrace && c != CodePoint.ofChar ':'

/--
The reference at the start of a text: its name, what it stands for if that is unknown, and what
follows it.
-/
def reference? (t : Text) : Option (Text × Text × Text) :=
  if t.take referenceStart.length = referenceStart then
    let behind := t.drop referenceStart.length
    let (value, rest) := fallback (behind.dropWhile isReferencePart)
    if rest.head? = some closingBrace then
      some (behind.takeWhile isReferencePart, value, rest.drop 1)
    else none
  else none

theorem fallback_suffix (t : Text) : (fallback t).2 <:+ t := by
  unfold fallback
  dsimp only
  split
  · exact (List.dropWhile_suffix _).trans (List.drop_suffix ..)
  · exact List.suffix_rfl

theorem reference?_suffix {t name value rest : Text}
    (h : reference? t = some (name, value, rest)) : rest <:+ t.drop referenceStart.length := by
  unfold reference? at h
  dsimp only at h
  split at h
  · split at h
    · simp only [Option.some.injEq, Prod.mk.injEq] at h
      rw [← h.2.2]
      exact (List.drop_suffix ..).trans ((fallback_suffix _).trans (List.dropWhile_suffix _))
    · simp at h
  · simp at h

/-- The text with every reference replaced by what its name stands for. -/
def resolve (lookUp : Text → Option Text) : Text → Text
  | [] => []
  | c :: tail =>
    match _reference : reference? (c :: tail) with
    | some (name, value, rest) => (lookUp name).getD value ++ resolve lookUp rest
    | none => c :: resolve lookUp tail
termination_by t => t.length
decreasing_by
  · have := (reference?_suffix _reference).length_le
    have start : referenceStart.length = 2 := by decide
    simp only [start, List.drop_succ_cons, List.length_drop, List.length_cons] at this ⊢
    omega
  · simp

/-- What a name stands for: what was assigned to it, be it nothing, else the variable. -/
def lookUp (vars : List (Text × Text)) (assigned : Registry Text (Option Text)) (name : Text) :
    Option Text :=
  match assigned.get? name with
  | some value => some (value.getD [])
  | none => vars.lookup name

/--
What a file assigns, with its references resolved. A name that comes again keeps its place and takes
the new value.
-/
def table (vars : List (Text × Text)) (t : Text) : Registry Text (Option Text) :=
  (ofText t).foldl
    (fun assigned a => assigned.put a.name (a.value.map (resolve (lookUp vars assigned))))
    .empty

end Assignment

end Telemetry
