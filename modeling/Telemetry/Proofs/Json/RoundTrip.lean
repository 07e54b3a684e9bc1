import Mathlib.Data.List.Forall2
import Telemetry.Proofs.Json.Reader
import Telemetry.Proofs.Result

/-!
# Written JSON is read back

`Json.Spells` says that a text is read as a datum in front of whatever may follow a value. It is
shown once for each kind of value, for a list from its items and for a dictionary from its entries
(`Json.spells_list`, `Json.spells_dict`), and so for everything that is written
(`Json.spells_write`), as long as JSON has a form of its own for it (`Json.Native`): a tuple would
come back as a list, and of a float only the digits are written.

What keeps a datum from being written, apart from what it is and where it stands, is a surrogate in
one of its texts (`Json.decided_write`).
-/

namespace Telemetry

namespace Json

/-! ## Texts that are read as a datum -/

/-- The text is read as the datum, whatever may follow a value. -/
structure Spells (out : Text) (d : Datum) : Prop where
  isScalar : out.isScalar
  /-- It begins with what opens a value, and so with nothing that closes a list. -/
  head : ∃ c t, out = c :: t ∧ isBlank c = false ∧ c ≠ CodePoint.ofChar ']'
  read : ∀ {turns : Nat} {rest : Text}, out.length ≤ turns → EndsNumber rest →
    readValue (turns + 1) (out ++ rest) = some (d, rest)

theorem skipBlanks_cons {c : CodePoint} (h : isBlank c = false) (t : Text) :
    skipBlanks (c :: t) = c :: t := by
  simp [skipBlanks, h]

theorem endsNumber_cons {c : CodePoint} (h : c.isDigit = false ∧ c ≠ CodePoint.ofChar '.' ∧
    c ≠ CodePoint.ofChar 'e' ∧ c ≠ CodePoint.ofChar 'E') (t : Text) : EndsNumber (c :: t) := by
  rintro d ⟨⟩
  exact h

theorem spells_word {w : Text} {d : Datum} (hw : (w, d) ∈ words) : Spells w d := by
  simp only [words, List.mem_cons, List.not_mem_nil, or_false, Prod.mk.injEq] at hw
  rcases hw with ⟨rfl, rfl⟩ | ⟨rfl, rfl⟩ | ⟨rfl, rfl⟩
  all_goals
    refine ⟨by decide, ⟨_, _, rfl, by decide, by decide⟩, fun {turns rest} _ _ => ?_⟩
    rfl

/-- What opens a number opens no other value. -/
theorem ne_of_opensNumber {c : CodePoint} (h : c = CodePoint.ofChar '-' ∨ c.isDigit = true) :
    isBlank c = false ∧ c ≠ CodePoint.ofChar ']' ∧ c ≠ CodePoint.ofChar '"' ∧
      c ≠ CodePoint.ofChar '[' ∧ c ≠ CodePoint.ofChar '\x7b' := by
  rcases h with rfl | h
  · decide
  · have hne {d : CodePoint} (hd : d.isDigit = false) : c ≠ d := by
      rintro rfl
      simp [hd] at h
    refine ⟨?_, hne (by decide), hne (by decide), hne (by decide), hne (by decide)⟩
    simp only [CodePoint.isDigit, Bool.and_eq_true, decide_eq_true_eq] at h
    simp only [isBlank, Bool.or_eq_false_iff, beq_eq_false_iff_ne]
    omega

theorem spells_int (i : Int) : Spells (Text.ofInt i) (.int i) := by
  have hdigits := Text.isDigits_ofNat i.natAbs
  have hscalar : (Text.ofInt i).isScalar := by
    unfold Text.ofInt
    split
    · rw [Text.isScalar_append, isScalar_of_isDigits hdigits]
      rfl
    · exact isScalar_of_isDigits hdigits
  obtain ⟨c, t, hout, hc⟩ : ∃ c t, Text.ofInt i = c :: t ∧
      (c = CodePoint.ofChar '-' ∨ c.isDigit = true) := by
    unfold Text.ofInt
    split
    · exact ⟨_, _, rfl, .inl rfl⟩
    · cases hd : Text.ofNat i.natAbs with
      | nil => exact absurd hd (Text.ofNat_ne_nil _)
      | cons c t => exact ⟨c, t, rfl, .inr (hdigits c (by simp [hd]))⟩
  obtain ⟨hblank, hclose, hquote, hlist, hdict⟩ := ne_of_opensNumber hc
  refine ⟨hscalar, ⟨c, t, hout, hblank, hclose⟩, fun {turns rest} _ hrest => ?_⟩
  have hread := readNumber_ofInt i hrest
  rw [hout, List.cons_append] at hread ⊢
  rw [readValue, skipBlanks_cons hblank]
  simp only [if_neg hquote, if_neg hlist, if_neg hdict, if_pos hc, hread]

theorem isScalar_quote {t : Text} (ht : t.isScalar) : (quote t).isScalar := by
  unfold quote
  rw [Text.isScalar_append, Text.isScalar_append, isScalar_flatMap_escape ht]
  rfl

theorem spells_quote {t : Text} (ht : t.isScalar) : Spells (quote t) (.text t) := by
  refine ⟨isScalar_quote ht, ⟨CodePoint.ofChar '"', _, rfl, by decide, by decide⟩,
    fun {turns rest} _ _ => ?_⟩
  have hread := readString_quote ht rest
  have hout : quote t ++ rest = CodePoint.ofChar '"' ::
      (t.flatMap escape ++ (CodePoint.ofChar '"' :: rest)) := by
    simp [quote, Text.ofString]
  rw [hout, readValue, skipBlanks_cons (by decide)]
  simp only [if_true, hread, Option.map_some]

/-! ## Lists and dictionaries -/

theorem join_cons {t : Text} {ts : List Text} (hne : ts ≠ []) :
    Text.join "," (t :: ts) = t ++ CodePoint.ofChar ',' :: Text.join "," ts := by
  obtain ⟨u, us, rfl⟩ := List.exists_cons_of_ne_nil hne
  simp [Text.join, Text.ofString]

theorem length_le_of_mem_join {t : Text} {ts : List Text} (h : t ∈ ts) :
    t.length ≤ (Text.join "," ts).length := by
  induction ts with
  | nil => simp at h
  | cons u us ih =>
    by_cases hne : us = []
    · subst hne
      obtain rfl := List.mem_singleton.mp h
      simp [Text.join]
    · rw [join_cons hne, List.length_append, List.length_cons]
      rcases List.mem_cons.mp h with rfl | h
      · omega
      · have := ih h
        omega

/-- Behind every text there is a comma or the mark that closes the series. -/
theorem length_le_join {ts : List Text} : ts.length ≤ (Text.join "," ts).length + 1 := by
  induction ts with
  | nil => simp
  | cons t ts ih =>
    by_cases hne : ts = []
    · simp [hne]
    · rw [join_cons hne, List.length_append, List.length_cons, List.length_cons]
      omega

theorem isScalar_join {ts : List Text} (h : ∀ t ∈ ts, t.isScalar) :
    (Text.join "," ts).isScalar := by
  induction ts with
  | nil => rfl
  | cons t ts ih =>
    have ht := h t List.mem_cons_self
    by_cases hne : ts = []
    · simpa [hne, Text.join] using ht
    · rw [join_cons hne, Text.isScalar_append, Text.isScalar_cons, ht,
        ih fun u hu => h u (List.mem_cons_of_mem _ hu)]
      rfl

section

variable {α : Type} {readOne : Text → Option (α × Text)} {close : CodePoint}

theorem readSeries_join {ts : List Text} {xs : List α}
    (h : List.Forall₂ (fun t x => ∀ rest, EndsNumber rest →
      readOne (t ++ rest) = some (x, rest)) ts xs) (hne : ts ≠ [])
    (hblank : isBlank close = false) (hcomma : close ≠ CodePoint.ofChar ',')
    (hends : ∀ rest, EndsNumber (close :: rest)) {turns : Nat} (hturns : ts.length ≤ turns)
    (rest : Text) :
    readSeries readOne close turns (Text.join "," ts ++ close :: rest) = some (xs, rest) := by
  induction h generalizing turns with
  | nil => exact absurd rfl hne
  | @cons t x ts xs hread hrest ih =>
    obtain ⟨turns, rfl⟩ : ∃ n, turns = n + 1 := ⟨turns - 1, by simp at hturns; omega⟩
    have hturns' : ts.length ≤ turns := by simpa using hturns
    cases hrest with
    | nil =>
      have hjoin : Text.join "," [t] = t := by simp [Text.join]
      rw [hjoin, readSeries, hread _ (hends rest)]
      simp [skipBlanks_cons hblank, hcomma]
    | @cons u y us ys _ _ =>
      have hends' : EndsNumber
          (CodePoint.ofChar ',' :: (Text.join "," (u :: us) ++ close :: rest)) :=
        endsNumber_cons (by decide) _
      rw [join_cons (by simp), List.append_assoc, List.cons_append, readSeries, hread _ hends']
      simp only [skipBlanks_cons (show isBlank (CodePoint.ofChar ',') = false by decide), if_true]
      rw [ih (by simp) hturns']
      rfl

theorem readAll_join {ts : List Text} {xs : List α}
    (h : List.Forall₂ (fun t x => ∀ rest, EndsNumber rest →
      readOne (t ++ rest) = some (x, rest)) ts xs)
    (hopen : ∀ t ∈ ts, ∃ c u, t = c :: u ∧ isBlank c = false ∧ c ≠ close)
    (hblank : isBlank close = false) (hcomma : close ≠ CodePoint.ofChar ',')
    (hends : ∀ rest, EndsNumber (close :: rest)) {turns : Nat} (hturns : ts.length ≤ turns)
    (rest : Text) :
    readAll readOne close turns (Text.join "," ts ++ close :: rest) = some (xs, rest) := by
  cases ts with
  | nil =>
    cases h
    simp [Text.join, readAll, skipBlanks_cons hblank]
  | cons t ts =>
    have hread := readSeries_join h (by simp) hblank hcomma hends hturns rest
    obtain ⟨c, u, rfl, hc, hclose⟩ := hopen t List.mem_cons_self
    obtain ⟨v, hv⟩ : ∃ v, Text.join "," ((c :: u) :: ts) ++ close :: rest = c :: v := by
      cases ts with
      | nil => exact ⟨_, by simp [Text.join]; rfl⟩
      | cons => exact ⟨_, by rw [join_cons (by simp)]; rfl⟩
    rw [hv] at hread ⊢
    simp [readAll, skipBlanks_cons hc, hclose, hread]

end

/-- The text is a key and a value, and read as an entry of these. -/
def SpellsEntry (out : Text) (e : Datum × Datum) : Prop :=
  ∃ key value, e.1 = .text key ∧ key.isScalar ∧ out = quote key ++ ":" ++ value ∧
    Spells value e.2

theorem readKey_quote {key : Text} (hkey : key.isScalar) (rest : Text) :
    readKey (quote key ++ CodePoint.ofChar ':' :: rest) = some (key, rest) := by
  have hread := readString_quote hkey (CodePoint.ofChar ':' :: rest)
  have hout : quote key ++ CodePoint.ofChar ':' :: rest = CodePoint.ofChar '"' ::
      (key.flatMap escape ++ (CodePoint.ofChar '"' :: CodePoint.ofChar ':' :: rest)) := by
    simp [quote, Text.ofString]
  rw [hout, readKey, skipBlanks_cons (by decide)]
  simp only [if_true, hread]
  rw [skipBlanks_cons (by decide)]
  simp

theorem SpellsEntry.read {out : Text} {e : Datum × Datum} (h : SpellsEntry out e) {turns : Nat}
    (hturns : out.length ≤ turns) {rest : Text} (hrest : EndsNumber rest) :
    readEntry (readValue (turns + 1)) (out ++ rest) = some (e, rest) := by
  obtain ⟨key, value, hkey, hscalar, rfl, hvalue⟩ := h
  have hlength : value.length ≤ turns := by
    rw [List.length_append] at hturns
    omega
  have hout : quote key ++ ":" ++ value ++ rest =
      quote key ++ CodePoint.ofChar ':' :: (value ++ rest) := by
    simp [Text.ofString]
  rw [hout, readEntry, readKey_quote hscalar]
  simp [hvalue.read hlength hrest, ← hkey]

theorem SpellsEntry.head {out : Text} {e : Datum × Datum} (h : SpellsEntry out e) :
    ∃ c u, out = c :: u ∧ isBlank c = false ∧ c ≠ CodePoint.ofChar '\x7d' := by
  obtain ⟨key, value, -, -, rfl, -⟩ := h
  exact ⟨CodePoint.ofChar '"', _, rfl, by decide, by decide⟩

theorem SpellsEntry.isScalar {out : Text} {e : Datum × Datum} (h : SpellsEntry out e) :
    out.isScalar := by
  obtain ⟨key, value, -, hscalar, rfl, hvalue⟩ := h
  rw [Text.isScalar_append, Text.isScalar_append, isScalar_quote hscalar, hvalue.isScalar]
  rfl

theorem isScalar_enclosed {opening closing : Text} (hopening : opening.isScalar)
    (hclosing : closing.isScalar) {ts : List Text} (h : ∀ t ∈ ts, t.isScalar) :
    (opening ++ Text.join "," ts ++ closing).isScalar := by
  rw [Text.isScalar_append, Text.isScalar_append, hopening, hclosing, isScalar_join h]
  rfl

/-- There are turns enough for as many texts as a container holds, and for each of them. -/
theorem turns_enclosed {ts : List Text} {turns : Nat}
    (h : (Text.join "," ts).length + 2 ≤ turns) :
    ∃ n, turns = n + 1 ∧ ts.length ≤ turns ∧ ∀ t ∈ ts, t.length ≤ n := by
  have hcount := @length_le_join ts
  refine ⟨turns - 1, by omega, by omega, fun t ht => ?_⟩
  have := length_le_of_mem_join ht
  omega

section

variable {α : Type} {Q : Text → α → Prop} {g : (turns : Nat) → Text → Option (α × Text)}
  {o close : CodePoint} {f : List α → Datum}

/-- A container is read as what is made of what it holds, if each of these is read by itself. -/
theorem spells_enclosed {ts : List Text} {xs : List α} (h : List.Forall₂ Q ts xs)
    (hscalar : ∀ t x, Q t x → t.isScalar)
    (hhead : ∀ t x, Q t x → ∃ c u, t = c :: u ∧ isBlank c = false ∧ c ≠ close)
    (hread : ∀ t x, Q t x → ∀ n rest, t.length ≤ n → EndsNumber rest →
      g (n + 1) (t ++ rest) = some (x, rest))
    (hvalue : ∀ turns rest, readValue (turns + 1) (o :: rest) =
      (readAll (g turns) close turns rest).map fun (xs, rest) => (f xs, rest))
    (hopen : Text.isScalar [o] ∧ isBlank o = false ∧ o ≠ CodePoint.ofChar ']')
    (hclose : Text.isScalar [close] ∧ isBlank close = false ∧ close ≠ CodePoint.ofChar ',' ∧
      ∀ rest, EndsNumber (close :: rest)) :
    Spells ([o] ++ Text.join "," ts ++ [close]) (f xs) := by
  have hheld {R : Text → Prop} (hR : ∀ t x, Q t x → R t) : ∀ t ∈ ts, R t :=
    ((List.forall₂_and_left ts xs).mp (h.imp fun t x hq => ⟨hR t x hq, hq⟩)).1
  obtain ⟨hscalarClose, hblank, hcomma, hends⟩ := hclose
  refine ⟨isScalar_enclosed hopen.1 hscalarClose (hheld hscalar),
    ⟨o, Text.join "," ts ++ [close], rfl, hopen.2⟩, fun {turns rest} hturns _ => ?_⟩
  have hlength : (Text.join "," ts).length + 2 ≤ turns := by
    simp at hturns
    omega
  obtain ⟨n, rfl, hcount, hshort⟩ := turns_enclosed hlength
  have hone : List.Forall₂ (fun t x => ∀ rest, EndsNumber rest →
      g (n + 1) (t ++ rest) = some (x, rest)) ts xs :=
    ((List.forall₂_and_left _ _).mpr ⟨hshort, h⟩).imp fun t x ht rest hrest =>
      hread t x ht.2 n rest ht.1 hrest
  have hall := readAll_join hone (hheld hhead) hblank hcomma hends hcount rest
  have hout : [o] ++ Text.join "," ts ++ [close] ++ rest =
      o :: (Text.join "," ts ++ close :: rest) := by
    simp
  rw [hout, hvalue, hall]
  rfl

end

theorem spells_list {ts : List Text} {items : List Datum} (h : List.Forall₂ Spells ts items) :
    Spells ("[" ++ Text.join "," ts ++ "]") (.list items) := by
  refine spells_enclosed (f := .list) (g := readValue) h
    (fun _ _ hs => hs.isScalar) (fun _ _ hs => hs.head)
    (fun _ _ hs _ _ hlength hrest => hs.read hlength hrest) (fun turns rest => ?_) (by decide)
    ⟨by decide, by decide, by decide, fun _ => endsNumber_cons (by decide) _⟩
  rw [readValue, skipBlanks_cons (by decide)]
  rfl

theorem spells_dict {ts : List Text} {entries : List (Datum × Datum)}
    (h : List.Forall₂ SpellsEntry ts entries) (hentries : Datum.dictOf entries = entries) :
    Spells ("\x7b" ++ Text.join "," ts ++ "\x7d") (.dict entries) := by
  have hdict : Spells ("\x7b" ++ Text.join "," ts ++ "\x7d") (.dict (Datum.dictOf entries)) := by
    refine spells_enclosed (f := fun es => .dict (Datum.dictOf es))
      (g := fun turns => readEntry (readValue turns)) h
      (fun _ _ hs => hs.isScalar) (fun _ _ hs => hs.head)
      (fun _ _ hs _ _ hlength hrest => hs.read hlength hrest) (fun turns rest => ?_) (by decide)
      ⟨by decide, by decide, by decide, fun _ => endsNumber_cons (by decide) _⟩
    rw [readValue, skipBlanks_cons (by decide)]
    rfl
  rwa [hentries] at hdict

/-! ## All that is written -/

mutual

/-- JSON has a form of its own for the datum; a dictionary holds no key twice. -/
def Native : Datum → Prop
  | .null | .bool _ | .int _ | .text _ => True
  | .list items => NativeItems items
  | .dict entries => NativeEntries entries ∧ Datum.dictOf entries = entries
  | _ => False

@[inherit_doc Native]
def NativeItems : List Datum → Prop
  | [] => True
  | d :: rest => Native d ∧ NativeItems rest

@[inherit_doc Native]
def NativeEntries : List (Datum × Datum) → Prop
  | [] => True
  | (_, d) :: rest => Native d ∧ NativeEntries rest

end

theorem writeText_eq_ok {t out : Text} (h : writeText t = .ok out) :
    t.isScalar ∧ out = quote t := by
  unfold writeText at h
  split at h
  · next hscalar => exact ⟨hscalar, by cases h; rfl⟩
  · cases h

/-! The writer puts what it holds together; these say the same with `map` and `bind`. -/

theorem write_list (level : Nat) (items : List Datum) :
    write level (.list items) = if isTooDeep level then .error .jsonTooDeep else
      (writeItems (level + 1) items).map fun ts => "[" ++ Text.join "," ts ++ "]" := by
  rw [write]
  cases writeItems (level + 1) items <;> rfl

theorem write_tuple (level : Nat) (items : List Datum) :
    write level (.tuple items) =
      (writeItems (level + 1) items).map fun ts => "[" ++ Text.join "," ts ++ "]" := by
  rw [write]
  cases writeItems (level + 1) items <;> rfl

theorem write_dict (level : Nat) (entries : List (Datum × Datum)) :
    write level (.dict entries) = if isTooDeep level then .error .jsonTooDeep else
      (writeEntries (level + 1) entries).map fun ts => "\x7b" ++ Text.join "," ts ++ "\x7d" := by
  rw [write]
  cases writeEntries (level + 1) entries <;> rfl

theorem writeItems_cons (level : Nat) (d : Datum) (rest : List Datum) :
    writeItems level (d :: rest) =
      (write level d).bind fun t => (writeItems level rest).map (t :: ·) := by
  rw [writeItems]
  cases write level d with
  | error fault => rfl
  | ok t => cases writeItems level rest <;> rfl

theorem writeEntries_cons (level : Nat) (key : Text) (d : Datum) (rest : List (Datum × Datum)) :
    writeEntries level ((.text key, d) :: rest) =
      (writeText key).bind fun k => (write level d).bind fun t =>
        (writeEntries level rest).map ((k ++ ":" ++ t) :: ·) := by
  rw [writeEntries]
  cases writeText key with
  | error fault => rfl
  | ok k =>
    cases write level d with
    | error fault => rfl
    | ok t => cases writeEntries level rest <;> rfl

theorem map_eq_ok_of_not_tooDeep {α : Type} {level : Nat} {x : Except Fault α} {f : α → Text}
    {out : Text} (h : (if isTooDeep level then .error .jsonTooDeep else x.map f) = .ok out) :
    ∃ a, x = .ok a ∧ f a = out := by
  split at h
  · cases h
  · exact Except.map_eq_ok_iff.mp h

mutual

/-- What is written is read as the datum, if it is native. -/
theorem spells_write : ∀ {level : Nat} {d : Datum} {out : Text}, write level d = .ok out →
    Native d → Spells out d
  | _, .null, _, h, _ => by
    cases h
    exact spells_word (by simp [words])
  | _, .bool b, _, h, _ => by
    cases h
    cases b <;> exact spells_word (by simp [words])
  | _, .int i, _, h, _ => by
    simp only [write] at h
    split at h
    · cases h
      exact spells_int i
    · cases h
  | _, .text t, _, h, _ => by
    obtain ⟨hscalar, rfl⟩ := writeText_eq_ok h
    exact spells_quote hscalar
  | level, .list items, _, h, hnative => by
    rw [write_list] at h
    obtain ⟨ts, hts, rfl⟩ := map_eq_ok_of_not_tooDeep h
    exact spells_list (spells_writeItems hts hnative)
  | level, .dict entries, _, h, hnative => by
    rw [write_dict] at h
    obtain ⟨ts, hts, rfl⟩ := map_eq_ok_of_not_tooDeep h
    exact spells_dict (spells_writeEntries hts hnative.1) hnative.2

theorem spells_writeItems : ∀ {level : Nat} {items : List Datum} {ts : List Text},
    writeItems level items = .ok ts → NativeItems items → List.Forall₂ Spells ts items
  | _, [], _, h, _ => by
    cases h
    exact .nil
  | level, d :: rest, _, h, hnative => by
    rw [writeItems_cons] at h
    obtain ⟨t, ht, h⟩ := Except.bind_eq_ok_iff.mp h
    obtain ⟨ts, hts, rfl⟩ := Except.map_eq_ok_iff.mp h
    exact .cons (spells_write ht hnative.1) (spells_writeItems hts hnative.2)

theorem spells_writeEntries : ∀ {level : Nat} {entries : List (Datum × Datum)} {ts : List Text},
    writeEntries level entries = .ok ts → NativeEntries entries →
    List.Forall₂ SpellsEntry ts entries
  | _, [], _, h, _ => by
    cases h
    exact .nil
  | level, (.text key, d) :: rest, _, h, hnative => by
    rw [writeEntries_cons] at h
    obtain ⟨k, hk, h⟩ := Except.bind_eq_ok_iff.mp h
    obtain ⟨t, ht, h⟩ := Except.bind_eq_ok_iff.mp h
    obtain ⟨ts, hts, rfl⟩ := Except.map_eq_ok_iff.mp h
    obtain ⟨hscalar, rfl⟩ := writeText_eq_ok hk
    exact .cons ⟨key, t, rfl, hscalar, rfl, spells_write ht hnative.1⟩
      (spells_writeEntries hts hnative.2)

end

/-! ## What is not written -/

mutual

/-- Nothing but a surrogate in a text keeps the datum from being written on the level. -/
def Fits (level : Nat) : Datum → Prop
  | .null | .bool _ | .float _ | .text _ => True
  | .int i => minInt ≤ i ∧ i ≤ maxInt
  | .list items => isTooDeep level = false ∧ FitsItems (level + 1) items
  | .tuple items => FitsItems (level + 1) items
  | .dict entries => isTooDeep level = false ∧ FitsEntries (level + 1) entries
  | .decimal _ | .bytes _ | .other _ => False

@[inherit_doc Fits]
def FitsItems (level : Nat) : List Datum → Prop
  | [] => True
  | d :: rest => Fits level d ∧ FitsItems level rest

@[inherit_doc Fits]
def FitsEntries (level : Nat) : List (Datum × Datum) → Prop
  | [] => True
  | (.text _, d) :: rest => Fits level d ∧ FitsEntries level rest
  | _ => False

end

mutual

/-- The texts in a datum, those of its keys included. -/
def texts : Datum → List Text
  | .text t => [t]
  | .list items | .tuple items => textsOfItems items
  | .dict entries => textsOfEntries entries
  | _ => []

/-- The texts in the items of a container. -/
def textsOfItems : List Datum → List Text
  | [] => []
  | d :: rest => texts d ++ textsOfItems rest

/-- The texts in the entries of a dictionary. -/
def textsOfEntries : List (Datum × Datum) → List Text
  | [] => []
  | (key, d) :: rest => texts key ++ texts d ++ textsOfEntries rest

end

/-- The outcome of writing is decided by the texts that are written. -/
def Decided {α : Type} (ts : List Text) (result : Except Fault α) : Prop :=
  if ts.all Text.isScalar then ∃ out, result = .ok out else result = .error .surrogate

theorem decided_ok {α : Type} (out : α) : Decided [] (.ok out) := ⟨out, rfl⟩

theorem decided_writeText (t : Text) : Decided [t] (writeText t) := by
  unfold Decided writeText
  by_cases ht : t.isScalar <;> simp [ht]

/-- Texts that are written later decide nothing if an earlier one is refused. -/
theorem Decided.bind {α β : Type} {ss ts : List Text} {result : Except Fault α}
    {f : α → Except Fault β} (h : Decided ss result) (hf : ∀ out, Decided ts (f out)) :
    Decided (ss ++ ts) (result.bind f) := by
  unfold Decided at h ⊢
  rw [List.all_append]
  by_cases hs : ss.all Text.isScalar
  · rw [if_pos hs] at h
    obtain ⟨out, rfl⟩ := h
    rw [hs, Bool.true_and]
    exact hf out
  · rw [if_neg hs] at h
    rw [h, Bool.eq_false_iff.mpr hs, Bool.false_and, if_neg Bool.false_ne_true]
    rfl

theorem Decided.map {α β : Type} {ts : List Text} {result : Except Fault α} (f : α → β)
    (h : Decided ts result) : Decided ts (result.map f) := by
  have hbind := h.bind fun out => decided_ok (f out)
  rw [List.append_nil] at hbind
  cases result <;> exact hbind

mutual

/-- What keeps a datum that fits from being written is a surrogate in one of its texts. -/
theorem decided_write : ∀ {level : Nat} {d : Datum}, Fits level d →
    Decided (texts d) (write level d)
  | _, .null, _ => decided_ok _
  | _, .bool _, _ => decided_ok _
  | _, .float _, _ => decided_ok _
  | _, .text t, _ => decided_writeText t
  | _, .int i, (h : minInt ≤ i ∧ i ≤ maxInt) => by
    rw [write, if_pos h]
    exact decided_ok _
  | level, .list items, h => by
    rw [write_list, h.1, if_neg Bool.false_ne_true]
    exact (decided_writeItems h.2).map _
  | level, .tuple items, (h : FitsItems (level + 1) items) => by
    rw [write_tuple]
    exact (decided_writeItems h).map _
  | level, .dict entries, h => by
    rw [write_dict, h.1, if_neg Bool.false_ne_true]
    exact (decided_writeEntries h.2).map _

theorem decided_writeItems : ∀ {level : Nat} {items : List Datum}, FitsItems level items →
    Decided (textsOfItems items) (writeItems level items)
  | _, [], _ => decided_ok _
  | level, d :: rest, h => by
    rw [writeItems_cons]
    exact (decided_write h.1).bind fun t => (decided_writeItems h.2).map _

theorem decided_writeEntries : ∀ {level : Nat} {entries : List (Datum × Datum)},
    FitsEntries level entries → Decided (textsOfEntries entries) (writeEntries level entries)
  | _, [], _ => decided_ok _
  | level, (.text key, d) :: rest, h => by
    rw [writeEntries_cons]
    have hrest k : Decided (texts d ++ textsOfEntries rest) ((write level d).bind fun t =>
        (writeEntries level rest).map ((k ++ ":" ++ t) :: ·)) :=
      (decided_write h.1).bind fun t => (decided_writeEntries h.2).map _
    rw [textsOfEntries, List.append_assoc]
    exact (decided_writeText key).bind hrest

end

/-! ## Bytes -/

theorem Spells.read? {out : Text} {d : Datum} (h : Spells out d) : read? out = some d := by
  have hread : readValue (out.length + 1) (out ++ []) = some (d, []) :=
    h.read (Nat.le_refl _) (by simp [EndsNumber])
  rw [List.append_nil] at hread
  simp [Json.read?, hread, skipBlanks]

theorem encode_eq_ok_of_write {d : Datum} {out : Text} (h : write 1 d = .ok out)
    (hnative : Native d) : ∃ bytes, encode d = .ok bytes ∧ decode? bytes = some d := by
  have hspells := spells_write h hnative
  have hbytes : out.toUtf8? = some (out.flatMap CodePoint.utf8) := if_pos hspells.isScalar
  refine ⟨out.flatMap CodePoint.utf8, by simp [encode, h, hbytes], ?_⟩
  rw [decode?, Text.ofUtf8?_of_toUtf8? hbytes]
  exact hspells.read?

/-- A native datum that fits is read back from its bytes, or holds a surrogate and has none. -/
theorem encode_of_fits {d : Datum} (hfits : Fits 1 d) (hnative : Native d) :
    if (texts d).all Text.isScalar then ∃ bytes, encode d = .ok bytes ∧ decode? bytes = some d
    else encode d = .error .surrogate := by
  have hwrite := decided_write hfits
  unfold Decided at hwrite
  by_cases hscalar : (texts d).all Text.isScalar
  · rw [if_pos hscalar] at hwrite ⊢
    obtain ⟨out, hout⟩ := hwrite
    exact encode_eq_ok_of_write hout hnative
  · rw [if_neg hscalar] at hwrite ⊢
    simp [encode, hwrite]

/-! ## Dictionaries with texts for keys -/

theorem put_text {key : Text} {d : Datum} {entries : List (Text × Datum)}
    (h : key ∉ entries.map Prod.fst) :
    Datum.put (.text key) d (entries.map fun e => (.text e.1, e.2)) =
      (entries ++ [(key, d)]).map fun e => (Datum.text e.1, e.2) := by
  induction entries with
  | nil => rfl
  | cons e entries ih =>
    simp only [List.map_cons, List.mem_cons, not_or] at h
    have hother : Datum.sameKey (.text e.1) (.text key) = false := by
      simpa [Datum.sameKey] using Ne.symm h.1
    simp [Datum.put, hother, ih h.2]

/-- No entry takes the place of another if no two texts are the same. -/
theorem dictOf_texts {entries : List (Text × Datum)} (h : (entries.map Prod.fst).Nodup) :
    Datum.dictOf (entries.map fun e => (.text e.1, e.2)) =
      entries.map fun e => (.text e.1, e.2) := by
  induction entries using List.reverseRecOn with
  | nil => rfl
  | append_singleton entries e ih =>
    rw [List.map_append, List.nodup_append] at h
    have hnew : e.1 ∉ entries.map Prod.fst := fun hmem => h.2.2 _ hmem _ (by simp) rfl
    have hput := put_text (d := e.2) hnew
    unfold Datum.dictOf at ih ⊢
    rw [List.map_append, List.foldl_append, ih h.1, ← List.map_append]
    exact hput

theorem native_dictionary {entries : List (Text × Datum)} (h : (entries.map Prod.fst).Nodup)
    (hnative : ∀ e ∈ entries, Native e.2) : Native (Payload.dictionary entries) := by
  refine ⟨?_, dictOf_texts h⟩
  induction entries with
  | nil => trivial
  | cons e entries ih =>
    rw [List.map_cons, List.nodup_cons] at h
    exact ⟨hnative e (by simp), ih h.2 fun e he => hnative e (List.mem_cons_of_mem _ he)⟩

theorem fits_dictionary {level : Nat} {entries : List (Text × Datum)}
    (hlevel : isTooDeep level = false) (hfits : ∀ e ∈ entries, Fits (level + 1) e.2) :
    Fits level (Payload.dictionary entries) := by
  refine ⟨hlevel, ?_⟩
  induction entries with
  | nil => trivial
  | cons e entries ih =>
    exact ⟨hfits e (by simp), ih fun e he => hfits e (List.mem_cons_of_mem _ he)⟩

end Json

end Telemetry
