import Telemetry.Proofs.Json.RoundTrip
import Telemetry.Proofs.LogLine
import Telemetry.Proofs.Text.Utf8

/-!
# What a log line shows

A line is put together from the fields of the call, the context and the configuration, some steps
filling in what is missing and some writing over what is there. `LogLine.shown` says what comes of
it key by key, without regard to the order of the steps: the event, the time and the severity are
those of the call, and under every other key the call goes before the context and the context before
the configuration. `LogLine.lookup_entriesOf` is the composition of the steps, each of which has a
lemma of its own that says what it does to a key.

A line is printed as one object with an entry for each of its own (`LogLine.readBack_eq_ok`), and
data that JSON has a form of its own for are read back as they are (`LogLine.image_of_isJson`).
-/

namespace Telemetry

/-! ## Levels by name -/

namespace LogFormat

theorem le_of_mem_asciiUpperCases : ∀ e ∈ asciiUpperCases, 0xDF ≤ e.1 := by decide

/-- A code point has the upper case of the letter that is its lower case. -/
theorem upperCase_eq_of_toLower {c d : CodePoint} (h : c.toLower = d)
    (hletter : 97 ≤ d.val ∧ d.val ≤ 122) (hk : d ≠ CodePoint.ofChar 'k') :
    upperCase c = upperCase d := by
  unfold CodePoint.toLower at h
  split at h
  · next hupper =>
    subst h
    have hlookup : asciiUpperCases.lookup c.val = none := by
      rw [List.lookup_eq_none_iff]
      intro e he
      have := le_of_mem_asciiUpperCases e he
      simp only [bne_iff_ne]
      omega
    have hback : Fin.ofNat 0x110000 (c.val + 32 - 32) = c := by
      apply Fin.ext
      show (c.val + 32 - 32) % 0x110000 = c.val
      omega
    unfold upperCase
    rw [if_neg (by omega), if_pos hletter, hlookup, hback]
    rfl
  · split at h
    -- The Kelvin sign is the one other code point with a letter for its lower case.
    · exact absurd h.symm hk
    · rw [h]

theorem flatMap_upperCase_of_foldCase {t name : Text} (h : t.foldCase = name)
    (hname : ∀ d ∈ name, (97 ≤ d.val ∧ d.val ≤ 122) ∧ d ≠ CodePoint.ofChar 'k') :
    t.flatMap upperCase = name.flatMap upperCase := by
  subst h
  induction t with
  | nil => rfl
  | cons c t ih =>
    obtain ⟨hletter, hk⟩ := hname c.toLower List.mem_cons_self
    have hrest := ih fun d hd => hname d (List.mem_cons_of_mem _ hd)
    rw [List.flatMap_cons, upperCase_eq_of_toLower rfl hletter hk, hrest]
    rfl

/-- The name of a level stands for its rank in any case of letters. -/
theorem rankOf_eq_ok {level : Text} {l : LogLevel} (h : level.foldCase = l.name) :
    rankOf level = .ok l.severity.rank := by
  -- Decided letter by letter: the quantifier itself would run through all code points.
  have hall : (l.name.all fun d =>
      decide ((97 ≤ d.val ∧ d.val ≤ 122) ∧ d ≠ CodePoint.ofChar 'k')) = true := by
    cases l <;> decide
  have hletters : ∀ d ∈ l.name, (97 ≤ d.val ∧ d.val ≤ 122) ∧ d ≠ CodePoint.ofChar 'k' :=
    fun d hd => of_decide_eq_true (List.all_eq_true.mp hall d hd)
  have hname : l.name.flatMap upperCase ≠ layoutName ∧
      l.name.flatMap upperCase ≠ stylesName ∧
      namedRanks.lookup (l.name.flatMap upperCase) = some l.severity.rank := by
    cases l <;> decide +kernel
  obtain ⟨hlayout, hstyles, hrank⟩ := hname
  unfold rankOf
  dsimp only
  rw [flatMap_upperCase_of_foldCase h hletters, if_neg hlayout, if_neg hstyles, hrank]
  rfl

end LogFormat

namespace LogLine

/-! ## Steps, key by key -/

section Steps

variable (key k : Text) (value : Datum) (entries : Entries)

theorem has_iff : has key entries = true ↔ key ∈ entries.map Prod.fst := by
  unfold has
  rw [List.any_eq_true, List.mem_map]
  simp only [beq_iff_eq]

theorem has_eq_isSome : has key entries = (entries.lookup key).isSome := by
  unfold has
  induction entries with
  | nil => rfl
  | cons e rest ih =>
    rw [List.any_cons, List.lookup_cons, ih, BEq.comm]
    cases key == e.1 <;> rfl

theorem lookup_singleton :
    List.lookup k [(key, value)] = if k = key then some value else none := by
  rw [List.lookup_cons]
  by_cases h : k = key
  · rw [if_pos h, h, beq_self_eq_true]
  · rw [if_neg h, beq_false_of_ne h, List.lookup_nil]

theorem lookup_fillIn : (fillIn key value entries).lookup k =
    (entries.lookup k).or (if k = key then some value else none) := by
  unfold fillIn
  split
  · next h =>
    rw [has_eq_isSome] at h
    split
    · next hk =>
      rw [hk, Option.or_of_isSome h]
    · rw [Option.or_none]
  · rw [List.lookup_append, lookup_singleton]

theorem lookup_replace :
    (entries.map fun e => if e.1 == key then (key, value) else e).lookup k =
      if k = key then (entries.lookup key).map fun _ => value else entries.lookup k := by
  induction entries with
  | nil => simp
  | cons e rest ih =>
    rw [List.map_cons, List.lookup_cons, List.lookup_cons, List.lookup_cons, ih]
    by_cases he : e.1 = key
    · subst he
      by_cases hk : k = e.1
      · simp [hk]
      · simp [hk, beq_false_of_ne hk]
    · have hother : (key == e.1) = false := beq_false_of_ne (Ne.symm he)
      by_cases hk : k = key
      · simp [he, hk, hother]
      · simp [he, hk]

theorem lookup_set : (set key value entries).lookup k =
    if k = key then some value else entries.lookup k := by
  unfold set
  split
  · next h =>
    rw [has_eq_isSome, Option.isSome_iff_exists] at h
    obtain ⟨old, hold⟩ := h
    rw [lookup_replace, hold]
    rfl
  · next h =>
    rw [has_eq_isSome, Bool.not_eq_true, Option.isSome_eq_false_iff, Option.isNone_iff_eq_none] at h
    rw [List.lookup_append, lookup_singleton]
    split
    · next hk => rw [hk, h, Option.none_or]
    · rw [Option.or_none]

theorem lookup_fillInAll (context : Entries) :
    (fillInAll context entries).lookup k = (entries.lookup k).or (context.lookup k) := by
  unfold fillInAll
  induction context generalizing entries with
  | nil => rw [List.foldl_nil, List.lookup_nil, Option.or_none]
  | cons e rest ih =>
    have hfirst : List.lookup k (e :: rest) =
        (if k = e.1 then some e.2 else none).or (rest.lookup k) := by
      rw [← lookup_singleton, ← List.lookup_append, List.singleton_append]
    rw [List.foldl_cons, ih, lookup_fillIn, Option.or_assoc, hfirst]

variable {k} in
theorem lookup_filter {keep : Text → Bool} (hk : keep k = true) :
    (entries.filter fun e => keep e.1).lookup k = entries.lookup k := by
  induction entries with
  | nil => rfl
  | cons e rest ih =>
    rw [List.filter_cons, List.lookup_cons]
    by_cases he : k = e.1
    · subst he
      rw [if_pos hk, List.lookup_cons, beq_self_eq_true]
    · rw [beq_false_of_ne he, ← ih]
      split
      · rw [List.lookup_cons, beq_false_of_ne he]
      · rfl

variable {entries} (h : (entries.map Prod.fst).Nodup)

include h

theorem nodup_append_one (hkey : ¬ has key entries = true) :
    ((entries ++ [(key, value)]).map Prod.fst).Nodup := by
  rw [has_iff] at hkey
  rw [List.map_append]
  exact h.append (List.nodup_singleton _) (List.disjoint_singleton.mpr hkey)

theorem nodup_fillIn : ((fillIn key value entries).map Prod.fst).Nodup := by
  unfold fillIn
  split
  · exact h
  · next hkey => exact nodup_append_one key value h hkey

theorem nodup_set : ((set key value entries).map Prod.fst).Nodup := by
  unfold set
  split
  · have hkeys : (entries.map fun e => if e.1 == key then (key, value) else e).map Prod.fst =
        entries.map Prod.fst := by
      rw [List.map_map]
      refine List.map_congr_left fun e _ => ?_
      by_cases he : e.1 = key <;> simp [he]
    rwa [hkeys]
  · next hkey => exact nodup_append_one key value h hkey

theorem nodup_fillInAll (context : Entries) :
    ((fillInAll context entries).map Prod.fst).Nodup := by
  unfold fillInAll
  induction context generalizing entries with
  | nil => exact h
  | cons e rest ih => exact ih (nodup_fillIn e.1 e.2 h)

end Steps

/-! ## The line of a call -/

/-- What a configuration has under a key: the service, and the environment if it is given. -/
def configured (f : LogFormat) (key : Text) : Option Datum :=
  if key = "service" then some (.text f.service)
  else if key = "env" then f.environment.map Datum.text
  else none

/-- What a line shows under a key. -/
def shown (f : LogFormat) (time : Text) (context : Entries) (severity : Severity) (event : Text)
    (fields : Entries) (key : Text) : Option Datum :=
  if key = "event" then some (.text event)
  else if key = "ts" then some (.text time)
  else if key = "level" then some (.text severity.name)
  else (fields.lookup key).or ((context.lookup key).or (configured f key))

theorem lookup_fillInService (f : LogFormat) (entries : Entries) (key : Text) :
    (fillInService f.service f.environment entries).lookup key =
      (entries.lookup key).or (configured f key) := by
  have hkeys : ("env" : Text) ≠ "service" := by decide
  unfold fillInService configured
  cases f.environment with
  | none =>
    rw [lookup_fillIn]
    simp
  | some name =>
    dsimp only
    rw [lookup_fillIn, lookup_fillIn, Option.or_assoc]
    congr 1
    by_cases hservice : key = "service"
    · simp [hservice]
    · simp [hservice]

theorem nodup_fillInService (f : LogFormat) {entries : Entries}
    (h : (entries.map Prod.fst).Nodup) :
    ((fillInService f.service f.environment entries).map Prod.fst).Nodup := by
  unfold fillInService
  cases f.environment with
  | none => exact nodup_fillIn _ _ h
  | some name => exact nodup_fillIn _ _ (nodup_fillIn _ _ h)

theorem lookup_entriesOf (f : LogFormat) (time : Text) (context : Entries) (severity : Severity)
    (event : Text) (fields : Entries) {key : Text} (hplace : key ∉ placeKeys)
    (hrequest : key ∉ requestKeys) :
    (entriesOf f time context severity (.text event) fields).lookup key =
      shown f time context severity event fields key := by
  let keep (key : Text) : Bool := !placeKeys.contains key && !requestKeys.contains key
  have hkeep : keep key = true := by simp [keep, hplace, hrequest]
  show List.lookup key (List.filter (fun e => keep e.1) _) = _
  rw [lookup_filter _ hkeep, lookup_set, lookup_set, lookup_fillInService, lookup_fillInAll,
    lookup_set]
  unfold shown
  have hevent : key = "event" → key ≠ "ts" ∧ key ≠ "level" := by
    rintro rfl
    decide
  have hts : key = "ts" → key ≠ "level" := by
    rintro rfl
    decide
  by_cases h1 : key = "event"
  · rw [if_neg (hevent h1).2, if_neg (hevent h1).1, if_pos h1, if_pos h1]
    rfl
  · by_cases h2 : key = "ts"
    · rw [if_neg (hts h2), if_pos h2, if_neg h1, if_pos h2]
    · rw [if_neg h2, if_neg h1, if_neg h1, if_neg h2, Option.or_assoc]

theorem nodup_entriesOf (f : LogFormat) (time : Text) (context : Entries) (severity : Severity)
    (event : Text) {fields : Entries} (h : (fields.map Prod.fst).Nodup) :
    ((entriesOf f time context severity (.text event) fields).map Prod.fst).Nodup := by
  have hservice := nodup_fillInService f (nodup_fillInAll (nodup_set "event" (.text event) h) context)
  have hlevel := nodup_set "level" (.text severity.name) (nodup_set "ts" (.text time) hservice)
  exact hlevel.sublist (List.filter_sublist.map Prod.fst)

/-! ## The object of a line -/

mutual

/-- JSON has a form of its own for the datum, with nothing left out and nothing joined. -/
def IsJson : Datum → Prop
  | .null | .bool _ => True
  | .int i => Datum.isLongInt i = false
  | .float x => x.isFinite = true
  | .text t => t.joinPairs = t
  | .list items => AreJson items
  | .dict entries => EntriesAreJson entries ∧ Datum.dictOf entries = entries
  | _ => False

@[inherit_doc IsJson]
def AreJson : List Datum → Prop
  | [] => True
  | d :: rest => IsJson d ∧ AreJson rest

@[inherit_doc IsJson]
def EntriesAreJson : List (Datum × Datum) → Prop
  | [] => True
  | (.text key, d) :: rest => key.joinPairs = key ∧ IsJson d ∧ EntriesAreJson rest
  | _ => False

end

mutual

/-- What JSON has a form of its own for is read back as it is. -/
theorem image_of_isJson : ∀ {d : Datum}, IsJson d → image d = .ok d
  | .null, _ => rfl
  | .bool _, _ => rfl
  | .int i, h => by
    unfold IsJson at h
    rw [image, imageInt, h]
    rfl
  | .float x, h => by
    unfold IsJson at h
    have hnumber : x.isNaN = false := by
      unfold Binary64.isFinite at h
      rw [decide_eq_true_eq] at h
      exact decide_eq_false (by omega)
    rw [image, Binary64.canonical, hnumber]
    rfl
  | .text t, h => by
    unfold IsJson at h
    rw [image, h]
  | .list items, h => by
    unfold IsJson at h
    rw [image, imageItems_of_areJson h]
    rfl
  | .dict entries, h => by
    unfold IsJson at h
    rw [image, imageEntries_of_areJson h.1]
    exact congrArg (fun entries => Except.ok (Datum.dict entries)) h.2
  | .decimal _, h => by simp [IsJson] at h
  | .bytes _, h => by simp [IsJson] at h
  | .tuple _, h => by simp [IsJson] at h
  | .other _, h => by simp [IsJson] at h

theorem imageItems_of_areJson : ∀ {items : List Datum}, AreJson items → imageItems items = .ok items
  | [], _ => rfl
  | d :: rest, h => by
    unfold AreJson at h
    rw [imageItems, image_of_isJson h.1, imageItems_of_areJson h.2]
    rfl

theorem imageEntries_of_areJson : ∀ {entries : List (Datum × Datum)}, EntriesAreJson entries →
    imageEntries entries = .ok entries
  | [], _ => rfl
  | (.text key, d) :: rest, h => by
    unfold EntriesAreJson at h
    rw [imageEntries, image_of_isJson h.2.1, imageEntries_of_areJson h.2.2, h.1]
    rfl
  | (.null, _) :: _, h | (.bool _, _) :: _, h | (.int _, _) :: _, h | (.float _, _) :: _, h
  | (.decimal _, _) :: _, h | (.bytes _, _) :: _, h | (.list _, _) :: _, h
  | (.tuple _, _) :: _, h | (.dict _, _) :: _, h | (.other _, _) :: _, h => by
    simp [EntriesAreJson] at h

end

/-- A line whose values can be written is one object, if no two keys of it are the same in JSON. -/
theorem readBack_eq_ok {line : Entries} (hwritten : ∀ e ∈ line, ∃ d, image e.2 = .ok d)
    (hkeys : (line.map fun e => e.1.joinPairs).Nodup) :
    ∃ object : Entries, readBack line = .ok (Payload.dictionary object) ∧
      List.Forall₂ ReadAs line object := by
  obtain ⟨object, hobject, hread⟩ := exists_imageEntries hwritten
  have hsame : object.map Prod.fst = line.map fun e => e.1.joinPairs := by
    clear hobject hkeys hwritten
    induction hread with
    | nil => rfl
    | cons hfirst _ ih => rw [List.map_cons, List.map_cons, ih, hfirst.key_eq]
  refine ⟨object, ?_, hread⟩
  rw [← hsame] at hkeys
  rw [readBack, Payload.dictionary, image, hobject]
  exact congrArg (fun entries => Except.ok (Datum.dict entries)) (Json.dictOf_texts hkeys)

theorem exists_image_of_imageEntries {line : Entries} {read : List (Datum × Datum)}
    (h : imageEntries (line.map fun e => (.text e.1, e.2)) = .ok read) :
    ∀ e ∈ line, ∃ d, image e.2 = .ok d := by
  induction line generalizing read with
  | nil => exact nofun
  | cons e rest ih =>
    rw [List.map_cons, imageEntries] at h
    obtain ⟨_, -, h⟩ := Except.bind_eq_ok_iff.mp h
    obtain ⟨value, hvalue, h⟩ := Except.bind_eq_ok_iff.mp h
    obtain ⟨read, hrest, -⟩ := Except.bind_eq_ok_iff.mp h
    exact List.forall_mem_cons.mpr ⟨⟨value, hvalue⟩, ih hrest⟩

/-- A line can be printed if and only if every value of it can be written. -/
theorem exists_readBack_iff {line : Entries} :
    (∃ d, readBack line = .ok d) ↔ ∀ e ∈ line, ∃ d, image e.2 = .ok d := by
  have himage : readBack line = (imageEntries (line.map fun e => (.text e.1, e.2))).map
      fun entries => .dict (Datum.dictOf entries) := by
    rw [readBack, Payload.dictionary, image]
  rw [himage]
  constructor
  · rintro ⟨d, hd⟩
    obtain ⟨read, hread, -⟩ := Except.map_eq_ok_iff.mp hd
    exact exists_image_of_imageEntries hread
  · intro hwritten
    obtain ⟨object, hobject, -⟩ := exists_imageEntries hwritten
    rw [hobject]
    exact ⟨_, rfl⟩

theorem mem_of_isJson {line object : Entries} (h : List.Forall₂ ReadAs line object)
    {e : Text × Datum} (he : e ∈ line) (hjson : IsJson e.2) : (e.1.joinPairs, e.2) ∈ object := by
  induction h with
  | nil => cases he
  | @cons e' o line object hfirst _ ih =>
    rcases List.mem_cons.mp he with rfl | he
    · have hvalue : o.2 = e.2 :=
        Except.ok.inj (hfirst.value_eq.symm.trans (image_of_isJson hjson))
      rw [← hfirst.key_eq, ← hvalue]
      exact List.mem_cons_self
    · exact List.mem_cons_of_mem _ (ih he)

/-! ## What a call prints -/

/-- The names that a call keeps for itself: its arguments, and what asks for a stack or an error. -/
def reservedNames : List Text := callArguments ++ passedArgument :: requestKeys

theorem refusal?_eq_none {fields : Entries} (h : ∀ e ∈ fields, e.1 ∉ reservedNames)
    (printed : Bool) : refusal? printed fields = none := by
  have harguments : fields.find? (fun e => callArguments.contains e.1) = none := by
    rw [List.find?_eq_none]
    intro e he hmem
    exact h e he (List.mem_append_left _ (List.contains_iff_mem.mp hmem))
  have hpassed : has passedArgument fields = false := by
    rw [← Bool.not_eq_true, has_iff, List.mem_map]
    rintro ⟨e, he, hkey⟩
    exact h e he (hkey ▸ List.mem_append_right _ List.mem_cons_self)
  unfold refusal?
  rw [harguments, hpassed, Bool.and_false]
  rfl

theorem lookup_eq_none_of_request {entries : Entries} {key : Text} (hkey : key ∈ requestKeys)
    (h : ∀ e ∈ entries, e.1 ∉ requestKeys) : entries.lookup key = none := by
  rw [List.lookup_eq_none_iff]
  intro e he
  have hne : key ≠ e.1 := fun heq => h e he (heq ▸ hkey)
  simpa using hne

/-- Under the keys that ask for a stack or an error a line shows nothing. -/
theorem shown_eq_none {f : LogFormat} {time : Text} {context : Entries} {severity : Severity}
    {event : Text} {fields : Entries} {key : Text} (hkey : key ∈ requestKeys)
    (hfields : ∀ e ∈ fields, e.1 ∉ requestKeys) (hcontext : ∀ e ∈ context, e.1 ∉ requestKeys) :
    shown f time context severity event fields key = none := by
  have hother : key ∉ (["event", "ts", "level", "service", "env"] : List Text) := by
    intro hmem
    have hdisjoint : (requestKeys.all fun key =>
        !(["event", "ts", "level", "service", "env"] : List Text).contains key) = true := by decide
    simpa [hmem] using List.all_eq_true.mp hdisjoint key hkey
  simp only [List.mem_cons, List.not_mem_nil, or_false, not_or] at hother
  obtain ⟨hevent, hts, hlevel, hservice, henv⟩ := hother
  unfold shown configured
  rw [if_neg hevent, if_neg hts, if_neg hlevel, if_neg hservice, if_neg henv,
    lookup_eq_none_of_request hkey hfields, lookup_eq_none_of_request hkey hcontext]
  rfl

theorem lookup_entriesOf_request {f : LogFormat} {time : Text} {context : Entries}
    {severity : Severity} {event : Datum} {fields : Entries} {key : Text}
    (hkey : key ∈ requestKeys) :
    (entriesOf f time context severity event fields).lookup key = none := by
  refine lookup_eq_none_of_request hkey fun e he => ?_
  have hkept := (List.mem_filter.mp he).2
  rw [Bool.and_eq_true, Bool.not_eq_true', Bool.not_eq_true'] at hkept
  exact fun hmem => by simp [hmem] at hkept

/--
A call below the level prints nothing, and every other one a single line. Under each key but those
of the place the line shows what the call says, else the context, else the configuration, and no key
twice. It is printed if all its values can be written. If its keys differ in JSON as well, that
gives one object with just these entries, and what JSON has a form of its own for is among them as
it is.
-/
theorem ofCall_shows (service : Text) (environment : Option Text) {level : Text} {l : LogLevel}
    (hlevel : level.foldCase = l.name) (time event : Text) (severity : Severity)
    {context fields : Entries} (hnames : (fields.map Prod.fst).Nodup)
    (hfields : ∀ e ∈ fields, e.1 ∉ reservedNames)
    (hcontext : ∀ e ∈ context, e.1 ∉ requestKeys) :
    let f : LogFormat := { service, environment, threshold := l.severity.rank, json := true }
    LogFormat.ofLevel service level environment = .ok f ∧
    (severity.rank < l.severity.rank →
      ofCall f time context severity (.text event) fields = .ok none) ∧
    (l.severity.rank ≤ severity.rank →
      ∃ line, ofCall f time context severity (.text event) fields = .ok (some line) ∧
        (line.map Prod.fst).Nodup ∧
        (∀ key, key ∉ placeKeys →
          line.lookup key = shown f time context severity event fields key) ∧
        ((∃ d, readBack line = .ok d) ↔ ∀ e ∈ line, ∃ d, image e.2 = .ok d) ∧
        ((∀ e ∈ line, ∃ d, image e.2 = .ok d) → (line.map fun e => e.1.joinPairs).Nodup →
          ∃ object, readBack line = .ok (Payload.dictionary object) ∧
            List.Forall₂ ReadAs line object ∧
            ∀ e ∈ line, IsJson e.2 → (e.1.joinPairs, e.2) ∈ object)) := by
  intro f
  have hprinted : isPrinted f severity = decide (l.severity.rank ≤ severity.rank) := rfl
  have hrequests : ∀ e ∈ fields, e.1 ∉ requestKeys := fun e he hmem =>
    hfields e he (List.mem_append_right _ (List.mem_cons_of_mem _ hmem))
  refine ⟨?_, fun hbelow => ?_, fun hreached => ?_⟩
  · unfold LogFormat.ofLevel
    rw [LogFormat.rankOf_eq_ok hlevel]
    rfl
  · unfold ofCall
    dsimp only
    rw [refusal?_eq_none hfields, hprinted, decide_eq_false (Nat.not_le.mpr hbelow)]
    rfl
  · refine ⟨entriesOf f time context severity (.text event) fields, ?_,
      nodup_entriesOf f time context severity event hnames, fun key hplace => ?_,
      exists_readBack_iff, fun hwritten hkeys => ?_⟩
    · unfold ofCall
      dsimp only
      rw [refusal?_eq_none hfields, hprinted, decide_eq_true hreached]
      rfl
    · by_cases hrequest : key ∈ requestKeys
      · rw [lookup_entriesOf_request hrequest, shown_eq_none hrequest hrequests hcontext]
      · exact lookup_entriesOf f time context severity event fields hplace hrequest
    · obtain ⟨object, hobject, hread⟩ := readBack_eq_ok hwritten hkeys
      exact ⟨object, hobject, hread, fun e he hjson => mem_of_isJson hread he hjson⟩

/-- Fields go before the context, also with nothing in them, and it before the configuration. -/
theorem ofCall_shows_overlapping :
    let f : LogFormat := ⟨"shop", some "prod", 30, true⟩
    let context : Entries := [("env", .text "stage"), ("ts", .null), ("a", .null)]
    let fields : Entries := [("service", .null), ("a", .bool true), ("level", .text "x")]
    LogFormat.ofLevel "shop" "WARNing" (some "prod") = .ok f ∧
    ofCall f "now" context .info (.text "e") fields = .ok none ∧
    ∃ line object, ofCall f "now" context .error (.text "e") fields = .ok (some line) ∧
      line.lookup ("service" : Text) = some .null ∧
      line.lookup ("env" : Text) = some (.text "stage") ∧
      line.lookup ("a" : Text) = some (.bool true) ∧
      line.lookup ("ts" : Text) = some (.text "now") ∧
      line.lookup ("level" : Text) = some (.text "error") ∧
      readBack line = .ok (Payload.dictionary object) ∧
      (("env" : Text), Datum.text "stage") ∈ object := by
  intro f context fields
  have hlevel : Text.foldCase "WARNing" = LogLevel.warning.name := by decide
  have hnames : (fields.map Prod.fst).Nodup := by decide
  have hfields : ∀ e ∈ fields, e.1 ∉ reservedNames := by
    have hall : (fields.all fun e => !reservedNames.contains e.1) = true := by decide
    exact fun e he => by simpa using List.all_eq_true.mp hall e he
  have hcontext : ∀ e ∈ context, e.1 ∉ requestKeys := by
    have hall : (context.all fun e => !requestKeys.contains e.1) = true := by decide
    exact fun e he => by simpa using List.all_eq_true.mp hall e he
  obtain ⟨hformat, hbelow, -⟩ :=
    ofCall_shows "shop" (some "prod") hlevel "now" "e" .info hnames hfields hcontext
  obtain ⟨-, -, habove⟩ :=
    ofCall_shows "shop" (some "prod") hlevel "now" "e" .error hnames hfields hcontext
  obtain ⟨line, hline, -, hshown, -, hprinted⟩ := habove (by decide)
  let entries : Entries := [("service", .null), ("a", .bool true), ("level", .text "error"),
    ("event", .text "e"), ("env", .text "stage"), ("ts", .text "now")]
  obtain rfl : entries = line := Option.some.inj (Except.ok.inj hline)
  have hwritten : ∀ e ∈ entries, ∃ d, image e.2 = .ok d := by
    simp only [entries, List.forall_mem_cons, List.not_mem_nil]
    exact ⟨⟨_, rfl⟩, ⟨_, rfl⟩, ⟨_, rfl⟩, ⟨_, rfl⟩, ⟨_, rfl⟩, ⟨_, rfl⟩, nofun⟩
  obtain ⟨object, hobject, -, hsame⟩ := hprinted hwritten (by decide)
  have henv : (("env" : Text), Datum.text "stage") ∈ entries := .tail _ (.tail _ (.tail _ (.tail _
    (.head _))))
  exact ⟨hformat, hbelow (by decide), entries, object, hline, hshown "service" (by decide),
    hshown "env" (by decide), hshown "a" (by decide), hshown "ts" (by decide),
    hshown "level" (by decide), hobject, hsame _ henv rfl⟩

/-- Calls that are refused, lose an entry of the context or a key, or cannot be printed. -/
theorem ofCall_shows_less :
    let f : LogFormat := ⟨"shop", none, 20, true⟩
    LogFormat.ofLevel "shop" "info" none = .ok f ∧
    (∃ fault, ofCall f "now" [] .info (.text "e") [("self", .null)] = .error fault) ∧
    (∃ line, ofCall f "now" [("stack_info", .bool false), ("module", .text "m")] .info
        (.text "e") [] = .ok (some line) ∧
      line.lookup ("stack_info" : Text) = none ∧ line.lookup ("module" : Text) = none) ∧
    (∃ line fault, ofCall f "now" [] .info (.text "e")
        [("n", .dict [(.bytes [97], .null)])] = .ok (some line) ∧
      readBack line = .error fault) ∧
    ∃ line entries, ofCall f "now" [] .info (.text "e")
        [([0xD83D, 0xDE00], .null), ([0x1F600], .null)] = .ok (some line) ∧
      readBack line = .ok (.dict entries) ∧ entries.length < line.length := by
  intro f
  refine ⟨rfl, ⟨_, rfl⟩, ⟨_, rfl, rfl, rfl⟩, ⟨_, _, rfl, rfl⟩, ⟨_, _, rfl, rfl, ?_⟩⟩
  decide

end LogLine

end Telemetry
