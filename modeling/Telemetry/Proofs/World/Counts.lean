import Telemetry.Proofs.Metrics
import Telemetry.Proofs.World.Finalized
import Telemetry.Proofs.World.Journal

/-!
# Counters count what happens

Three things are counted: finalized drafts, events that were handed over, by the class of the sink,
and refused inputs of drafts, by field and class. Each is told of in three places that are written
apart from each other, in the outcomes of steps, in the metrics and in the journal. The journal
tells of what happens while the logger makes entries of that severity, and of nothing else.
`World.Booked` says by how much two worlds differ in all places. It is closed under sequencing
between two set-ups of logging, so it is enough to look at each operation once, and from the
beginning all places agree (`World.counts_of_run`).
-/

namespace Telemetry

namespace Tally

variable {κ : Type} [DecidableEq κ]

/-- The sum of all counts. -/
def total (t : Tally κ) : Nat := (t.counts.map Prod.snd).sum

theorem total_add (t : Tally κ) (key : κ) : (t.add key).total = t.total + 1 := by
  obtain ⟨l⟩ := t
  unfold add total
  induction l with
  | nil => rfl
  | cons e rest ih =>
    rw [bump]
    split
    · simp only [List.map_cons, List.sum_cons]
      omega
    · simp only [List.map_cons, List.sum_cons] at ih ⊢
      omega

end Tally

namespace Registry

variable {κ α : Type} [DecidableEq κ]

/-- What is put under a key counts in place of what was there. -/
theorem countP_values_put (r : Registry κ α) (key : κ) (value : α) (p : α → Bool) :
    (r.put key value).values.countP p + ((r.get? key).toList).countP p =
      r.values.countP p + [value].countP p := by
  obtain ⟨l⟩ := r
  unfold put get? values
  dsimp only
  induction l with
  | nil => simp [replace, find]
  | cons e rest ih =>
    obtain ⟨k, v⟩ := e
    by_cases hk : k = key
    · simp only [replace, find, if_pos hk, List.map_cons, Option.toList_some, List.countP_cons,
        List.countP_nil]
      omega
    · simp only [replace, find, if_neg hk, List.map_cons, List.countP_cons] at ih ⊢
      omega

end Registry

namespace Entry

/-- The entry tells of an event that was created. -/
def isCreated (e : Entry) : Bool := e.event == "event.created"

/-- The entry tells of an event that was handed over. -/
def isAdded (e : Entry) : Bool := e.event == "event.added"

/-- The field and the class of the rejection that an entry tells of. -/
def rejection? : Entry → Option (Text × Text)
  | validationFailed field kind _ => some (field.key, kind.name)
  | _ => none

theorem IsBackground.uncounted {e : Entry} (h : e.IsBackground) :
    e.isCreated = false ∧ e.isAdded = false ∧ e.rejection? = none := by
  cases e with
  | attributionResolved | logSinkSelected | memorySinkSelected | started => exact ⟨rfl, rfl, rfl⟩
  | _ => exact h.elim

theorem counts_of_isBackground {entries : List Entry} (h : ∀ e ∈ entries, e.IsBackground) :
    entries.countP isCreated = 0 ∧ entries.countP isAdded = 0 ∧
      entries.filterMap rejection? = [] := by
  refine ⟨List.countP_eq_zero.mpr fun e he => ?_, List.countP_eq_zero.mpr fun e he => ?_,
    List.filterMap_eq_nil_iff.mpr fun e he => (h e he).uncounted.2.2⟩
  · simp [(h e he).uncounted.1]
  · simp [(h e he).uncounted.2.1]

end Entry

/-- The field and the class of a rejection, if the fault is one. -/
def Fault.rejection : Fault → List (Text × Text)
  | rejected r => [(r.field.key, r.kind.name)]
  | _ => []

/-- The field and the class of a rejection, if the result is one. -/
def rejectionOf {α : Type} : Except Fault α → List (Text × Text)
  | .error fault => fault.rejection
  | .ok _ => []

/-- The step constructs a draft or sets a field of one. -/
def Step.checks : Step → Bool
  | openDraft .. | setTransactionId .. | setInteraction .. | setInteractionFromMessage ..
  | setEventValue .. | setAttribution .. => true
  | _ => false

namespace World

open Telemetry.Action

/-- The number of drafts that are finalized. -/
def finalizedDrafts (w : World) : Nat := w.drafts.values.countP Draft.finalized

/-- The class of the sink that is kept with a service. -/
def sinkClass? (w : World) (keeper : ServiceId) : Option Text :=
  (w.keptSink? keeper).map (·.className)

/-- The classes of the sinks that events were handed to in a step, if it returns. -/
def additionsIn (w : World) (s : Step) : List Text :=
  match (w.step s).1 with
  | .ok _ => (w.taken s).deliveries.filterMap fun e => (w.step s).2.sinkClass? e.1
  | .error _ => []

/-- The rejection that a step ends with, if it checks inputs of a draft. -/
def rejectionsIn (w : World) (s : Step) : List (Text × Text) :=
  if s.checks then rejectionOf (w.step s).1 else []

/-- The number of drafts that a step finalizes. -/
def finalizationsIn (w : World) (s : Step) : Nat := (w.step s).2.finalizedDrafts - w.finalizedDrafts

/-- What the steps of a run are noted for, one after another. -/
def collect {α : Type} (f : World → Step → List α) (w : World) : List Step → List α
  | [] => []
  | s :: rest => f w s ++ collect f (w.step s).2 rest

/-- What the steps of a run come to. -/
def sum (f : World → Step → Nat) (w : World) : List Step → Nat
  | [] => 0
  | s :: rest => f w s + sum f (w.step s).2 rest

/-- What a step finalizes, adds and rejects as far as entries are made of it. -/
def finalizationsLogged (w : World) (s : Step) : Nat :=
  if w.logging.makes (some .drafts) .info then w.finalizationsIn s else 0

@[inherit_doc finalizationsLogged]
def additionsLogged (w : World) (s : Step) : List Text :=
  if w.logging.makes (some .services) .debug then w.additionsIn s else []

@[inherit_doc finalizationsLogged]
def rejectionsLogged (w : World) (s : Step) : List (Text × Text) :=
  if w.logging.makes (some .drafts) .warning then w.rejectionsIn s else []

/--
By so much the counts of two worlds differ, wherever they are kept; those of entries only as far as
entries are made.
-/
structure Booked (w : World) (n : Nat) (sinks : List Text) (refusals : List (Text × Text))
    (w' : World) : Prop where
  finalized : w'.finalizedDrafts = w.finalizedDrafts + n
  created : w'.metrics.created = w.metrics.created + n
  createdEntries : w'.journal.countP Entry.isCreated = w.journal.countP Entry.isCreated +
    if w.logging.makes (some .drafts) .info then n else 0
  added : ∀ sink, w'.metrics.added.count sink = w.metrics.added.count sink + sinks.count sink
  total : w'.metrics.added.total = w.metrics.added.total + sinks.length
  addedEntries : w'.journal.countP Entry.isAdded = w.journal.countP Entry.isAdded +
    if w.logging.makes (some .services) .debug then sinks.length else 0
  rejections : ∀ k,
    w'.metrics.rejections.count k = w.metrics.rejections.count k + refusals.count k
  rejectedEntries : ∀ k, (w'.journal.filterMap Entry.rejection?).count k =
    (w.journal.filterMap Entry.rejection?).count k +
      if w.logging.makes (some .drafts) .warning then refusals.count k else 0

variable {w w' w'' : World} {n n' : Nat} {sinks sinks' : List Text}
  {refusals refusals' : List (Text × Text)}

theorem Booked.trans (hformats : w'.logging.Agrees w.logging) (h : Booked w n sinks refusals w')
    (h' : Booked w' n' sinks' refusals' w'') :
    Booked w (n + n') (sinks ++ sinks') (refusals ++ refusals') w'' where
  finalized := by rw [h'.finalized, h.finalized, Nat.add_assoc]
  created := by rw [h'.created, h.created, Nat.add_assoc]
  createdEntries := by
    rw [h'.createdEntries, h.createdEntries, hformats.makes]
    split <;> omega
  added sink := by rw [h'.added, h.added, List.count_append, Nat.add_assoc]
  total := by rw [h'.total, h.total, List.length_append, Nat.add_assoc]
  addedEntries := by
    rw [h'.addedEntries, h.addedEntries, hformats.makes, List.length_append]
    split <;> omega
  rejections k := by rw [h'.rejections, h.rejections, List.count_append, Nat.add_assoc]
  rejectedEntries k := by
    rw [h'.rejectedEntries, h.rejectedEntries, hformats.makes, List.count_append]
    split <;> omega

/-- Nothing is counted where drafts and metrics stay and only background entries are written. -/
theorem Booked.of_background (hdrafts : w'.finalizedDrafts = w.finalizedDrafts)
    (hmetrics : w'.metrics = w.metrics) (hjournal : w.Murmured w') : Booked w 0 [] [] w' := by
  obtain ⟨entries, hjournal, hentries⟩ := hjournal
  obtain ⟨hcreated, hadded, hrejected⟩ := Entry.counts_of_isBackground hentries
  constructor <;>
    simp [hdrafts, hmetrics, hjournal, List.countP_append, hcreated, hadded, hrejected]

theorem Booked.of_same (hdrafts : w'.finalizedDrafts = w.finalizedDrafts)
    (hmetrics : w'.metrics = w.metrics) (hjournal : w'.journal = w.journal) :
    Booked w 0 [] [] w' := .of_background hdrafts hmetrics (.of_same hjournal)

theorem Booked.refl (w : World) : Booked w 0 [] [] w := .of_same rfl rfl rfl

theorem booked_of_apart {α : Type} {a : Action α} (ha : Apart a) {w : World}
    (hjournal : w.Murmured (Action.run a w).2) : Booked w 0 [] [] (Action.run a w).2 := by
  refine .of_background ?_ (ha.metrics w) hjournal
  rw [finalizedDrafts, ha.drafts w, finalizedDrafts]

/-! ## Entries -/

section

variable (w : World) {e : Entry} {p : Entry → Bool}

/-- An entry counts if it is made. -/
theorem countP_logged (hp : p e = true) :
    (w.logged e).journal.countP p =
      w.journal.countP p + if w.logging.makes e.logger? e.severity then 1 else 0 := by
  unfold logged Logging.made
  split <;> simp [List.countP_append, hp]

theorem countP_logged_of_not (hp : p e = false) :
    (w.logged e).journal.countP p = w.journal.countP p := by
  unfold logged Logging.made
  split <;> simp [List.countP_append, hp]

theorem count_rejections_logged {rejected : Text × Text} (he : e.rejection? = some rejected)
    (k : Text × Text) :
    ((w.logged e).journal.filterMap Entry.rejection?).count k =
      (w.journal.filterMap Entry.rejection?).count k +
        if w.logging.makes e.logger? e.severity then [rejected].count k else 0 := by
  unfold logged Logging.made
  split <;> simp [List.count_append, he]

theorem rejections_logged_of_none (he : e.rejection? = none) :
    (w.logged e).journal.filterMap Entry.rejection? = w.journal.filterMap Entry.rejection? := by
  unfold logged Logging.made
  split <;> simp [he]

end

/-! ## Drafts -/

theorem finalizedDrafts_withDraft (w : World) (id : DraftId) (d : Draft) :
    (w.withDraft id d).finalizedDrafts + ((w.drafts.get? id).toList).countP Draft.finalized =
      w.finalizedDrafts + [d].countP Draft.finalized :=
  Registry.countP_values_put ..

theorem booked_reported (w : World) (r : Rejection) :
    Booked w 0 [] [(r.field.key, r.kind.name)] (w.reported r) := by
  let e : Entry := .validationFailed r.field r.kind r.message
  have hcreated : (w.logged e).journal.countP Entry.isCreated = w.journal.countP Entry.isCreated :=
    w.countP_logged_of_not rfl
  have hadded : (w.logged e).journal.countP Entry.isAdded = w.journal.countP Entry.isAdded :=
    w.countP_logged_of_not rfl
  constructor
  case finalized => rfl
  case created => rfl
  case total => rfl
  case added => exact fun sink => rfl
  case rejections =>
    intro k
    refine (w.metrics.rejections.count_add ..).trans ?_
    simp [List.count_singleton]
  case createdEntries => exact hcreated.trans (by simp)
  case addedEntries => exact hadded.trans (by simp)
  case rejectedEntries => exact w.count_rejections_logged rfl

theorem booked_afterReport {α : Type} (w : World) (e : Except Fault α) :
    Booked w 0 [] (rejectionOf e) (w.afterReport e) := by
  cases e with
  | ok x => exact .refl w
  | error fault =>
    cases fault with
    | rejected r => exact w.booked_reported r
    | _ => exact .refl w

theorem booked_committed {id : DraftId} {d : Draft} (hd : w.drafts.get? id = some d)
    (hopen : d.finalized = false) (r : EventRecord) :
    Booked w 1 [] [] (w.committed id d r) := by
  have hcount := w.finalizedDrafts_withDraft id { d with finalized := true }
  rw [hd] at hcount
  let e : Entry := .eventCreated r.eventId r.eventName
  have hadded : (w.logged e).journal.countP Entry.isAdded = w.journal.countP Entry.isAdded :=
    w.countP_logged_of_not rfl
  have hrejected : (w.logged e).journal.filterMap Entry.rejection? =
      w.journal.filterMap Entry.rejection? := w.rejections_logged_of_none rfl
  constructor
  case finalized =>
    have hfinalized : (w.committed id d r).finalizedDrafts =
        (w.withDraft id { d with finalized := true }).finalizedDrafts := rfl
    simpa [hopen, hfinalized] using hcount
  case created => simp [committed, Metrics.recordCreated, Metrics.recordMagnitude]
  case total => rfl
  case added => exact fun sink => rfl
  case rejections => exact fun k => rfl
  case createdEntries => exact w.countP_logged rfl
  case addedEntries => exact hadded.trans (by simp)
  case rejectedEntries => exact fun k => (congrArg (List.count k) hrejected).trans (by simp)

/-- Opening a draft and storing what is set leaves the number of finalized drafts as it is. -/
theorem booked_withDraft {id : DraftId} {d : Draft}
    (h : ∀ d' ∈ w.drafts.get? id, d'.finalized = d.finalized)
    (hnone : w.drafts.get? id = none → d.finalized = false) :
    Booked w 0 [] [] (w.withDraft id d) := by
  refine .of_same ?_ rfl rfl
  have hcount := w.finalizedDrafts_withDraft id d
  cases hd : w.drafts.get? id with
  | none =>
    rw [hd] at hcount
    simpa [hnone hd] using hcount
  | some d' =>
    rw [hd] at hcount
    simpa [List.countP_singleton, h d' hd] using hcount

theorem rejectionOf_checkHandles (w : World) (id : DraftId) (service : Option ServiceId)
    (resolver : Option SourcesId) : rejectionOf (w.checkHandles id service resolver) = [] := by
  unfold checkHandles
  split
  · split
    · split <;> rfl
    · rfl
  · rfl

theorem booked_step_openDraft (w : World) (id : DraftId) (name : Datum)
    (service : Option ServiceId) (resolver : Option SourcesId) :
    Booked w 0 [] (rejectionOf (w.step (.openDraft id name service resolver)).1)
      (w.step (.openDraft id name service resolver)).2 := by
  have hquiet := w.rejectionOf_checkHandles id service resolver
  rw [step_openDraft]
  cases hcheck : w.checkHandles id service resolver with
  | error fault =>
    have hnone : rejectionOf (.error fault : Except Fault Outcome) = [] := by
      rw [hcheck] at hquiet
      exact hquiet
    dsimp only
    rw [hnone]
    exact .refl w
  | ok _ =>
    have hfree := get?_eq_none_of_checkHandles hcheck
    dsimp only
    cases hname : Draft.ofName name service resolver with
    | ok d =>
      obtain ⟨-, -, -, -, hopen, -⟩ := Draft.ofName_eq_ok_iff.mp hname
      exact booked_withDraft (by simp [hfree]) fun _ => hopen
    | error fault => exact w.booked_afterReport (.error fault : Except Fault Draft)

theorem booked_of_write? (w : World) {s : Step} {id : DraftId} {write : Except Fault Draft.Write}
    (hs : s.write? = some (id, write)) :
    Booked w 0 [] (rejectionOf (w.step s).1) (w.step s).2 := by
  rw [w.step_of_write? hs]
  cases hd : w.drafts.get? id with
  | none => exact .refl w
  | some d =>
    dsimp only
    cases hput : d.put write with
    | error fault => exact w.booked_afterReport (.error fault : Except Fault Draft)
    | ok d' =>
      obtain ⟨-, x, -, rfl⟩ := Draft.put_eq_ok_iff.mp hput
      exact booked_withDraft (by simp [hd]) (by simp [hd])

/-! ## Events -/

/-- Creating an event counts it if it ends well, and counts nothing else. -/
theorem booked_create (w : World) (id : DraftId) :
    (∃ n, Booked w n [] [] (Action.run (create id) w).2) ∧
      (Action.run (create id) w).2.logging.Agrees w.logging := by
  cases hd : w.drafts.get? id with
  | none =>
    rw [run_create_none w hd]
    exact ⟨⟨0, .refl w⟩, .refl _⟩
  | some d =>
    cases hopen : d.finalized with
    | true =>
      rw [run_create_finalized w hd hopen]
      exact ⟨⟨0, .refl w⟩, .refl _⟩
    | false =>
      have hmurmurs := murmurs_attributionOf d
      have hquiet := booked_of_apart (apart_attributionOf d) (hmurmurs.journal w)
      have hformats := hmurmurs.formats w
      have hdrafts := (apart_attributionOf d).drafts w
      rw [run_create w hd hopen]
      generalize Action.run (attributionOf d) w = result at hquiet hformats hdrafts ⊢
      obtain ⟨fault | a, w'⟩ := result
      · exact ⟨⟨0, hquiet⟩, hformats⟩
      · dsimp only at hquiet hformats hdrafts ⊢
        split
        · exact ⟨⟨0, hquiet⟩, hformats⟩
        · exact ⟨⟨1, hquiet.trans hformats (booked_committed (hdrafts ▸ hd) hopen _)⟩,
            (w'.logging.agrees_use _).trans hformats⟩

theorem className_take (sink : Sink) (r : EventRecord) :
    (sink.take r).className = sink.className := by
  cases sink <;> rfl

/-- What a sink reports is not counted. -/
theorem uncounted_report (sink : Sink) (r : EventRecord) (sessionId : Datum) :
    (sink.report r sessionId).isCreated = false ∧ (sink.report r sessionId).isAdded = false ∧
      (sink.report r sessionId).rejection? = none := by
  cases sink <;> exact ⟨rfl, rfl, rfl⟩

theorem booked_acknowledged (w : World) (sink : Sink) {e : Entry} (r : EventRecord)
    (he : e.isCreated = false ∧ e.isAdded = false ∧ e.rejection? = none) :
    Booked w 0 [sink.className] [] (w.acknowledged sink e r) := by
  obtain ⟨hcreated, hadded, hrejected⟩ := he
  let e' : Entry := .eventAdded r.eventId r.eventName
  have hcreated' : ((w.logged e).logged e').journal.countP Entry.isCreated =
      w.journal.countP Entry.isCreated :=
    ((w.logged e).countP_logged_of_not rfl).trans (w.countP_logged_of_not hcreated)
  have hadded' : ((w.logged e).logged e').journal.countP Entry.isAdded = _ :=
    (w.logged e).countP_logged rfl
  have hrejected' : ((w.logged e).logged e').journal.filterMap Entry.rejection? =
      w.journal.filterMap Entry.rejection? :=
    ((w.logged e).rejections_logged_of_none rfl).trans (w.rejections_logged_of_none hrejected)
  have hmakes : (w.logged e).logging.makes e'.logger? e'.severity =
      w.logging.makes (some .services) .debug := (w.logging.agrees_use e).makes ..
  constructor
  case finalized => rfl
  case created => rfl
  case rejections => exact fun k => rfl
  case added =>
    intro sink'
    refine (w.metrics.added.count_add ..).trans ?_
    simp [List.count_singleton]
  case total => exact Tally.total_add ..
  case addedEntries =>
    rw [w.countP_logged_of_not hadded, hmakes] at hadded'
    exact hadded'
  case createdEntries => exact hcreated'.trans (by simp)
  case rejectedEntries => exact fun k => (congrArg (List.count k) hrejected').trans (by simp)

/-- A hand-over that returns is counted for the class of the sink, one that fails is not. -/
theorem booked_submit (w : World) (id : ServiceId) (r : EventRecord) :
    match Action.run (submit id r) w with
    | (.ok _, w') => ∃ keeper sink, w'.sinkClass? keeper = some sink ∧
        Handed w [(keeper, r)] w' ∧ Booked w 0 [sink] [] w'
    | (.error _, w') => Booked w 0 [] [] w' := by
  cases hsink : w.sink? id with
  | none =>
    rw [run_submit_none w hsink]
    exact .refl w
  | some found =>
    obtain ⟨keeper, sink⟩ := found
    obtain ⟨service, hs, -, hkept⟩ := sink?_eq_some_iff.mp hsink
    obtain ⟨services, heq⟩ := w.delivered_eq keeper sink r
    have hdelivered : Booked w 0 [] [] (w.delivered keeper sink r) := by
      rw [heq]
      exact .of_same rfl rfl rfl
    have huncounted := uncounted_report sink r service.sessionId
    have hhanded := handed_delivered hkept r
    rw [run_submit w hs hsink]
    cases w.logging.check (sink.report r service.sessionId) with
    | error fault =>
      rw [heq]
      exact .of_same rfl rfl rfl
    | ok _ =>
      have hsame : (w.delivered keeper sink r).logging.Agrees w.logging := by
        rw [heq]
        exact .refl _
      have hclass : (w.delivered keeper sink r).sinkClass? keeper = some sink.className := by
        rw [sinkClass?, hhanded.keptSink? hkept, handedTo_self]
        exact congrArg some (className_take sink r)
      exact ⟨keeper, sink.className, hclass, hhanded.trans (.of_eq rfl rfl),
        hdelivered.trans hsame (booked_acknowledged _ _ r huncounted)⟩

theorem booked_handOver (w : World) {id : DraftId} {d : Draft} (hd : w.drafts.get? id = some d)
    (r : EventRecord) :
    match Action.run (handOver id r) w with
    | (.ok _, w') => ∃ keeper sink, w'.sinkClass? keeper = some sink ∧
        Handed w [(keeper, r)] w' ∧ Booked w 0 [sink] [] w'
    | (.error _, w') => Booked w 0 [] [] w' := by
  have hquiet := booked_of_apart (apart_serviceOf d) ((murmurs_serviceOf d).journal w)
  have hformats := (murmurs_serviceOf d).formats w
  have hhanded := handed_serviceOf w d
  rw [run_handOver w hd]
  generalize Action.run (serviceOf d) w = result at hquiet hformats hhanded ⊢
  obtain ⟨fault | service, w₁⟩ := result
  · exact hquiet
  · have hsubmit := w₁.booked_submit service r
    dsimp only at hquiet hformats hhanded hsubmit ⊢
    generalize Action.run (submit service r) w₁ = result at hsubmit ⊢
    obtain ⟨fault | _, w'⟩ := result
    · exact hquiet.trans hformats hsubmit
    · obtain ⟨keeper, sink, hclass, htrace, hbooked⟩ := hsubmit
      exact ⟨keeper, sink, hclass, hhanded.trans htrace, hquiet.trans hformats hbooked⟩

/-! ## Steps -/

theorem additionsIn_of_error {s : Step} {fault : Fault} (h : (w.step s).1 = .error fault) :
    w.additionsIn s = [] := by
  rw [additionsIn, h]

theorem additionsIn_of_handed {s : Step} {trace : List (ServiceId × EventRecord)} {o : Outcome}
    (h : (w.step s).1 = .ok o) (hhanded : Handed w trace (w.step s).2) :
    w.additionsIn s = trace.filterMap fun e => (w.step s).2.sinkClass? e.1 := by
  have htrace : (w.taken s).deliveries = trace := Taken.deliveries_of_handed hhanded
  rw [additionsIn, h, ← htrace]

theorem additionsIn_of_delivers {s : Step} (h : s.delivers = false) : w.additionsIn s = [] := by
  have hchanges := w.changes_step s
  rw [h] at hchanges
  cases hstep : (w.step s).1 with
  | error fault => exact additionsIn_of_error hstep
  | ok o => exact additionsIn_of_handed hstep hchanges.handed_nil

theorem booked_step_submit (w : World) (id : ServiceId) (r : EventRecord) :
    Booked w 0 (w.additionsIn (.submit id r)) [] (w.step (.submit id r)).2 := by
  have hstep := w.step_submit id r
  have hsubmit := w.booked_submit id r
  cases hrun : Action.run (submit id r) w with
  | mk result w' =>
    rw [hrun] at hstep hsubmit
    cases result with
    | error fault =>
      rw [additionsIn_of_error (congrArg Prod.fst hstep), hstep]
      exact hsubmit
    | ok _ =>
      obtain ⟨keeper, sink, hclass, hhanded, hbooked⟩ := hsubmit
      have hafter : (w.step (.submit id r)).2 = w' := congrArg Prod.snd hstep
      rw [additionsIn_of_handed (congrArg Prod.fst hstep) (hafter ▸ hhanded), hafter]
      simpa [hclass] using hbooked

theorem booked_step_add (w : World) (id : DraftId) :
    ∃ n, Booked w n (w.additionsIn (.add id)) [] (w.step (.add id)).2 := by
  have hstep := w.step_add id
  have hhanded := handed_create w id
  obtain ⟨⟨n, hcreated⟩, hformats⟩ := w.booked_create id
  refine ⟨n, ?_⟩
  rw [run_add] at hstep
  cases hcreate : Action.run (create id) w with
  | mk result w₁ =>
    rw [hcreate] at hstep hhanded hcreated hformats
    cases result with
    | error fault =>
      rw [additionsIn_of_error (congrArg Prod.fst hstep), hstep]
      exact hcreated
    | ok x =>
      obtain ⟨d, hd, -⟩ := isFinalized_of_run_create hcreate
      have hhand := w₁.booked_handOver hd x.2
      dsimp only at hstep hhanded hcreated
      cases hrun : Action.run (handOver id x.2) w₁ with
      | mk result w' =>
        rw [hrun] at hstep hhand
        cases result with
        | error fault =>
          rw [additionsIn_of_error (congrArg Prod.fst hstep), hstep]
          exact hcreated.trans hformats hhand
        | ok _ =>
          obtain ⟨keeper, sink, hclass, htrace, hbooked⟩ := hhand
          have hafter : (w.step (.add id)).2 = w' := congrArg Prod.snd hstep
          have hall : Handed w [(keeper, x.2)] w' := hhanded.trans htrace
          rw [additionsIn_of_handed (congrArg Prod.fst hstep) (hafter ▸ hall), hafter]
          simpa [hclass] using hcreated.trans hformats hbooked

theorem booked_makeRecord (w : World) (fields : RecordFields) :
    Booked w 0 [] [] (w.step (.makeRecord fields)).2 := by
  have hrun : (w.step (.makeRecord fields)).2 = w ∨
      ∃ r, (w.step (.makeRecord fields)).2 = { w with records := w.records ++ [r] } := by
    let make freshId now := (EventRecord.ofFields freshId now fields).mapError Fault.invalid
    have hstamp : Action.run (stamp make) w =
      (make (w.host.eventId w.records.length) (w.host.clock w.records.length), w) := rfl
    cases hmake : make (w.host.eventId w.records.length) (w.host.clock w.records.length) with
    | error fault =>
      rw [hmake] at hstamp
      have hfailed : Action.run (makeRecord fields) w = (.error fault, w) :=
        run_bind_error _ hstamp
      exact .inl (congrArg Prod.snd (run_bind_error _ hfailed))
    | ok r =>
      rw [hmake] at hstamp
      have hmade : Action.run (makeRecord fields) w =
          (.ok (w.records.length, r), { w with records := w.records ++ [r] }) :=
        run_bind_ok _ hstamp
      exact .inr ⟨r, congrArg Prod.snd (run_bind_ok _ hmade)⟩
  rcases hrun with hrun | ⟨r, hrun⟩
  · rw [hrun]
    exact .refl w
  · rw [hrun]
    exact .of_same rfl rfl rfl

theorem exists_booked_step (w : World) (s : Step) :
    ∃ n, Booked w n (w.additionsIn s) (w.rejectionsIn s) (w.step s).2 := by
  -- A step ends in its answer, so the operation before decides.
  have hquiet {α : Type} {a : Action α} (ha : Apart a) (hmurmurs : Murmurs a) (f : α → Outcome) :
      Booked w 0 [] [] (Action.run (a >>= fun x => pure (f x)) w).2 :=
    booked_of_apart (ha.bind fun _ => .pure _) ((hmurmurs.bind fun _ => .pure _).journal w)
  -- What hands nothing over and checks nothing has no part in two of the books.
  have hnone (hdelivers : s.delivers = false) (hchecks : s.checks = false) {n : Nat}
      (h : Booked w n [] [] (w.step s).2) :
      ∃ n, Booked w n (w.additionsIn s) (w.rejectionsIn s) (w.step s).2 := by
    rw [additionsIn_of_delivers hdelivers, rejectionsIn, hchecks]
    exact ⟨n, h⟩
  have hchecked (hdelivers : s.delivers = false) (hchecks : s.checks = true)
      (h : Booked w 0 [] (rejectionOf (w.step s).1) (w.step s).2) :
      ∃ n, Booked w n (w.additionsIn s) (w.rejectionsIn s) (w.step s).2 := by
    rw [additionsIn_of_delivers hdelivers, rejectionsIn, hchecks]
    exact ⟨0, h⟩
  cases s with
  | setVariables => exact hnone rfl rfl (.of_same rfl rfl rfl)
  | reloadSettings => exact hnone rfl rfl (.of_same rfl rfl rfl)
  | readSettings => exact hnone rfl rfl (hquiet apart_settings murmurs_settings _)
  | openService => exact hnone rfl rfl (hquiet (apart_openService ..) (murmurs_openService ..) _)
  | share => exact hnone rfl rfl (hquiet (apart_share _) (murmurs_share _) _)
  | lookUpShared => exact hnone rfl rfl (hquiet apart_sharedService murmurs_sharedService _)
  | start id sink session push =>
    have hstart := w.step_start id sink session push
    exact hnone rfl rfl (congrArg Prod.snd hstart ▸ booked_of_apart (apart_start ..)
      (murmured_start id sink session push w))
  | makeRecord fields => exact hnone rfl rfl (w.booked_makeRecord fields)
  | openResolver => exact hnone rfl rfl (hquiet (apart_openResolver ..) (murmurs_openResolver ..) _)
  | openDraft => exact hchecked rfl rfl (w.booked_step_openDraft ..)
  | setTransactionId => exact hchecked rfl rfl (w.booked_of_write? rfl)
  | setInteraction => exact hchecked rfl rfl (w.booked_of_write? rfl)
  | setInteractionFromMessage id m =>
    refine hchecked rfl rfl ?_
    cases hs : (Step.setInteractionFromMessage id m).write? with
    | some call => exact w.booked_of_write? hs
    | none =>
      obtain ⟨fault, hfault⟩ := Step.exists_fault_of_write? hs
      obtain ⟨f, rfl⟩ := MessageArgument.exists_failure_of_messageId hfault
      rw [w.step_of_messageId_error hfault]
      cases f <;> cases w.drafts.get? id <;> exact .refl w
  | setEventValue => exact hchecked rfl rfl (w.booked_of_write? rfl)
  | setAttribution => exact hchecked rfl rfl (w.booked_of_write? rfl)
  | create id =>
    obtain ⟨⟨n, hcreated⟩, -⟩ := w.booked_create id
    exact hnone rfl rfl (congrArg Prod.snd (w.step_create id) ▸ hcreated)
  | add id => exact w.booked_step_add id
  | setConversion => exact hnone rfl rfl (hquiet (apart_setSendId ..) (murmurs_setSendId ..) _)
  | setLastReceived => exact hnone rfl rfl (hquiet (apart_setSendId ..) (murmurs_setSendId ..) _)
  | sendIds => exact hnone rfl rfl (hquiet (apart_sendIds _) (murmurs_sendIds _) _)
  | resolve => exact hnone rfl rfl (hquiet (apart_resolve ..) (murmurs_resolve ..) _)
  | submit id r => exact ⟨0, w.booked_step_submit id r⟩
  | recent => exact hnone rfl rfl (hquiet (apart_recent ..) (murmurs_recent ..) _)
  | checkHealth => exact hnone rfl rfl (hquiet (apart_isHealthy _) (murmurs_isHealthy _) _)

/-- A step counts what it ends with, and counts it everywhere. -/
theorem booked_step (w : World) (s : Step) :
    Booked w (w.finalizationsIn s) (w.additionsIn s) (w.rejectionsIn s) (w.step s).2 := by
  obtain ⟨n, hbooked⟩ := w.exists_booked_step s
  have hn : w.finalizationsIn s = n := by
    rw [finalizationsIn, hbooked.finalized, Nat.add_sub_cancel_left]
  rwa [hn]

/-! ## Runs -/

/-- What every step adds, a run adds up. -/
theorem run_eq_add_sum (c : World → Nat) {f : World → Step → Nat}
    (h : ∀ w s, c (w.step s).2 = c w + f w s) (w : World) (steps : List Step) :
    c (w.run steps) = c w + w.sum f steps := by
  induction steps generalizing w with
  | nil => rfl
  | cons s steps ih =>
    have hrun : c (w.run (s :: steps)) = _ := ih (w.step s).2
    rw [hrun, h, sum, Nat.add_assoc]

theorem count_collect {α : Type} [BEq α] (f : World → Step → List α) (w : World)
    (steps : List Step) (x : α) :
    (w.collect f steps).count x = w.sum (fun w s => (f w s).count x) steps := by
  induction steps generalizing w with
  | nil => rfl
  | cons s steps ih => rw [collect, sum, List.count_append, ih]

theorem length_collect {α : Type} (f : World → Step → List α) (w : World) (steps : List Step) :
    (w.collect f steps).length = w.sum (fun w s => (f w s).length) steps := by
  induction steps generalizing w with
  | nil => rfl
  | cons s steps ih => rw [collect, sum, List.length_append, ih]

theorem sum_congr {f g : World → Step → Nat} {steps : List Step}
    (h : Along (fun w s => f w s = g w s) w steps) : w.sum f steps = w.sum g steps := by
  induction steps generalizing w with
  | nil => rfl
  | cons s steps ih =>
    obtain ⟨hfirst, hrest⟩ := along_cons.mp h
    rw [sum, sum, hfirst, ih hrest]

theorem collect_congr {α : Type} {f g : World → Step → List α} {steps : List Step}
    (h : Along (fun w s => f w s = g w s) w steps) : w.collect f steps = w.collect g steps := by
  induction steps generalizing w with
  | nil => rfl
  | cons s steps ih =>
    obtain ⟨hfirst, hrest⟩ := along_cons.mp h
    rw [collect, collect, hfirst, ih hrest]

/-- Where all entries are made, they tell of everything that happens. -/
theorem logged_eq_of_makes {steps : List Step}
    (h : Along (fun w _ => ∀ logger severity, w.logging.makes logger severity = true) w steps) :
    w.sum finalizationsLogged steps = w.sum finalizationsIn steps ∧
      w.collect additionsLogged steps = w.collect additionsIn steps ∧
      w.collect rejectionsLogged steps = w.collect rejectionsIn steps :=
  ⟨sum_congr fun earlier s later heq => if_pos (h earlier s later heq ..),
    collect_congr fun earlier s later heq => if_pos (h earlier s later heq ..),
    collect_congr fun earlier s later heq => if_pos (h earlier s later heq ..)⟩

/-- A step that fails otherwise than by a rejection is counted neither as added nor as rejected. -/
theorem metrics_step_of_error {s : Step} {fault : Fault} (h : (w.step s).1 = .error fault)
    (hfault : ∀ r, fault ≠ .rejected r) :
    (∀ sink, (w.step s).2.metrics.added.count sink = w.metrics.added.count sink) ∧
      ∀ k, (w.step s).2.metrics.rejections.count k = w.metrics.rejections.count k := by
  have hnone : w.rejectionsIn s = [] := by
    rw [rejectionsIn, h]
    cases fault with
    | rejected r => exact absurd rfl (hfault r)
    | _ => exact ite_self _
  have hbooked := w.booked_step s
  rw [additionsIn_of_error h, hnone] at hbooked
  exact ⟨hbooked.added, hbooked.rejections⟩

/--
After any run the metrics agree with what happened: as many events are counted as created as there
are finalized drafts, for each class of sink as many as added as hand-overs to such a sink have
returned, and for each field and class as many rejections as constructors and setters of drafts have
ended with. A step that fails in any other way is counted as none of the latter two. The journal
tells of each of these if it happened while the logger made such entries, so of all of them if every
entry was made all along.
-/
theorem counts_of_run (host : Host) (environment : Environment) (steps : List Step) :
    let w₀ := fresh host environment
    let w := w₀.run steps
    let additions := w₀.collect additionsIn steps
    let rejections := w₀.collect rejectionsIn steps
    w.metrics.created = w.finalizedDrafts ∧
    (∀ sink, w.metrics.added.count sink = additions.count sink) ∧
    w.metrics.added.total = additions.length ∧
    (∀ k, w.metrics.rejections.count k = rejections.count k) ∧
    w.journal.countP Entry.isCreated = w₀.sum finalizationsLogged steps ∧
    w.journal.countP Entry.isAdded = (w₀.collect additionsLogged steps).length ∧
    (∀ k, (w.journal.filterMap Entry.rejection?).count k =
      (w₀.collect rejectionsLogged steps).count k) ∧
    (Along (fun v _ => ∀ logger severity, v.logging.makes logger severity = true) w₀ steps →
      w.journal.countP Entry.isCreated = w.finalizedDrafts ∧
      w.journal.countP Entry.isAdded = additions.length ∧
      ∀ k, (w.journal.filterMap Entry.rejection?).count k = rejections.count k) ∧
    ∀ (v : World) s fault, (v.step s).1 = .error fault → (∀ r, fault ≠ .rejected r) →
      (∀ sink, (v.step s).2.metrics.added.count sink = v.metrics.added.count sink) ∧
      ∀ k, (v.step s).2.metrics.rejections.count k = v.metrics.rejections.count k := by
  intro w₀ w additions rejections
  have hsum {f : World → Step → Nat} (c : World → Nat) (h₀ : c w₀ = 0)
      (h : ∀ v s, c (v.step s).2 = c v + f v s) : c w = w₀.sum f steps := by
    rw [run_eq_add_sum c h w₀ steps, h₀, Nat.zero_add]
  have hfinalized : w.finalizedDrafts = w₀.sum finalizationsIn steps :=
    hsum _ rfl fun v s => (v.booked_step s).finalized
  have hcreated : w.metrics.created = w₀.sum finalizationsIn steps :=
    hsum (·.metrics.created) rfl fun v s => (v.booked_step s).created
  have hadded (sink : Text) : w.metrics.added.count sink = additions.count sink := by
    rw [count_collect]
    exact hsum (·.metrics.added.count sink) rfl fun v s => (v.booked_step s).added sink
  have htotal : w.metrics.added.total = additions.length := by
    rw [length_collect]
    exact hsum (·.metrics.added.total) rfl fun v s => (v.booked_step s).total
  have hrejected (k : Text × Text) : w.metrics.rejections.count k = rejections.count k := by
    rw [count_collect]
    exact hsum (·.metrics.rejections.count k) rfl fun v s => (v.booked_step s).rejections k
  have hcreatedEntries : w.journal.countP Entry.isCreated = w₀.sum finalizationsLogged steps :=
    hsum (·.journal.countP Entry.isCreated) rfl fun v s => (v.booked_step s).createdEntries
  have haddedEntries :
      w.journal.countP Entry.isAdded = (w₀.collect additionsLogged steps).length := by
    rw [length_collect]
    refine hsum (·.journal.countP Entry.isAdded) rfl fun v s => ?_
    rw [(v.booked_step s).addedEntries, additionsLogged, apply_ite List.length, List.length_nil]
  have hrejectedEntries (k : Text × Text) : (w.journal.filterMap Entry.rejection?).count k =
      (w₀.collect rejectionsLogged steps).count k := by
    rw [count_collect]
    refine hsum (fun v => (v.journal.filterMap Entry.rejection?).count k) rfl fun v s => ?_
    rw [(v.booked_step s).rejectedEntries, rejectionsLogged, apply_ite (List.count k),
      List.count_nil]
  refine ⟨hcreated.trans hfinalized.symm, hadded, htotal, hrejected, hcreatedEntries,
    haddedEntries, hrejectedEntries, fun hmakes => ?_, fun v s fault h hfault =>
      metrics_step_of_error h hfault⟩
  obtain ⟨hsame, hsame', hsame''⟩ := logged_eq_of_makes hmakes
  exact ⟨by rw [hcreatedEntries, hsame, hfinalized], by rw [haddedEntries, hsame'],
    fun k => by rw [hrejectedEntries, hsame'']⟩

/-- A rejected name, a rejected value, an id that is no text, and an event that is added. -/
def mixedSteps : List Step :=
  [.openService (.named 0) (some .log) none none (.text "session"),
    .openDraft ⟨0⟩ (.text "purchase") (some (.named 0)) none,
    .openDraft ⟨1⟩ .null none none,
    .setEventValue ⟨0⟩ (.decimal (.infinity false)),
    .setTransactionId ⟨0⟩ (.int 7),
    .add ⟨0⟩]

/-- A host whose every id and every moment is the same. -/
def stillHost : Host := ⟨fun _ => "event", fun _ => "session", fun _ => Binary64.zero false⟩

/-- Adding the event a second time fails, and nothing is counted again. -/
theorem counts_of_run_mixedSteps :
    let w := (fresh stillHost ⟨[], none⟩).run mixedSteps
    w.metrics.created = 1 ∧ w.metrics.added.count "LogSink" = 1 ∧
      w.metrics.rejections.count ("event_name", "InvalidField") = 1 ∧
      w.metrics.rejections.count ("event_value", "NotANumber") = 1 ∧
      w.metrics.rejections.count ("transaction_id", "InvalidField") = 0 ∧
      (w.step (.add ⟨0⟩)).2.metrics.added.count "LogSink" = 1 := by
  obtain ⟨hcreated, hadded, -, hrejections, -, -, -, -, hfailed⟩ :=
    counts_of_run stillHost ⟨[], none⟩ mixedSteps
  -- The counts are rewritten before anything runs: to compare two runs takes long.
  dsimp only
  refine ⟨?_, ?_, ?_, ?_, ?_, ?_⟩
  · rw [hcreated]
    rfl
  · rw [hadded]
    rfl
  · rw [hrejections]
    rfl
  · rw [hrejections]
    rfl
  · rw [hrejections]
    rfl
  · have hagain := (hfailed ((fresh stillHost ⟨[], none⟩).run mixedSteps) (.add ⟨0⟩) .finalized
      rfl nofun).1 "LogSink"
    rw [hagain, hadded]
    rfl

/-- A shared service at the usual level, and an event that is added to it. -/
def usualSteps : List Step :=
  [.start (.named 0) none none none, .openDraft ⟨0⟩ (.text "purchase") none none, .add ⟨0⟩]

/-- An event is added and counted, and no entry tells of it: the level is above that of the
entry. -/
theorem addition_without_entry :
    let w₀ := fresh stillHost ⟨[], none⟩
    let w := w₀.run usualSteps
    w₀.collect additionsIn usualSteps = ["InMemorySink"] ∧
      w.metrics.added.count "InMemorySink" = 1 ∧ w.journal.countP Entry.isAdded = 0 := by
  decide +kernel

end World

end Telemetry
