import Telemetry.Proofs.Draft.Valid
import Telemetry.Proofs.LogLine
import Telemetry.Proofs.World.Apart

/-!
# What operations on drafts do

An equation for each operation on drafts, with all that it does to the world: `Action.run_report`,
`Action.run_edit_some`, `Action.run_openDraft`, `Action.run_create`. They rest on two facts. The
entries that these operations write can always be printed, so writing them never fails; and a run is
taken apart one operation at a time (`Action.run_bind_ok`, `Action.run_bind_eq_ok_iff`).
`World.step_of_write?` is the one equation for all five setters.
-/

namespace Telemetry

namespace World

variable (w : World)

/-- The world with a draft under a handle. -/
def withDraft (id : DraftId) (d : Draft) : World := { w with drafts := w.drafts.put id d }

/-- The world in which a rejection was logged and counted. -/
def reported (r : Rejection) : World :=
  { w.logged (.validationFailed r.field r.kind r.message) with
    metrics := w.metrics.recordRejection r.field.key r.kind.name }

/-- The world after a result was looked at: a rejection is reported, nothing else is. -/
def afterReport {α : Type} (e : Except Fault α) : World :=
  match e with
  | .error (.rejected r) => w.reported r
  | _ => w

/-- The world after questions were put to the sources at a place, which are other ones then. -/
def asked (place : SourcesId) (inquiries : List Inquiry) (s : Sources) : World :=
  let w := w.withSources place s
  { w with inquiries := w.inquiries ++ inquiries.map fun i => (place, i) }

/-- The world after the record of a draft was made. -/
def committed (id : DraftId) (d : Draft) (r : EventRecord) : World :=
  { w.logged (.eventCreated r.eventId r.eventName) with
    drafts := w.drafts.put id { d with finalized := true },
    metrics := w.metrics.recordCreated r.eventValue,
    records := w.records ++ [r] }

/-- The world after a sink took an event that was handed to it, before that is reported. -/
def delivered (keeper : ServiceId) (sink : Sink) (r : EventRecord) : World :=
  { w.withSink keeper (sink.take r) with deliveries := w.deliveries ++ [(keeper, r)] }

theorem withSink_eq (keeper : ServiceId) (sink : Sink) :
    ∃ services, w.withSink keeper sink = { w with services := services } := by
  unfold withSink
  cases w.services.get? keeper <;> exact ⟨_, rfl⟩

theorem delivered_eq (keeper : ServiceId) (sink : Sink) (r : EventRecord) :
    ∃ services, w.delivered keeper sink r =
      { w with services := services, deliveries := w.deliveries ++ [(keeper, r)] } := by
  obtain ⟨services, heq⟩ := w.withSink_eq keeper (sink.take r)
  exact ⟨services, by rw [delivered, heq]⟩

/-- The world after it was reported and counted that a sink took an event. -/
def acknowledged (sink : Sink) (entry : Entry) (r : EventRecord) : World :=
  { (w.logged entry).logged (.eventAdded r.eventId r.eventName) with
    metrics := w.metrics.recordAdded sink.className }

/-- The handles that a draft is opened with: its own is free, the others name something. -/
def checkHandles (id : DraftId) (service : Option ServiceId) (resolver : Option SourcesId) :
    Except Fault Unit :=
  if (w.drafts.get? id).isNone then
    if service.all fun s => (w.services.get? s).isSome then
      if resolver.all fun place => (w.sources? place).isSome then .ok () else .error .unknownHandle
    else .error .unknownHandle
  else .error .takenHandle

theorem get?_eq_none_of_checkHandles {w : World} {id : DraftId} {service : Option ServiceId}
    {resolver : Option SourcesId} (h : w.checkHandles id service resolver = .ok ()) :
    w.drafts.get? id = none := by
  unfold checkHandles at h
  split at h
  · next hfree => exact Option.isNone_iff_eq_none.mp hfree
  · cases h

theorem afterReport_drafts {α : Type} (e : Except Fault α) :
    (w.afterReport e).drafts = w.drafts := by
  unfold afterReport
  split <;> rfl

end World

namespace Action

/-! ## Runs, one operation after another -/

section

variable {α β : Type} {a : Action α} {w w' : World}

theorem run_bind_ok (f : α → Action β) {x : α} (h : run a w = (.ok x, w')) :
    run (a >>= f) w = run (f x) w' := by
  rw [run_bind, h]

theorem run_bind_error (f : α → Action β) {fault : Fault} (h : run a w = (.error fault, w')) :
    run (a >>= f) w = (.error fault, w') := by
  rw [run_bind, h]

/-- What two operations do together, of what each of them does where it is run. -/
theorem rel_run_bind {R : World → World → Prop} (htrans : ∀ {u v w : World}, R u v → R v w → R u w)
    {f : α → Action β} (ha : R w (run a w).2)
    (hf : ∀ x w', run a w = (.ok x, w') → R w' (run (f x) w').2) : R w (run (a >>= f) w).2 := by
  rw [run_bind]
  cases hrun : run a w with
  | mk result w' =>
    rw [hrun] at ha
    cases result with
    | error fault => exact ha
    | ok x => exact htrans ha (hf x w' hrun)

theorem run_expect_some (fault : Fault) {f : World → Option α} {x : α} (h : f w = some x) :
    run (expect fault f) w = (.ok x, w) := by
  simp [run, expect, h]

theorem run_expect_none (fault : Fault) {f : World → Option α} (h : f w = none) :
    run (expect fault f) w = (.error fault, w) := by
  simp [run, expect, h]

/-- Looking something up changes nothing. -/
theorem run_expect (fault : Fault) (f : World → Option α) (w : World) :
    run (expect fault f) w = ((f w).elim (.error fault) .ok, w) := by
  cases h : f w with
  | none => exact run_expect_none fault h
  | some x => exact run_expect_some fault h

theorem run_bind_eq_ok_iff {f : α → Action β} {y : β} :
    run (a >>= f) w = (.ok y, w') ↔ ∃ x w₁, run a w = (.ok x, w₁) ∧ run (f x) w₁ = (.ok y, w') := by
  rw [run_bind]
  rcases run a w with ⟨fault | x, w₁⟩ <;> simp

/-- An answer that is made of the result does nothing. -/
theorem run_bind_pure (f : α → β) :
    run (a >>= fun x => pure (f x)) w = ((run a w).1.map f, (run a w).2) := by
  rw [run_bind]
  rcases run a w with ⟨fault | x, w₁⟩ <;> rfl

theorem run_expect_eq_ok_iff {fault : Fault} {f : World → Option α} {x : α} :
    run (expect fault f) w = (.ok x, w') ↔ f w = some x ∧ w' = w := by
  cases h : f w with
  | none => simp [run_expect_none _ h]
  | some y => simp [run_expect_some _ h, eq_comm]

theorem run_log_of_isPlain {e : Entry} (h : e.IsPlain) (w : World) :
    run (log e) w = (.ok (), w.logged e) := by
  rw [run_log, w.logging.check_eq_ok h]

end

section

variable (w : World)

theorem run_report {α : Type} (e : Except Fault α) :
    run (report e) w = (e, w.afterReport e) := by
  cases e with
  | ok x => rfl
  | error fault =>
    cases fault with
    | rejected r =>
      exact run_bind_ok _ (run_log_of_isPlain (Entry.isPlain_validationFailed _ _ _) w)
    | _ => rfl

/-- A draft that comes out of a check is stored; if none comes out, that is reported. -/
theorem run_store (id : DraftId) (e : Except Fault Draft) :
    run (report e >>= fun d => update fun w => w.withDraft id d) w =
      match e with
      | .ok d => (.ok (), w.withDraft id d)
      | .error fault => (.error fault, w.afterReport e) := by
  have hreport := run_report w e
  cases e with
  | error fault => exact run_bind_error _ hreport
  | ok d => exact run_bind_ok _ hreport

theorem run_edit_none {id : DraftId} (hd : w.drafts.get? id = none)
    (setter : Draft → Except Fault Draft) :
    run (edit id setter) w = (.error .unknownHandle, w) :=
  run_bind_error _ (run_expect_none _ hd)

theorem run_edit_some {id : DraftId} {d : Draft} (hd : w.drafts.get? id = some d)
    (setter : Draft → Except Fault Draft) :
    run (edit id setter) w =
      match setter d with
      | .ok d' => (.ok (), w.withDraft id d')
      | .error fault => (.error fault, w.afterReport (setter d)) :=
  (run_bind_ok _ (run_expect_some _ hd)).trans (run_store w id (setter d))

theorem run_openDraft (id : DraftId) (name : Datum) (service : Option ServiceId)
    (resolver : Option SourcesId) :
    run (openDraft id name service resolver) w =
      match w.checkHandles id service resolver with
      | .error fault => (.error fault, w)
      | .ok () =>
        match Draft.ofName name service resolver with
        | .ok d => (.ok (), w.withDraft id d)
        | .error fault => (.error fault, w.afterReport (Draft.ofName name service resolver)) := by
  have hfree : run (ensureFree fun w => (w.drafts.get? id).isNone) w = (_, w) := rfl
  have hservice :
      run (ensureKnown fun w => service.all fun s => (w.services.get? s).isSome) w = (_, w) := rfl
  have hresolver :
      run (ensureKnown fun w => resolver.all fun place => (w.sources? place).isSome) w = (_, w) := rfl
  unfold World.checkHandles
  cases h₁ : (w.drafts.get? id).isNone with
  | false =>
    simp only [h₁, Bool.false_eq_true, if_false] at hfree
    exact run_bind_error _ hfree
  | true =>
    simp only [h₁, if_true] at hfree
    refine (run_bind_ok _ hfree).trans ?_
    cases h₂ : service.all fun s => (w.services.get? s).isSome with
    | false =>
      simp only [h₂, Bool.false_eq_true, if_false] at hservice
      exact run_bind_error _ hservice
    | true =>
      simp only [h₂, if_true] at hservice
      refine (run_bind_ok _ hservice).trans ?_
      cases h₃ : resolver.all fun place => (w.sources? place).isSome with
      | false =>
        simp only [h₃, Bool.false_eq_true, if_false] at hresolver
        exact run_bind_error _ hresolver
      | true =>
        simp only [h₃, if_true] at hresolver
        exact (run_bind_ok _ hresolver).trans (run_store w id _)

/-- Resolving with the sources at a place, where there are some. -/
theorem run_resolve {place : SourcesId} {s : Sources} (hs : w.sources? place = some s)
    (explicit : Datum) :
    run (resolve place explicit) w =
      run (conclude (s.resolve explicit))
        (w.asked place (s.resolve explicit).inquiries (s.resolve explicit).sources) :=
  run_bind_ok _ (run_expect_some _ hs)

theorem run_conclude (r : Resolution) :
    run (conclude r) w =
      match r.entry with
      | none => (r.outcome, w)
      | some e =>
        match w.logging.check e with
        | .ok () => (r.outcome, w.logged e)
        | .error fault => (.error fault, { w with logging := w.logging.use e }) := by
  unfold conclude
  cases r.entry with
  | none => rfl
  | some e =>
    have hlog := run_log e w
    dsimp only
    cases hfault : w.logging.check e with
    | error fault =>
      rw [hfault] at hlog
      exact run_bind_error _ hlog
    | ok _ =>
      rw [hfault] at hlog
      exact run_bind_ok _ hlog

theorem run_conclude_of_isPlain {r : Resolution} (h : ∀ e ∈ r.entry, e.IsPlain) :
    ∃ journal logging,
      run (conclude r) w = (r.outcome, { w with journal := journal, logging := logging }) := by
  rw [run_conclude]
  cases hentry : r.entry with
  | none => exact ⟨w.journal, w.logging, rfl⟩
  | some e =>
    dsimp only
    rw [w.logging.check_eq_ok (h e hentry)]
    exact ⟨_, _, rfl⟩

theorem run_create_none {id : DraftId} (hd : w.drafts.get? id = none) :
    run (create id) w = (.error .unknownHandle, w) :=
  run_bind_error _ (run_expect_none _ hd)

theorem run_create_finalized {id : DraftId} {d : Draft} (hd : w.drafts.get? id = some d)
    (hfinalized : d.finalized = true) : run (create id) w = (.error .finalized, w) := by
  have hensure : run (lift d.ensureOpen) w = (.error .finalized, w) := by
    simp [Draft.ensureOpen, hfinalized]
  exact (run_bind_ok _ (run_expect_some _ hd)).trans (run_bind_error _ hensure)

/-- Creating an event commits at the very end. -/
theorem run_create {id : DraftId} {d : Draft} (hd : w.drafts.get? id = some d)
    (hopen : d.finalized = false) :
    run (create id) w =
      match run (attributionOf d) w with
      | (.error fault, w') => (.error fault, w')
      | (.ok a, w') =>
        match d.record a (w'.host.eventId w'.records.length) (w'.host.clock w'.records.length) with
        | .error fault => (.error fault, w')
        | .ok r => (.ok (w'.records.length, r), w'.committed id d r) := by
  have hensure : run (lift d.ensureOpen) w = (.ok d, w) := by
    simp [Draft.ensureOpen, hopen]
  refine (run_bind_ok _ (run_expect_some _ hd)).trans ((run_bind_ok _ hensure).trans ?_)
  rcases ha : run (attributionOf d) w with ⟨fault | a, w'⟩
  -- Up to here nothing but services and sources can have changed.
  · exact run_bind_error _ ha
  · refine (run_bind_ok _ ha).trans ?_
    dsimp only
    have hstamp : run (stamp (d.record a)) w' = (_, w') := rfl
    cases hr : d.record a (w'.host.eventId w'.records.length) (w'.host.clock w'.records.length) with
    | error fault =>
      rw [hr] at hstamp
      exact run_bind_error _ hstamp
    | ok r =>
      rw [hr] at hstamp
      refine (run_bind_ok _ hstamp).trans ?_
      refine (run_bind_ok _ (run_update _ _)).trans ((run_bind_ok _ (run_update _ _)).trans ?_)
      exact run_bind_ok _ (run_log_of_isPlain (Entry.isPlain_eventCreated _ _) _)

/-- An event reaches the sink of a service that is there before anything can fail. -/
theorem run_submit {id keeper : ServiceId} {service : Service} {sink : Sink}
    (hs : w.services.get? id = some service) (hsink : w.sink? id = some (keeper, sink))
    (r : EventRecord) :
    run (submit id r) w =
      match w.logging.check (sink.report r service.sessionId) with
      | .error fault =>
        (.error fault, { w.delivered keeper sink r with
          logging := w.logging.use (sink.report r service.sessionId) })
      | .ok () => (.ok (), (w.delivered keeper sink r).acknowledged sink
          (sink.report r service.sessionId) r) := by
  refine (run_bind_ok _ (run_expect_some _ hs)).trans ?_
  refine (run_bind_ok _ (run_expect_some _ hsink)).trans ?_
  have hdelivered := run_log (sink.report r service.sessionId) (w.delivered keeper sink r)
  have hlogging : (w.delivered keeper sink r).logging = w.logging := by
    obtain ⟨services, heq⟩ := w.delivered_eq keeper sink r
    rw [heq]
  rw [hlogging] at hdelivered
  cases hlog : w.logging.check (sink.report r service.sessionId) with
  | error fault =>
    rw [hlog] at hdelivered
    exact (run_bind_ok _ (run_update _ _)).trans (run_bind_error _ hdelivered)
  | ok _ =>
    rw [hlog] at hdelivered
    refine (run_bind_ok _ (run_update _ _)).trans ((run_bind_ok _ hdelivered).trans ?_)
    refine (run_bind_ok _ (run_update _ _)).trans ?_
    exact run_log_of_isPlain (Entry.isPlain_eventAdded _ _) _

theorem run_submit_none {id : ServiceId} (hsink : w.sink? id = none) (r : EventRecord) :
    run (submit id r) w = (.error .unknownHandle, w) := by
  cases hs : w.services.get? id with
  | none => exact run_bind_error _ (run_expect_none _ hs)
  | some service =>
    exact (run_bind_ok _ (run_expect_some _ hs)).trans (run_bind_error _ (run_expect_none _ hsink))

theorem run_handOver {id : DraftId} {d : Draft} (hd : w.drafts.get? id = some d)
    (r : EventRecord) :
    run (handOver id r) w =
      match run (serviceOf d) w with
      | (.error fault, w') => (.error fault, w')
      | (.ok service, w') => run (submit service r) w' := by
  refine (run_bind_ok _ (run_expect_some _ hd)).trans ?_
  rw [run_bind]
  rcases run (serviceOf d) w with ⟨fault | service, w'⟩ <;> rfl

/-- Adding an event hands it over only after its draft was committed. -/
theorem run_add (id : DraftId) :
    run (add id) w =
      match run (create id) w with
      | (.error fault, w') => (.error fault, w')
      | (.ok (n, r), w') => ((run (handOver id r) w').1.map fun _ => (n, r),
          (run (handOver id r) w').2) := by
  cases hcreate : run (create id) w with
  | mk result w' =>
    cases result with
    | error fault => exact run_bind_error _ hcreate
    | ok x => exact (run_bind_ok _ hcreate).trans (run_bind_pure fun _ => x)

end

end Action

/-! ## Steps -/

namespace World

theorem step_openDraft (w : World) (id : DraftId) (name : Datum) (service : Option ServiceId)
    (resolver : Option SourcesId) :
    w.step (.openDraft id name service resolver) =
      match w.checkHandles id service resolver with
      | .error fault => (.error fault, w)
      | .ok () =>
        match Draft.ofName name service resolver with
        | .ok d => (.ok .done, w.withDraft id d)
        | .error fault => (.error fault, w.afterReport (Draft.ofName name service resolver)) := by
  have hstep : w.step (.openDraft id name service resolver) = _ :=
    Action.run_bind_pure (a := Action.openDraft id name service resolver) fun _ => Outcome.done
  rw [hstep, Action.run_openDraft]
  cases w.checkHandles id service resolver with
  | error fault => rfl
  | ok _ => cases Draft.ofName name service resolver <;> rfl

theorem step_create (w : World) (id : DraftId) :
    w.step (.create id) = ((Action.run (Action.create id) w).1.map fun x => .record x.1 x.2,
      (Action.run (Action.create id) w).2) :=
  Action.run_bind_pure (a := Action.create id) fun x => Outcome.record x.1 x.2

theorem step_add (w : World) (id : DraftId) :
    w.step (.add id) = ((Action.run (Action.add id) w).1.map fun x => .record x.1 x.2,
      (Action.run (Action.add id) w).2) :=
  Action.run_bind_pure (a := Action.add id) fun x => Outcome.record x.1 x.2

theorem step_readSettings (w : World) :
    w.step .readSettings = ((Action.run Action.settings w).1.map .settings,
      (Action.run Action.settings w).2) :=
  Action.run_bind_pure (a := Action.settings) Outcome.settings

theorem step_openService (w : World) (id : ServiceId) (sink : Option SinkSpec)
    (session push : Option Source) (sessionId : Datum) :
    w.step (.openService id sink session push sessionId) =
      ((Action.run (Action.openService id sink session push sessionId) w).1.map .service,
        (Action.run (Action.openService id sink session push sessionId) w).2) :=
  Action.run_bind_pure (a := Action.openService id sink session push sessionId) Outcome.service

theorem step_lookUpShared (w : World) :
    w.step .lookUpShared = ((Action.run Action.sharedService w).1.map .service,
      (Action.run Action.sharedService w).2) :=
  Action.run_bind_pure (a := Action.sharedService) Outcome.service

theorem step_start (w : World) (id : ServiceId) (sink : Option SinkSpec)
    (session push : Option Source) :
    w.step (.start id sink session push) =
      ((Action.run (Action.start id sink session push) w).1.map .service,
        (Action.run (Action.start id sink session push) w).2) :=
  Action.run_bind_pure (a := Action.start id sink session push) Outcome.service

theorem step_submit (w : World) (id : ServiceId) (r : EventRecord) :
    w.step (.submit id r) = ((Action.run (Action.submit id r) w).1.map fun _ => .done,
      (Action.run (Action.submit id r) w).2) :=
  Action.run_bind_pure (a := Action.submit id r) fun _ => Outcome.done

end World

/-! ## Setters -/

namespace Step

/--
For a setter: the draft it is called on, and the write it makes of its arguments. A setter that is
passed something without an id in the place of a message fails before it comes to its draft.
-/
def write? : Step → Option (DraftId × Except Fault Draft.Write)
  | setTransactionId id transactionId => some (id, Draft.Write.ofTransactionId transactionId)
  | setInteraction id interactionType interactionId =>
    some (id, Draft.Write.ofInteraction interactionType interactionId)
  | setInteractionFromMessage id m =>
    match m.messageId with
    | .ok messageId => some (id, Draft.Write.ofMessageId messageId)
    | .error _ => none
  | setEventValue id value => some (id, Draft.Write.ofEventValue value)
  | setAttribution id m => some (id, Draft.Write.ofPush m)
  | _ => none

theorem exists_messageId_of_write? {id id' : DraftId} {m : MessageArgument InboxMessage}
    {write : Except Fault Draft.Write}
    (h : (setInteractionFromMessage id m).write? = some (id', write)) :
    ∃ messageId, m.messageId = .ok messageId ∧ id = id' ∧
      Draft.Write.ofMessageId messageId = write := by
  dsimp only [write?] at h
  cases hm : m.messageId with
  | error fault =>
    rw [hm] at h
    cases h
  | ok messageId =>
    rw [hm] at h
    cases h
    exact ⟨messageId, rfl, rfl, rfl⟩

theorem exists_fault_of_write? {id : DraftId} {m : MessageArgument InboxMessage}
    (h : (setInteractionFromMessage id m).write? = none) :
    ∃ fault, m.messageId = .error fault := by
  dsimp only [write?] at h
  cases hm : m.messageId with
  | error fault => exact ⟨fault, rfl⟩
  | ok messageId =>
    rw [hm] at h
    cases h

open Draft.Write in
theorem fits_of_write? {s : Step} {id : DraftId} {write : Except Fault Draft.Write}
    (h : s.write? = some (id, write)) {x : Draft.Write} (hx : write = .ok x) : x.Fits := by
  cases s
  case setInteractionFromMessage id m =>
    obtain ⟨messageId, -, -, rfl⟩ := exists_messageId_of_write? h
    exact fits_ofInteraction hx
  all_goals cases h
  case setTransactionId => exact fits_ofTransactionId hx
  case setInteraction => exact fits_ofInteraction hx
  case setEventValue => exact fits_ofEventValue hx
  case setAttribution => exact fits_ofPush hx

end Step

namespace World

variable (w : World)

/-- A setter stores its write in the draft if it can, and else leaves every draft alone. -/
theorem step_of_write? {s : Step} {id : DraftId} {write : Except Fault Draft.Write}
    (h : s.write? = some (id, write)) :
    w.step s =
      match w.drafts.get? id with
      | none => (.error .unknownHandle, w)
      | some d =>
        match d.put write with
        | .ok d' => (.ok .done, w.withDraft id d')
        | .error fault => (.error fault, w.afterReport (d.put write)) := by
  obtain ⟨setter, hstep, hsetter⟩ : ∃ setter,
      w.step s = Action.run (Action.edit id setter >>= fun _ => pure .done) w ∧
        ∀ d : Draft, setter d = d.put write := by
    cases s
    case setInteractionFromMessage id m =>
      obtain ⟨messageId, hid, rfl, rfl⟩ := Step.exists_messageId_of_write? h
      refine ⟨_, rfl, fun d => ?_⟩
      rw [d.setInteractionFromMessage_eq, hid]
      rfl
    all_goals cases h
    case setTransactionId => exact ⟨_, rfl, fun d => d.setTransactionId_eq _⟩
    case setInteraction => exact ⟨_, rfl, fun d => d.setInteraction_eq ..⟩
    case setEventValue => exact ⟨_, rfl, fun d => d.setEventValue_eq _⟩
    case setAttribution => exact ⟨_, rfl, fun d => d.setAttribution_eq _⟩
  rw [hstep]
  cases hd : w.drafts.get? id with
  | none => exact Action.run_bind_error _ (Action.run_edit_none w hd setter)
  | some d =>
    have hedit := Action.run_edit_some w hd setter
    rw [hsetter] at hedit
    dsimp only
    cases hput : d.put write with
    | error fault =>
      rw [hput] at hedit
      exact Action.run_bind_error _ hedit
    | ok d' =>
      rw [hput] at hedit
      exact Action.run_bind_ok _ hedit

/-- A message whose id cannot be looked up is no message, and nothing happens. -/
theorem step_of_messageId_error {id : DraftId} {m : MessageArgument InboxMessage} {fault : Fault}
    (h : m.messageId = .error fault) :
    w.step (.setInteractionFromMessage id m) =
      (.error (if (w.drafts.get? id).isSome then fault else .unknownHandle), w) := by
  have hsetter (d : Draft) : d.setInteractionFromMessage m = .error fault := by
    rw [d.setInteractionFromMessage_eq, h]
    rfl
  have hstep : w.step (.setInteractionFromMessage id m) =
      Action.run (Action.edit id (·.setInteractionFromMessage m) >>= fun _ => pure .done) w := rfl
  rw [hstep]
  cases hd : w.drafts.get? id with
  | none => exact Action.run_bind_error _ (Action.run_edit_none w hd _)
  | some d =>
    have hedit := Action.run_edit_some w hd (·.setInteractionFromMessage m)
    rw [hsetter] at hedit
    have hreport : w.afterReport (.error fault : Except Fault Draft) = w := by
      obtain ⟨f, rfl⟩ := MessageArgument.exists_failure_of_messageId h
      cases f <;> rfl
    rw [hreport] at hedit
    exact Action.run_bind_error _ hedit

end World

end Telemetry
