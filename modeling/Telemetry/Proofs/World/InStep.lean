import Telemetry.Proofs.World.Alike

/-!
# Running in step

What a party does with its own in one of two worlds that agree on this, it does in the other as well
(`World.inStep_step`). It ends in the same way up to ids and times, and the worlds go on in the same
way. `Action.InStep` says this of an operation that is run in both. It is closed under sequencing,
and what comes after an operation has to be looked at only in worlds that agree again.
-/

namespace Telemetry

/-- If the sink is to be that of another service, that one belongs to the party. -/
def Belongings.Grants (mine : Belongings) : SinkSpec → Prop
  | .sharedWith other => other ∈ mine.services
  | .log | .memory _ => True

/-- The step works with what belongs to the party. It opens a service with a sink and a draft with a
service. -/
def Step.Uses (mine : Belongings) : Step → Prop
  | openService id sink _ _ _ => id ∈ mine.services ∧ ∃ spec, sink = some spec ∧ mine.Grants spec
  | makeRecord _ => True
  | openResolver id _ => id ∈ mine.resolvers
  | openDraft id _ service resolver =>
    id ∈ mine.drafts ∧ (∃ own ∈ mine.services, service = some own) ∧
      ∀ place ∈ resolver, mine.Owns place
  | setTransactionId id _ | setInteraction id _ _ | setInteractionFromMessage id _
  | setEventValue id _ | setAttribution id _ | create id | add id => id ∈ mine.drafts
  | setConversion id _ | setLastReceived id _ | sendIds id | resolve id _ | submit id _
  | recent id _ | checkHealth id => id ∈ mine.services
  | _ => False

namespace Action

open World (Alike Moved)

variable {α β γ δ : Type} {mine : Belongings} {u v : World}

/-! ## Operations in two worlds -/

/-- The results are the same fault, or they are related. -/
inductive EndAlike (R : α → β → Prop) : Except Fault α → Except Fault β → Prop where
  | ok {x : α} {y : β} (h : R x y) : EndAlike R (.ok x) (.ok y)
  | error (fault : Fault) : EndAlike R (.error fault) (.error fault)

theorem EndAlike.refl {R : α → α → Prop} {e : Except Fault α} (hR : ∀ x, e = .ok x → R x x) :
    EndAlike R e e := by
  cases e with
  | ok x => exact .ok (hR x rfl)
  | error fault => exact .error fault

theorem EndAlike.of_map_eq {f : α → β} {e e' : Except Fault α} (h : e.map f = e'.map f) :
    EndAlike (fun x y => f x = f y) e e' := by
  cases e with
  | error fault =>
    cases e' with
    | error _ =>
      cases h
      exact .error fault
    | ok _ => cases h
  | ok x =>
    cases e' with
    | error _ => cases h
    | ok _ => exact .ok (Except.ok.inj h)

theorem EndAlike.map_eq {f : α → γ} {g : β → γ} {e : Except Fault α} {e' : Except Fault β}
    (h : EndAlike (fun x y => f x = g y) e e') : e.map f = e'.map g := by
  cases h with
  | ok h => exact congrArg Except.ok h
  | error fault => rfl

/-- The operations end alike and go on in the same way. -/
structure InStep (mine : Belongings) (R : α → β → Prop) (a : Action α) (b : Action β)
    (u v : World) : Prop where
  endAlike : EndAlike R (run a u).1 (run b v).1
  moved : Moved mine u v (run a u).2 (run b v).2

namespace InStep

variable {R : α → β → Prop} {S : γ → δ → Prop}

theorem of_run {a : Action α} {b : Action β} {e : Except Fault α} {e' : Except Fault β}
    {u' v' : World} (hu : run a u = (e, u')) (hv : run b v = (e', v')) (he : EndAlike R e e')
    (hmoved : Moved mine u v u' v') : InStep mine R a b u v := by
  constructor
  · rw [hu, hv]
    exact he
  · rw [hu, hv]
    exact hmoved

/-- What comes after has to be looked at where the worlds agree again. -/
theorem bind {a : Action α} {b : Action β} {f : α → Action γ} {g : β → Action δ}
    (hab : InStep mine R a b u v)
    (hfg : ∀ {x y u' v'}, R x y → Alike mine u' v' → InStep mine S (f x) (g y) u' v') :
    InStep mine S (a >>= f) (b >>= g) u v := by
  obtain ⟨hends, hmoved⟩ := hab
  rcases hu : run a u with ⟨x, u'⟩
  rcases hv : run b v with ⟨y, v'⟩
  rw [hu, hv] at hends hmoved
  cases hends with
  | error fault =>
    exact of_run (run_bind_error f hu) (run_bind_error g hv) (.error fault) hmoved
  | ok hxy =>
    obtain ⟨hends', hmoved'⟩ := hfg hxy hmoved.alike
    exact of_run (run_bind_ok f hu) (run_bind_ok g hv) hends' (hmoved.trans hmoved')

variable (h : Alike mine u v)

include h

theorem lift {e : Except Fault α} {e' : Except Fault β} (he : EndAlike R e e') :
    InStep mine R (lift e) (lift e') u v := of_run rfl rfl he h.moved_refl

theorem pure {x : α} {y : β} (hxy : R x y) :
    InStep mine R (pure x : Action α) (pure y : Action β) u v := lift h (.ok hxy)

theorem fail (fault : Fault) :
    InStep mine R (fail fault : Action α) (fail fault : Action β) u v := lift h (.error fault)

theorem expect {R : α → α → Prop} (fault : Fault) {f : World → Option α} (hf : f u = f v)
    (hR : ∀ x, f u = some x → R x x) : InStep mine R (expect fault f) (expect fault f) u v := by
  cases hu : f u with
  | none =>
    have hv : f v = none := hf ▸ hu
    exact of_run (run_expect_none fault hu) (run_expect_none fault hv) (.error fault) h.moved_refl
  | some x =>
    have hv : f v = some x := hf ▸ hu
    exact of_run (run_expect_some fault hu) (run_expect_some fault hv) (.ok (hR x hu)) h.moved_refl

theorem ensureFree {isFree : World → Bool} (hfree : isFree u = isFree v) :
    InStep mine (fun _ _ => True) (ensureFree isFree) (ensureFree isFree) u v := by
  refine of_run rfl rfl ?_ h.moved_refl
  rw [hfree]
  exact .refl fun _ _ => trivial

theorem ensureKnown {isKnown : World → Bool} (hknown : isKnown u = isKnown v) :
    InStep mine (fun _ _ => True) (ensureKnown isKnown) (ensureKnown isKnown) u v := by
  refine of_run rfl rfl ?_ h.moved_refl
  rw [hknown]
  exact .refl fun _ _ => trivial

omit h in
theorem update {f g : World → World} (hfg : Moved mine u v (f u) (g v)) :
    InStep mine (fun _ _ => True) (update f) (update g) u v := ⟨.ok trivial, hfg⟩

theorem log {e e' : Entry} (he : e.WrittenLike e') :
    InStep mine (fun _ _ => True) (log e) (log e') u v := by
  have hu := run_log e u
  have hv := run_log e' v
  rw [h.check_eq he] at hu
  cases hfault : v.logging.check e' with
  | ok _ =>
    rw [hfault] at hu hv
    exact of_run hu hv (.ok trivial) (h.moved_written e e' _ _)
  | error fault =>
    rw [hfault] at hu hv
    exact of_run hu hv (.error fault) (h.moved_written e e' _ _)

end InStep

section

variable (h : Alike mine u v)

include h

theorem inStep_report (e : Except Fault α) :
    InStep mine (fun x y => x = y ∧ e = .ok x) (report e) (report e) u v := by
  cases e with
  | ok x => exact .lift h (.ok ⟨rfl, rfl⟩)
  | error fault =>
    cases fault with
    | rejected r =>
      refine (InStep.log h (.refl _)).bind fun _ h => ?_
      have hrecord := h.moved_record (.rejected r.field.key r.kind.name)
      exact (InStep.update hrecord).bind fun _ h => .fail h _
    | _ => exact .lift h (.refl fun _ hx => ⟨rfl, hx⟩)

/-! ## Services -/

theorem inStep_service {id : ServiceId} (hid : id ∈ mine.services) :
    InStep mine (fun s s' => s.unstamped = s'.unstamped) (service id) (service id) u v := by
  rcases h.cases_service hid with ⟨hu, hv⟩ | ⟨s, s', hu, hv, hs⟩
  · exact .of_run (run_expect_none _ hu) (run_expect_none _ hv) (.error _) h.moved_refl
  · exact .of_run (run_expect_some _ hu) (run_expect_some _ hv) (.ok hs) h.moved_refl

theorem inStep_sessionIdOr (given : Datum) :
    InStep mine (fun d d' => d.wordless = d'.wordless) (sessionIdOr given) (sessionIdOr given)
      u v := by
  unfold sessionIdOr
  cases given.isVoid with
  | true => exact .of_run rfl rfl (.ok rfl) (h.moved_background ..)
  | false => exact .of_run rfl rfl (.ok rfl) h.moved_refl

theorem inStep_sinkOf {id : ServiceId} (hid : id ∈ mine.services) :
    InStep mine (fun p p' => p.1 = p'.1 ∧ p.1 ∈ mine.services ∧ p.2.unstamped = p'.2.unstamped)
      (sinkOf id) (sinkOf id) u v := by
  rcases h.cases_sink hid with ⟨hu, hv⟩ | ⟨keeper, hkeeper, sink, sink', hu, hv, hsink⟩
  · exact .of_run (run_expect_none _ hu) (run_expect_none _ hv) (.error _) h.moved_refl
  · exact .of_run (run_expect_some _ hu) (run_expect_some _ hv) (.ok ⟨rfl, hkeeper, hsink⟩)
      h.moved_refl

theorem inStep_sinkFor {spec : SinkSpec} (hspec : mine.Grants spec) :
    InStep mine (fun sink sink' => sink = sink' ∧ mine.Keeps sink)
      (sinkFor (some spec)) (sinkFor (some spec)) u v := by
  cases spec with
  | log => exact .pure h ⟨rfl, trivial⟩
  | memory capacity =>
    have hsame : EndAlike Eq (Sink.ofCapacity capacity) (Sink.ofCapacity capacity) :=
      .refl fun _ _ => rfl
    refine (InStep.lift h hsame).bind fun hsink h => .pure h ?_
    exact ⟨congrArg ServiceSink.own hsink, trivial⟩
  | sharedWith other =>
    refine (inStep_sinkOf h hspec).bind fun {p p' _ _} hp h => .pure h ?_
    obtain ⟨hkeeper, hmine, -⟩ := hp
    exact ⟨congrArg ServiceSink.of hkeeper, hmine⟩

theorem inStep_makeService {spec : SinkSpec} (hspec : mine.Grants spec)
    (session push : Option Source) (sessionId : Datum) :
    InStep mine (fun s s' => s.unstamped = s'.unstamped ∧ mine.Keeps s.sink)
      (makeService (some spec) session push sessionId)
      (makeService (some spec) session push sessionId) u v := by
  refine (inStep_sinkFor h hspec).bind fun hsink h => ?_
  obtain ⟨rfl, hkeeps⟩ := hsink
  refine (inStep_sessionIdOr h sessionId).bind fun hsession h => .pure h ⟨?_, hkeeps⟩
  unfold Service.unstamped
  rw [hsession]

theorem inStep_openService {id : ServiceId} (hid : id ∈ mine.services) {spec : SinkSpec}
    (hspec : mine.Grants spec) (session push : Option Source) (sessionId : Datum) :
    InStep mine Eq (openService id (some spec) session push sessionId)
      (openService id (some spec) session push sessionId) u v := by
  have hfree : (u.services.get? id).isNone = (v.services.get? id).isNone := by
    rw [← Option.not_isSome, h.isSome_service hid, Option.not_isSome]
  refine (InStep.ensureFree h hfree).bind fun _ h => ?_
  refine (inStep_makeService h hspec session push sessionId).bind fun hservice h => ?_
  obtain ⟨hservice, hkeeps⟩ := hservice
  exact (InStep.update (h.moved_service hid hservice hkeeps)).bind fun _ h => .pure h rfl

theorem inStep_submit {id : ServiceId} (hid : id ∈ mine.services) {r r' : EventRecord}
    (hr : r.unstamped = r'.unstamped) :
    InStep mine (fun _ _ => True) (submit id r) (submit id r') u v := by
  refine (inStep_service h hid).bind fun {s s' _ _} hs h => ?_
  obtain ⟨-, -, hsession⟩ := Service.unstamped_eq_iff.mp hs
  refine (inStep_sinkOf h hid).bind fun {p p' _ _} hp h => ?_
  obtain ⟨keeper, sink⟩ := p
  obtain ⟨keeper', sink'⟩ := p'
  obtain ⟨hkeeper, hmine, hsink⟩ := hp
  dsimp only at hkeeper hmine hsink
  subst hkeeper
  have htaken := h.moved_withSink hmine (Sink.take_unstamped hsink hr)
  refine (InStep.update (htaken.trans (htaken.alike.moved_background ..))).bind fun _ h => ?_
  refine (InStep.log h (Sink.writtenLike_report hsink hr hsession)).bind fun _ h => ?_
  have hclass : sink.className = sink'.className := by
    rw [← sink.className_unstamped, hsink, sink'.className_unstamped]
  rw [hclass]
  exact (InStep.update (h.moved_record (.added sink'.className))).bind fun _ h =>
    .log h (Entry.writtenLike_eventAdded ..)

theorem inStep_recent {id : ServiceId} (hid : id ∈ mine.services) (limit : Option Int) :
    InStep mine (fun rs rs' => rs.map EventRecord.unstamped = rs'.map EventRecord.unstamped)
      (recent id limit) (recent id limit) u v := by
  refine (inStep_sinkOf h hid).bind fun {p p' _ _} hp h => .pure h ?_
  obtain ⟨-, -, hsink⟩ := hp
  rw [← Sink.recent_unstamped, ← Sink.recent_unstamped, hsink]

theorem inStep_isHealthy {id : ServiceId} (hid : id ∈ mine.services) :
    InStep mine Eq (isHealthy id) (isHealthy id) u v := by
  have healthy (sink : Sink) : sink.isHealthy = true := by cases sink <;> rfl
  refine (inStep_sinkOf h hid).bind fun _ h => .pure h ?_
  rw [healthy, healthy]

/-! ## Sources -/

theorem inStep_sourcesAt {place : SourcesId} (hplace : mine.Owns place) :
    InStep mine Eq (sourcesAt place) (sourcesAt place) u v :=
  .expect h _ (h.sources?_eq hplace) fun _ _ => rfl

theorem inStep_setSendId {id : ServiceId} (hid : id ∈ mine.services) (q : Question)
    (sendId : Datum) :
    InStep mine (fun _ _ => True) (setSendId id q sendId) (setSendId id q sendId) u v := by
  have hplace : mine.Owns (.service id) := hid
  refine (inStep_sourcesAt h hplace).bind fun {s _ _ _} hs h => ?_
  obtain rfl := hs
  cases s.source q with
  | held _ => exact .update (h.moved_withSources hplace _)
  | external _ _ | lacking _ => exact .fail h _

theorem inStep_ask {id : ServiceId} (hid : id ∈ mine.services) (q : Question) :
    InStep mine Eq (ask id q) (ask id q) u v := by
  have hplace : mine.Owns (.service id) := hid
  refine (inStep_sourcesAt h hplace).bind fun {s _ _ _} hs h => ?_
  obtain rfl := hs
  rcases s.ask q with ⟨⟨_, answer, _⟩, asked⟩
  refine (InStep.update (h.moved_withSources hplace _)).bind fun _ h => ?_
  refine (InStep.update (h.moved_note _ _)).bind fun _ h => ?_
  cases answer with
  | value sendId => exact .pure h rfl
  | failure message => exact .fail h _

theorem inStep_sendIds {id : ServiceId} (hid : id ∈ mine.services) :
    InStep mine Eq (sendIds id) (sendIds id) u v := by
  refine (inStep_ask h hid .conversion).bind fun hconversion h => ?_
  refine (inStep_ask h hid .lastReceived).bind fun hlastReceived h => .pure h ?_
  rw [hconversion, hlastReceived]

theorem inStep_conclude (r : Resolution) :
    InStep mine Eq (conclude r) (conclude r) u v := by
  have houtcome : EndAlike Eq r.outcome r.outcome := .refl fun _ _ => rfl
  unfold conclude
  cases r.entry with
  | none => exact .lift h houtcome
  | some e => exact (InStep.log h (.refl e)).bind fun _ h => .lift h houtcome

theorem inStep_resolve {place : SourcesId} (hplace : mine.Owns place) (explicit : Datum) :
    InStep mine Eq (resolve place explicit) (resolve place explicit) u v := by
  refine (inStep_sourcesAt h hplace).bind fun {s _ _ _} hs h => ?_
  obtain rfl := hs
  refine (InStep.update (h.moved_withSources hplace _)).bind fun _ h => ?_
  refine (InStep.update (h.moved_note _ _)).bind fun _ h => ?_
  exact inStep_conclude h _

theorem inStep_openResolver {id : ResolverId} (hid : id ∈ mine.resolvers) (s : Sources) :
    InStep mine (fun _ _ => True) (openResolver id s) (openResolver id s) u v := by
  have hfree : (u.resolvers.get? id).isNone = (v.resolvers.get? id).isNone := by
    rw [h.resolvers id hid]
  exact (InStep.ensureFree h hfree).bind fun _ h => .update (h.moved_resolver hid s)

/-! ## Drafts -/

theorem inStep_openDraft {id : DraftId} (hid : id ∈ mine.drafts) (name : Datum)
    {service : Option ServiceId} (hservice : ∃ own ∈ mine.services, service = some own)
    {resolver : Option SourcesId} (hresolver : ∀ place ∈ resolver, mine.Owns place) :
    InStep mine (fun _ _ => True) (openDraft id name service resolver)
      (openDraft id name service resolver) u v := by
  have hfree : (u.drafts.get? id).isNone = (v.drafts.get? id).isNone := by rw [h.drafts id hid]
  refine (InStep.ensureFree h hfree).bind fun _ h => ?_
  refine (InStep.ensureKnown h ?_).bind fun _ h => ?_
  · obtain ⟨own, hown, rfl⟩ := hservice
    exact h.isSome_service hown
  refine (InStep.ensureKnown h ?_).bind fun _ h => ?_
  · cases resolver with
    | none => rfl
    | some place => exact congrArg Option.isSome (h.sources?_eq (hresolver place rfl))
  refine (inStep_report h _).bind fun {d _ _ _} hd h => ?_
  obtain ⟨rfl, hd⟩ := hd
  obtain ⟨-, -, rfl, rfl, -, -⟩ := Draft.ofName_eq_ok_iff.mp hd
  exact .update (h.moved_draft hid ⟨hservice, hresolver⟩)

theorem inStep_draft {id : DraftId} (hid : id ∈ mine.drafts) :
    InStep mine (fun d d' => d = d' ∧ mine.Equips d) (draft id) (draft id) u v :=
  .expect h _ (h.drafts id hid) fun d hd => ⟨rfl, h.closed.drafts id hid d hd⟩

/-- A setter leaves the service and the resolver of a draft as they are. -/
theorem inStep_edit {id : DraftId} (hid : id ∈ mine.drafts) {setter : Draft → Except Fault Draft}
    (hsetter : ∀ d d', setter d = .ok d' → d'.blank = d.blank) :
    InStep mine (fun _ _ => True) (edit id setter) (edit id setter) u v := by
  refine (inStep_draft h hid).bind fun {d _ _ _} hd h => ?_
  obtain ⟨rfl, hd⟩ := hd
  refine (inStep_report h _).bind fun hd' h => ?_
  obtain ⟨rfl, hd'⟩ := hd'
  exact .update (h.moved_draft hid (hd.of_blank (hsetter _ _ hd')))

theorem inStep_serviceOf {d : Draft} (hd : mine.Equips d) :
    InStep mine (fun id id' => id = id' ∧ id ∈ mine.services) (serviceOf d) (serviceOf d) u v := by
  obtain ⟨id, hid, hown⟩ := hd.service
  unfold serviceOf
  rw [hown]
  exact .pure h ⟨rfl, hid⟩

theorem inStep_attributionOf {d : Draft} (hd : mine.Equips d) :
    InStep mine Eq (attributionOf d) (attributionOf d) u v := by
  have hplace : InStep mine (fun place place' => place = place' ∧ mine.Owns place) (placeOf d)
      (placeOf d) u v := by
    unfold placeOf
    cases hresolver : d.resolver with
    | some place => exact .pure h ⟨rfl, hd.resolver place hresolver⟩
    | none =>
      refine (inStep_serviceOf h hd).bind fun hid h => ?_
      obtain ⟨rfl, hid⟩ := hid
      exact .pure h ⟨rfl, hid⟩
  refine hplace.bind fun hplace h => ?_
  obtain ⟨rfl, hplace⟩ := hplace
  exact inStep_resolve h hplace _

theorem inStep_stamp (f : RecordFields) :
    InStep mine (fun r r' => r.unstamped = r'.unstamped)
      (stamp fun freshId now => (EventRecord.ofFields freshId now f).mapError Fault.invalid)
      (stamp fun freshId now => (EventRecord.ofFields freshId now f).mapError Fault.invalid)
      u v := by
  have hmap (e : Except (List Problem) EventRecord) :
      (e.mapError Fault.invalid).map EventRecord.unstamped =
        (e.map EventRecord.unstamped).mapError Fault.invalid := by
    cases e <;> rfl
  refine .of_run rfl rfl (.of_map_eq ?_) h.moved_refl
  rw [hmap, hmap, EventRecord.ofFields_unstamped]

theorem inStep_keep (r r' : EventRecord) :
    InStep mine (fun _ _ => True) (keep r) (keep r') u v :=
  .of_run rfl rfl (.ok trivial) (h.moved_background ..)

theorem inStep_makeRecord (f : RecordFields) :
    InStep mine (fun x y => x.2.unstamped = y.2.unstamped) (makeRecord f) (makeRecord f) u v :=
  (inStep_stamp h f).bind fun hr h => (inStep_keep h _ _).bind fun _ h => .pure h hr

theorem inStep_create {id : DraftId} (hid : id ∈ mine.drafts) :
    InStep mine (fun x y => x.2.unstamped = y.2.unstamped) (create id) (create id) u v := by
  refine (inStep_draft h hid).bind fun {d _ _ _} hd h => ?_
  obtain ⟨rfl, hd⟩ := hd
  have hopen : EndAlike (fun d₁ d₂ => d₁ = d₂ ∧ mine.Equips d₁) d.ensureOpen d.ensureOpen := by
    unfold Draft.ensureOpen
    split
    · exact .error _
    · exact .ok ⟨rfl, hd⟩
  refine (InStep.lift h hopen).bind fun {d _ _ _} hd h => ?_
  obtain ⟨rfl, hd⟩ := hd
  refine (inStep_attributionOf h hd).bind fun {a _ _ _} ha h => ?_
  obtain rfl := ha
  refine (inStep_stamp h (d.fields a)).bind fun {r r' _ _} hr h => ?_
  have hvalue := congrArg EventRecord.eventValue hr
  dsimp only [EventRecord.unstamped] at hvalue
  have hfinalized := h.moved_draft hid (d := { d with finalized := true }) ⟨hd.service, hd.resolver⟩
  refine (InStep.update hfinalized).bind fun _ h => ?_
  rw [hvalue]
  refine (InStep.update (h.moved_record (.created r'.eventValue))).bind fun _ h => ?_
  refine (InStep.log h (Entry.writtenLike_eventCreated ..)).bind fun _ h => ?_
  exact (inStep_keep h r r').bind fun _ h => .pure h hr

theorem inStep_handOver {id : DraftId} (hid : id ∈ mine.drafts) {r r' : EventRecord}
    (hr : r.unstamped = r'.unstamped) :
    InStep mine (fun _ _ => True) (handOver id r) (handOver id r') u v := by
  refine (inStep_draft h hid).bind fun hd h => ?_
  obtain ⟨rfl, hd⟩ := hd
  refine (inStep_serviceOf h hd).bind fun hservice h => ?_
  obtain ⟨rfl, hservice⟩ := hservice
  exact inStep_submit h hservice hr

theorem inStep_add {id : DraftId} (hid : id ∈ mine.drafts) :
    InStep mine (fun x y => x.2.unstamped = y.2.unstamped) (add id) (add id) u v :=
  (inStep_create h hid).bind fun hr h => (inStep_handOver h hid hr).bind fun _ h => .pure h hr

end

end Action

/-! ## Steps -/

namespace World

open Telemetry.Action

variable {mine : Belongings} {u v : World}

theorem inStep_setter (h : Alike mine u v) {id : DraftId} (hid : id ∈ mine.drafts)
    {setter : Draft → Except Fault Draft}
    (hsetter : ∀ d d', setter d = .ok d' → d'.blank = d.blank) :
    InStep mine (fun o o' => o.unstamped = o'.unstamped)
      (edit id setter >>= fun _ => pure Outcome.done)
      (edit id setter >>= fun _ => pure Outcome.done) u v :=
  (inStep_edit h hid hsetter).bind fun _ h => .pure h rfl

theorem inStep_step (h : Alike mine u v) {s : Step} (hs : s.Uses mine) :
    InStep mine (fun o o' => o.unstamped = o'.unstamped) s.perform s.perform u v := by
  have hrecord {x y : Nat × EventRecord} (hxy : x.2.unstamped = y.2.unstamped) :
      (Outcome.record x.1 x.2).unstamped = (Outcome.record y.1 y.2).unstamped :=
    congrArg (Outcome.record 0) hxy
  cases s with
  | setVariables | reloadSettings | readSettings | share | lookUpShared | start => cases hs
  | openService id sink session push sessionId =>
    obtain ⟨hid, spec, rfl, hspec⟩ := hs
    exact (inStep_openService h hid hspec session push sessionId).bind fun hid h =>
      .pure h (congrArg Outcome.service hid)
  | makeRecord f => exact (inStep_makeRecord h f).bind fun hr h => .pure h (hrecord hr)
  | openResolver id sources =>
    exact (inStep_openResolver h hs sources).bind fun _ h => .pure h rfl
  | openDraft id name service resolver =>
    obtain ⟨hid, hservice, hresolver⟩ := hs
    exact (inStep_openDraft h hid name hservice hresolver).bind fun _ h => .pure h rfl
  | setTransactionId =>
    exact inStep_setter h hs fun d d' hd => Draft.blank_of_put (d.setTransactionId_eq _ ▸ hd)
  | setInteraction =>
    exact inStep_setter h hs fun d d' hd => Draft.blank_of_put (d.setInteraction_eq .. ▸ hd)
  | setInteractionFromMessage id m =>
    refine inStep_setter h hs fun d d' hd => ?_
    rw [d.setInteractionFromMessage_eq] at hd
    obtain ⟨messageId, -, hd⟩ := Except.bind_eq_ok_iff.mp hd
    exact Draft.blank_of_put hd
  | setEventValue =>
    exact inStep_setter h hs fun d d' hd => Draft.blank_of_put (d.setEventValue_eq _ ▸ hd)
  | setAttribution =>
    exact inStep_setter h hs fun d d' hd => Draft.blank_of_put (d.setAttribution_eq _ ▸ hd)
  | create id => exact (inStep_create h hs).bind fun hr h => .pure h (hrecord hr)
  | add id => exact (inStep_add h hs).bind fun hr h => .pure h (hrecord hr)
  | setConversion id sendId =>
    exact (inStep_setSendId h hs .conversion sendId).bind fun _ h => .pure h rfl
  | setLastReceived id sendId =>
    exact (inStep_setSendId h hs .lastReceived sendId).bind fun _ h => .pure h rfl
  | sendIds id =>
    refine (inStep_sendIds h hs).bind fun hids h => .pure h ?_
    rw [hids]
  | resolve id explicit =>
    have hplace : mine.Owns (.service id) := hs
    refine (inStep_resolve h hplace explicit).bind fun ha h => .pure h ?_
    rw [ha]
  | submit id r => exact (inStep_submit h hs rfl).bind fun _ h => .pure h rfl
  | recent id limit =>
    exact (inStep_recent h hs limit).bind fun hrs h => .pure h (congrArg Outcome.records hrs)
  | checkHealth id =>
    exact (inStep_isHealthy h hs).bind fun hok h => .pure h (congrArg Outcome.health hok)

end World

end Telemetry
