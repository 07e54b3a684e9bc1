import Mathlib.Data.List.DropRight
import Telemetry.Proofs.World.Counts
import Telemetry.Proofs.World.DefaultSink

/-!
# What a memory sink retains

A memory sink is cut to its capacity whenever it takes an event. What it holds is nevertheless the
end of all that it ever took (`Sink.takeAll_memory`): an event that was cut off was older than any
that stayed. So a listing can be told from the events that were added, at any time and with any
limit (`World.listing_of_run`), and as a listing does nothing to the world it can be left out of a
run (`World.run_filter_lists`).
-/

namespace Telemetry

/-- The step lists events. -/
def Step.lists : Step → Bool
  | recent .. => true
  | _ => false

namespace Sink

/-- The last of some events, as many as there is room for. -/
def lastOf (capacity : Option Nat) (added : List EventRecord) : List EventRecord :=
  capacity.elim added added.rtake

/-- The first of some events up to a limit; a negative one leaves out as many of the last. -/
def upTo (limit : Int) (events : List EventRecord) : List EventRecord :=
  if 0 ≤ limit then events.take limit.natAbs else events.rdrop limit.natAbs

/-! ## What is held -/

theorem newest_cons_newest (capacity : Option Nat) (r : EventRecord) (l : List EventRecord) :
    newest capacity (r :: newest capacity l) = newest capacity (r :: l) := by
  cases capacity with
  | none => rfl
  | some n =>
    cases n with
    | zero => simp [newest]
    | succ n => simp [newest, List.take_take]

theorem reverse_lastOf (capacity : Option Nat) (added : List EventRecord) :
    (lastOf capacity added).reverse = newest capacity added.reverse := by
  cases capacity with
  | none => rfl
  | some n => simp [lastOf, newest, List.rtake_eq_reverse_take_reverse]

/-- A sink that was empty holds the last events that it took, the newest first. -/
theorem takeAll_memory (capacity : Option Nat) (added : List EventRecord) :
    (memory capacity []).takeAll added = memory capacity (lastOf capacity added).reverse := by
  induction added using List.reverseRecOn with
  | nil => cases capacity <;> simp [takeAll, lastOf]
  | append_singleton added r ih =>
    -- The event in front of those that stayed is cut just as in front of all.
    have htake : (memory capacity (lastOf capacity added).reverse).take r =
        memory capacity (newest capacity (r :: (lastOf capacity added).reverse)) := rfl
    have hone (sink : Sink) : sink.takeAll [r] = sink.take r := rfl
    rw [takeAll_append, ih, hone, htake, reverse_lastOf, reverse_lastOf, newest_cons_newest]
    simp

theorem lastOf_suffix (capacity : Option Nat) (added : List EventRecord) :
    lastOf capacity added <:+ added := by
  cases capacity with
  | none => exact List.suffix_refl added
  | some n => exact List.drop_suffix _ added

theorem length_lastOf_le {capacity : Option Nat} {n : Nat} (hn : n ∈ capacity)
    (added : List EventRecord) : (lastOf capacity added).length ≤ n := by
  obtain rfl := Option.mem_def.mp hn
  simp [lastOf, List.rtake]
  omega

theorem recent_eq_upTo (sink : Sink) (limit : Int) :
    sink.recent (some limit) = upTo limit sink.events := by
  unfold recent upTo
  dsimp only
  split
  · next h => rw [← Int.toNat_of_nonneg h, Int.natAbs_natCast, Int.toNat_natCast]
  · rfl

theorem upTo_prefix (limit : Int) (events : List EventRecord) : upTo limit events <+: events := by
  unfold upTo
  split
  · exact List.take_prefix _ events
  · exact List.take_prefix _ events

end Sink

namespace World

open Telemetry.Action

variable {w : World} {id : ServiceId} {sink : Sink}

/-! ## What is added -/

/-- The events that the sink of a service is handed in some steps, if it is kept with that
service. -/
def addedTo (w : World) (id : ServiceId) (steps : List Step) : List EventRecord :=
  handedTo id ((w.run steps).deliveries.drop w.deliveries.length)

theorem addedTo_of_handed {steps : List Step} {trace : List (ServiceId × EventRecord)}
    (h : Handed w trace (w.run steps)) : w.addedTo id steps = handedTo id trace := by
  rw [addedTo, h.deliveries, List.drop_left]

/-- A service goes on with its sink, which takes what is added. -/
theorem sink?_run (hsink : w.sink? id = some (id, sink)) (steps : List Step) :
    (w.run steps).sink? id = some (id, sink.takeAll (w.addedTo id steps)) := by
  obtain ⟨trace, hhanded⟩ := handed_run w steps
  rw [addedTo_of_handed hhanded]
  exact hhanded.sink? hsink

/-- What is handed to a service that is there is added, also if it cannot be reported. -/
theorem addedTo_append_submit (hsink : w.sink? id = some (id, sink)) (steps : List Step)
    (r : EventRecord) :
    w.addedTo id (steps ++ [.submit id r]) = w.addedTo id steps ++ [r] := by
  have hsink' := sink?_run hsink steps
  obtain ⟨service, hs, -, hkept⟩ := sink?_eq_some_iff.mp hsink'
  obtain ⟨trace, hhanded⟩ := handed_run w steps
  have hsubmit : Handed (w.run steps) [(id, r)] ((w.run steps).step (.submit id r)).2 := by
    rw [step_submit, run_submit _ hs hsink']
    have hdelivered := handed_delivered hkept r
    split <;> exact hdelivered.trans (.of_eq rfl rfl)
  have hboth : Handed w (trace ++ [(id, r)]) (w.run (steps ++ [.submit id r])) := by
    rw [run_append]
    exact hhanded.trans hsubmit
  rw [addedTo_of_handed hboth, addedTo_of_handed hhanded, handedTo_append, handedTo_self]

/-! ## Listings -/

theorem step_recent {keeper : ServiceId} (hsink : w.sink? id = some (keeper, sink))
    (limit : Option Int) :
    w.step (.recent id limit) = (.ok (.records (sink.recent limit)), w) := by
  have hlookup : Action.run (sinkOf id) w = (.ok (keeper, sink), w) := run_expect_some _ hsink
  have hrecent : Action.run (recent id limit) w = (.ok (sink.recent limit), w) :=
    run_bind_ok _ hlookup
  exact run_bind_ok _ hrecent

theorem step_of_lists {s : Step} (h : s.lists = true) : (w.step s).2 = w := by
  cases s with
  | recent id limit =>
    cases hsink : w.sink? id with
    | some found => rw [step_recent hsink]
    | none =>
      have hrecent : Action.run (recent id limit) w = (.error .unknownHandle, w) :=
        run_bind_error _ (run_expect_none _ hsink)
      exact congrArg Prod.snd (run_bind_error _ hrecent)
  | _ => cases h

theorem run_filter_lists (w : World) (steps : List Step) :
    w.run (steps.filter fun s => !s.lists) = w.run steps := by
  induction steps generalizing w with
  | nil => rfl
  | cons s steps ih =>
    cases h : s.lists with
    | true =>
      have hrun : w.run (s :: steps) = (w.step s).2.run steps := rfl
      simp [h, hrun, step_of_lists h, ih]
    | false =>
      simp only [List.filter_cons, h]
      exact ih (w.step s).2

/-- What a service lists whose memory sink was empty when the steps began. -/
theorem step_recent_of_run {capacity : Option Nat}
    (hsink : w.sink? id = some (id, .memory capacity [])) (steps : List Step) (limit : Int) :
    (w.run steps).step (.recent id (some limit)) =
        (.ok (.records (Sink.upTo limit (Sink.lastOf capacity (w.addedTo id steps)).reverse)),
          w.run steps) ∧
      (w.run steps).heldBy id = (Sink.lastOf capacity (w.addedTo id steps)).reverse := by
  have hsink' := sink?_run hsink steps
  rw [Sink.takeAll_memory] at hsink'
  rw [step_recent hsink', heldBy, hsink', Option.elim_some, Sink.recent_eq_upTo]
  exact ⟨rfl, rfl⟩

/-! ## From the opening on -/

variable {bound : Option Int} {session push : Option Source} {sessionId : Datum}

theorem exists_sink_of_opening
    (h : (w.step (.openService id (some (.memory bound)) session push sessionId)).1 =
      .ok (.service id)) :
    w.services.get? id = none ∧ ∃ sink, Sink.ofCapacity bound = .ok sink ∧
      (w.step (.openService id (some (.memory bound)) session push sessionId)).2.sink? id =
        some (id, sink) := by
  rw [step_openService] at h ⊢
  rcases hopen : Action.run (openService id (some (.memory bound)) session push sessionId) w
    with ⟨fault | i, w'⟩
  · rw [hopen] at h
    cases h
  · obtain ⟨-, hfree, service, w₁, hmake, rfl⟩ := exists_service_of_run_openService hopen
    obtain ⟨w₂, hsinkFor, -, -⟩ := exists_sink_of_run_makeService hmake
    obtain ⟨sink, w₃, hlift, hanswer⟩ := run_bind_eq_ok_iff.mp hsinkFor
    have hown : .own sink = service.sink := Except.ok.inj (congrArg Prod.fst hanswer)
    exact ⟨hfree, sink, congrArg Prod.fst hlift,
      sink?_of_own (Registry.get?_put_self ..) hown.symm⟩

theorem isOk_opening (hfree : w.services.get? id = none)
    (hmake : Sink.ofCapacity bound = .ok sink) :
    (w.step (.openService id (some (.memory bound)) session push sessionId)).1 =
      .ok (.service id) := by
  have hlift : Action.run (lift (Sink.ofCapacity bound)) w = (.ok sink, w) :=
    congrArg (·, w) hmake
  have hsinkFor : Action.run (sinkFor (some (.memory bound))) w = (.ok (.own sink), w) :=
    run_bind_ok _ hlift
  have hservice : ∃ service w₁,
      Action.run (makeService (some (.memory bound)) session push sessionId) w =
        (.ok service, w₁) := by
    by_cases hvoid : sessionId.isVoid
    · have hsession : Action.run (sessionIdOr sessionId) w =
          (.ok (.text (w.host.sessionId w.sessions)), { w with sessions := w.sessions + 1 }) :=
        if_pos hvoid
      exact ⟨_, _, (run_bind_ok _ hsinkFor).trans (run_bind_ok _ hsession)⟩
    · have hsession : Action.run (sessionIdOr sessionId) w = (.ok sessionId, w) := if_neg hvoid
      exact ⟨_, _, (run_bind_ok _ hsinkFor).trans (run_bind_ok _ hsession)⟩
  obtain ⟨service, w₁, hservice⟩ := hservice
  rw [step_openService, run_openService hfree, hservice]
  rfl

/--
A service is opened with a memory sink of any capacity that there can be. From then on, whatever
steps are taken, it lists the last events that were added, the newest first, up to the limit, and
never holds more than its capacity. A listing changes nothing and may be left out of the steps, and
an event that is handed to the service is added behind all others.
-/
theorem listing_of_run (w : World) (id : ServiceId) (bound : Option Int)
    (session push : Option Source) (sessionId : Datum) :
    let opening := w.step (.openService id (some (.memory bound)) session push sessionId)
    (opening.1 = .ok (.service id) ↔
      w.services.get? id = none ∧ ∀ n ∈ bound, 0 ≤ n ∧ n ≤ Sink.maxCapacity) ∧
    (opening.1 = .ok (.service id) → ∀ (steps : List Step) (limit : Int),
      let after := opening.2.run steps
      let added := opening.2.addedTo id steps
      let kept := (Sink.lastOf (bound.map Int.toNat) added).reverse
      after.step (.recent id (some limit)) = (.ok (.records (Sink.upTo limit kept)), after) ∧
      Sink.upTo limit kept <+: added.reverse ∧
      after.heldBy id = kept ∧
      (∀ n ∈ bound, ((after.heldBy id).length : ℤ) ≤ n) ∧
      opening.2.run (steps.filter fun s => !s.lists) = after ∧
      ∀ r, opening.2.addedTo id (steps ++ [.submit id r]) = added ++ [r]) := by
  intro opening
  refine ⟨?_, ?_⟩
  · constructor
    · intro h
      obtain ⟨hfree, sink, hmake, -⟩ := exists_sink_of_opening h
      exact ⟨hfree, (ofCapacity_eq_memory_iff.mp hmake).1⟩
    · rintro ⟨hfree, hfits⟩
      exact isOk_opening hfree (ofCapacity_eq_memory_iff.mpr ⟨hfits, rfl⟩)
  · intro h steps limit after added kept
    obtain ⟨-, sink, hmake, hsink⟩ := exists_sink_of_opening h
    obtain ⟨hfits, rfl⟩ := ofCapacity_eq_memory_iff.mp hmake
    obtain ⟨hlisted, hheld⟩ := step_recent_of_run hsink steps limit
    have hsuffix := Sink.lastOf_suffix (bound.map Int.toNat) added
    refine ⟨hlisted, (Sink.upTo_prefix limit kept).trans (List.reverse_prefix.mpr hsuffix), hheld,
      ?_, run_filter_lists _ steps, addedTo_append_submit hsink steps⟩
    intro n hn
    obtain rfl := Option.mem_def.mp hn
    have hlength : (Sink.lastOf (some n.toNat) added).length ≤ n.toNat :=
      Sink.length_lastOf_le rfl added
    rw [hheld, List.length_reverse]
    exact (Int.ofNat_le.mpr hlength).trans (Int.toNat_of_nonneg (hfits n rfl).1).le

/-- An event that has no more than a name. -/
def nameOnly (name : Text) : EventRecord :=
  ⟨name, none, none, none, none, none, none, name, Binary64.zero false⟩

/-- Of three events a sink for two has lost the oldest, and the older of the others is left out. -/
theorem listing_of_run_oldest_left_out :
    let opening := (fresh stillHost ⟨[], none⟩).step
      (.openService (.named 0) (some (.memory (some 2))) none none (.text "session"))
    let after := opening.2.run [.submit (.named 0) (nameOnly "a"),
      .submit (.named 0) (nameOnly "b"), .recent (.named 0) none,
      .submit (.named 0) (nameOnly "c")]
    opening.1 = .ok (.service (.named 0)) ∧
      after.step (.recent (.named 0) (some (-1))) = (.ok (.records [nameOnly "c"]), after) := by
  intro opening after
  obtain ⟨hopens, hlists⟩ := listing_of_run (fresh stillHost ⟨[], none⟩) (.named 0) (some 2) none
    none (.text "session")
  have hopen : opening.1 = .ok (.service (.named 0)) := hopens.mpr ⟨rfl, by simp; decide⟩
  exact ⟨hopen, (hlists hopen _ (-1)).1⟩

end World

end Telemetry
