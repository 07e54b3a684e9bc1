import Mathlib.Data.Set.BooleanAlgebra
import Mathlib.Order.CompletePartialOrder
import Telemetry.Proofs.World.InStep

/-!
# Two parties take turns

Two parties have nothing in common, and each step works with what belongs to the party that takes
it. However their steps are mixed, a party is in the same position as if it were alone
(`World.alike_run`): what the other does spares everything that belongs to it. So every step ends
and goes on in the same way as in the party's own run, and the metrics, which are the one thing that
both write to, show the sums (`World.interleaving`).
-/

namespace Telemetry

structure Belongings.Apart (mine yours : Belongings) : Prop where
  services : Disjoint mine.services yours.services
  resolvers : Disjoint mine.resolvers yours.resolvers
  drafts : Disjoint mine.drafts yours.drafts

theorem Belongings.Apart.symm {mine yours : Belongings} (h : mine.Apart yours) :
    yours.Apart mine := ⟨h.services.symm, h.resolvers.symm, h.drafts.symm⟩

inductive Side where
  | left
  | right
  deriving DecidableEq

/-- The steps of two parties in the order in which they are taken. -/
abbrev Turns := List (Side × Step)

namespace Turns

def steps (turns : Turns) : List Step := turns.map Prod.snd

/-- The steps of one of the parties. -/
def stepsOf (side : Side) (turns : Turns) : List Step :=
  (turns.filter fun turn => turn.1 = side).map Prod.snd

theorem steps_append_one (turns : Turns) (side : Side) (s : Step) :
    steps (turns ++ [(side, s)]) = turns.steps ++ [s] := List.map_append

theorem stepsOf_append_one (turns : Turns) (side : Side) (s : Step) :
    stepsOf side (turns ++ [(side, s)]) = turns.stepsOf side ++ [s] := by
  simp [stepsOf]

theorem stepsOf_append_other (turns : Turns) {side other : Side} (h : other ≠ side) (s : Step) :
    stepsOf side (turns ++ [(other, s)]) = turns.stepsOf side := by
  simp [stepsOf, h]

end Turns

namespace World

open Telemetry.Action

variable {mine yours : Belongings} {u v u' w : World}

/--
From both worlds the step ends in the same way, up to ids and times, the party has the same drafts
and services afterwards, and the same questions were put to sources.
-/
structure SameStep (mine : Belongings) (s : Step) (u v : World) : Prop where
  outcome : (u.step s).1.map Outcome.unstamped = (v.step s).1.map Outcome.unstamped
  drafts : ∀ id ∈ mine.drafts, (u.step s).2.drafts.get? id = (v.step s).2.drafts.get? id
  services : ∀ id ∈ mine.services, ((u.step s).2.services.get? id).map Service.unstamped =
    ((v.step s).2.services.get? id).map Service.unstamped
  resolvers : ∀ id ∈ mine.resolvers,
    (u.step s).2.resolvers.get? id = (v.step s).2.resolvers.get? id
  inquiries : ∃ trace, (u.step s).2.inquiries = u.inquiries ++ trace ∧
    (v.step s).2.inquiries = v.inquiries ++ trace

theorem Alike.moved_step (h : Alike mine u v) {s : Step} (hs : s.Uses mine) :
    Moved mine u v (u.step s).2 (v.step s).2 := (inStep_step h hs).moved

theorem Alike.sameStep (h : Alike mine u v) {s : Step} (hs : s.Uses mine) :
    SameStep mine s u v where
  outcome := (inStep_step h hs).endAlike.map_eq
  drafts := (h.moved_step hs).alike.drafts
  services := (h.moved_step hs).alike.services
  resolvers := (h.moved_step hs).alike.resolvers
  inquiries := (h.moved_step hs).inquiries

/-- What spares the belongings of a party does not move it. -/
theorem Alike.of_spares (h : Alike mine u v) (hspares : Spares yours u u')
    (hapart : mine.Apart yours) : Alike mine u' v := by
  have hdrafts {id : DraftId} (hid : id ∈ mine.drafts) : u'.drafts.get? id = u.drafts.get? id :=
    hspares.drafts id (Set.disjoint_left.mp hapart.drafts hid)
  have hservices {id : ServiceId} (hid : id ∈ mine.services) :
      u'.services.get? id = u.services.get? id :=
    hspares.services id (Set.disjoint_left.mp hapart.services hid)
  refine ⟨hspares.logging.trans h.logging, fun id hid => ?_, fun id hid => ?_, fun id hid => ?_,
    ⟨fun id hid s hs => ?_, fun id hid d hd => ?_⟩⟩
  · rw [hservices hid, h.services id hid]
  · rw [hspares.resolvers id (Set.disjoint_left.mp hapart.resolvers hid), h.resolvers id hid]
  · rw [hdrafts hid, h.drafts id hid]
  · exact h.closed.services id hid s (hservices hid ▸ hs)
  · exact h.closed.drafts id hid d (hdrafts hid ▸ hd)

theorem run_append_one (w : World) (steps : List Step) (s : Step) :
    w.run (steps ++ [s]) = ((w.run steps).step s).2 := w.run_append steps [s]

section

variable {own : Side → Belongings} (hapart : (own .left).Apart (own .right))
  (hown : ∀ side, (own side).Closed w)

include hapart hown

/-- However the steps are mixed, each party finds what it would find if it were alone. -/
theorem alike_run {turns : Turns} (huses : ∀ turn ∈ turns, turn.2.Uses (own turn.1)) (side : Side) :
    Alike (own side) (w.run turns.steps) (w.run (turns.stepsOf side)) := by
  induction turns using List.reverseRecOn generalizing side with
  | nil => exact ⟨.refl _, fun _ _ => rfl, fun _ _ => rfl, fun _ _ => rfl, hown side⟩
  | append_singleton turns turn ih =>
    obtain ⟨other, s⟩ := turn
    have hs : s.Uses (own other) := huses (other, s) (by simp)
    have hbefore (side : Side) := ih (fun turn hturn => huses turn (by simp [hturn])) side
    rw [Turns.steps_append_one, run_append_one]
    -- The last turn is one of the party's own, or it spares what belongs to the party.
    by_cases hside : other = side
    · subst hside
      rw [Turns.stepsOf_append_one, run_append_one]
      exact ((hbefore other).moved_step hs).alike
    · rw [Turns.stepsOf_append_other turns hside]
      refine (hbefore side).of_spares ((hbefore other).moved_step hs).spares ?_
      cases side <;> cases other
      · exact absurd rfl hside
      · exact hapart
      · exact hapart.symm
      · exact absurd rfl hside

theorem exists_recordings {turns : Turns} (huses : ∀ turn ∈ turns, turn.2.Uses (own turn.1)) :
    ∃ (mixed : List Recording) (apart : Side → List Recording),
      mixed.Perm (apart .left ++ apart .right) ∧
      (w.run turns.steps).metrics = w.metrics.recordAll mixed ∧
      ∀ side, (w.run (turns.stepsOf side)).metrics = w.metrics.recordAll (apart side) := by
  induction turns using List.reverseRecOn with
  | nil => exact ⟨[], fun _ => [], .nil, rfl, fun _ => rfl⟩
  | append_singleton turns turn ih =>
    obtain ⟨side, s⟩ := turn
    have hs : s.Uses (own side) := huses (side, s) (by simp)
    have hturns : ∀ turn ∈ turns, turn.2.Uses (own turn.1) :=
      fun turn hturn => huses turn (by simp [hturn])
    obtain ⟨mixed, apart, hperm, hmixed, hsides⟩ := ih hturns
    obtain ⟨recordings, hu, hv⟩ := ((alike_run hapart hown hturns side).moved_step hs).metrics
    -- What the last step records goes behind the recordings of its party.
    refine ⟨mixed ++ recordings, Function.update apart side (apart side ++ recordings), ?_, ?_, ?_⟩
    · have hboth := hperm.append_right recordings
      rw [List.append_assoc] at hboth
      cases side with
      | left =>
        have hne : Side.right ≠ .left := nofun
        rw [Function.update_self, Function.update_of_ne hne, List.append_assoc]
        refine hboth.trans ?_
        exact List.perm_append_comm.append_left (apart .left)
      | right =>
        have hne : Side.left ≠ .right := nofun
        rw [Function.update_of_ne hne, Function.update_self]
        exact hboth
    · rw [Turns.steps_append_one, run_append_one, hu, hmixed, Metrics.recordAll_append]
    · intro other
      by_cases hside : side = other
      · subst hside
        rw [Turns.stepsOf_append_one, run_append_one, hv, hsides, Function.update_self,
          Metrics.recordAll_append]
      · rw [Turns.stepsOf_append_other turns hside, hsides, Function.update_of_ne (Ne.symm hside)]

end

/--
Two parties that have nothing in common take turns, in any order. Every step is the same as in the
run of the party alone, where it follows the earlier steps of that party only: it ends alike, leaves
the party the same and asks its sources the same. In the end each counter and each bucket has grown
by as much as in the two runs together.
-/
theorem interleaving (w : World) (own : Side → Belongings)
    (hapart : (own .left).Apart (own .right))
    (hown : ∀ side, (own side).Closed w)
    (turns : Turns) (huses : ∀ turn ∈ turns, turn.2.Uses (own turn.1)) :
    (∀ (earlier : Turns) (side : Side) (s : Step) (later : Turns),
      turns = earlier ++ (side, s) :: later →
        turns.stepsOf side = earlier.stepsOf side ++ s :: later.stepsOf side ∧
        SameStep (own side) s (w.run earlier.steps) (w.run (earlier.stepsOf side))) ∧
    (∀ c, (w.run turns.steps).metrics.reading c + w.metrics.reading c =
      (w.run (turns.stepsOf .left)).metrics.reading c +
        (w.run (turns.stepsOf .right)).metrics.reading c) ∧
    (w.metrics = .fresh → ∀ c, (w.run turns.steps).metrics.reading c =
      (w.run (turns.stepsOf .left)).metrics.reading c +
        (w.run (turns.stepsOf .right)).metrics.reading c) := by
  have hreading (c : Counter) : (w.run turns.steps).metrics.reading c + w.metrics.reading c =
      (w.run (turns.stepsOf .left)).metrics.reading c +
        (w.run (turns.stepsOf .right)).metrics.reading c := by
    obtain ⟨mixed, apart, hperm, hmixed, hsides⟩ := exists_recordings hapart hown huses
    rw [hmixed, hsides, hsides]
    exact w.metrics.reading_recordAll_of_perm hperm c
  refine ⟨fun earlier side s later hturns => ⟨?_, ?_⟩, hreading, fun hfresh c => ?_⟩
  · simp [hturns, Turns.stepsOf]
  · subst hturns
    have hearlier : ∀ turn ∈ earlier, turn.2.Uses (own turn.1) :=
      fun turn hturn => huses turn (List.mem_append_left _ hturn)
    exact (alike_run hapart hown hearlier side).sameStep
      (huses (side, s) (List.mem_append_right _ List.mem_cons_self))
  · have hsum := hreading c
    rwa [hfresh, Metrics.reading_fresh, Nat.add_zero] at hsum

/-- A fresh world with a host that counts. -/
def counting : World := fresh ⟨Text.ofNat, Text.ofNat, Binary64.ofNat⟩ ⟨[], none⟩

/-- Each party has one service and one draft. -/
def oneEach : Side → Belongings
  | .left => ⟨{.named 0}, ∅, {⟨0⟩}⟩
  | .right => ⟨{.named 1}, ∅, {⟨1⟩}⟩

/-- One party has a pending conversion, the other adds an event whose value was refused. -/
def refundFirst : Turns :=
  [(.left, .openService (.named 0) (some .log) none none .null),
    (.right, .openService (.named 1) (some (.memory none)) none none .null),
    (.right, .openDraft ⟨1⟩ (.text "refund") (some (.named 1)) none),
    (.left, .openDraft ⟨0⟩ (.text "purchase") (some (.named 0)) none),
    (.left, .setConversion (.named 0) (.text "push-1")),
    (.right, .setEventValue ⟨1⟩ (.decimal (.infinity false))),
    (.right, .add ⟨1⟩)]

/-- The event of one party is the same after the event of the other, and both are counted. -/
theorem interleaving_refundFirst :
    SameStep (oneEach .left) (.add ⟨0⟩) (counting.run (Turns.steps refundFirst))
        (counting.run (Turns.stepsOf .left refundFirst)) ∧
      (counting.run (Turns.steps (refundFirst ++ [(.left, .add ⟨0⟩)]))).metrics.created = 2 := by
  have hapart : (oneEach .left).Apart (oneEach .right) := by
    refine ⟨?_, Set.disjoint_empty _, ?_⟩
    · exact Set.disjoint_singleton.mpr (by decide)
    · exact Set.disjoint_singleton.mpr (by decide)
  have hown : ∀ side, (oneEach side).Closed counting := fun _ =>
    ⟨fun _ _ s hs => absurd hs (Option.not_mem_none s),
      fun _ _ d hd => absurd hd (Option.not_mem_none d)⟩
  have huses : ∀ turn ∈ refundFirst ++ [(.left, .add ⟨0⟩)], turn.2.Uses (oneEach turn.1) := by
    simp [refundFirst, oneEach, Step.Uses, Belongings.Grants]
  obtain ⟨hsteps, -, hsum⟩ := interleaving counting oneEach hapart hown _ huses
  refine ⟨(hsteps refundFirst .left (.add ⟨0⟩) [] rfl).2, ?_⟩
  exact (hsum rfl .created).trans rfl

end World

end Telemetry
