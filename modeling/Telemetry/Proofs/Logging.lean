import Telemetry.Logging
import Telemetry.Proofs.LogLine

/-!
# What loggers keep

A logger that comes to keep a format keeps the one in which it writes anyway, so writing changes the
format of no logger (`Logging.agrees_use`). What a logger keeps matters for its own entries alone
(`Logging.format_keep_of_ne`).
-/

namespace Telemetry

namespace Logging

/-- Every logger writes in the same format. -/
def Agrees (l l' : Logging) : Prop := ∀ logger, l.format logger = l'.format logger

theorem Agrees.refl (l : Logging) : l.Agrees l := fun _ => rfl

theorem Agrees.symm {l l' : Logging} (h : l.Agrees l') : l'.Agrees l :=
  fun logger => (h logger).symm

theorem Agrees.trans {l l' l'' : Logging} (h : l.Agrees l') (h' : l'.Agrees l'') :
    l.Agrees l'' := fun logger => (h logger).trans (h' logger)

section

variable {l l' : Logging} (h : l.Agrees l')

include h

/-- A logger that is made for the occasion writes in the newest format. -/
theorem Agrees.newest : l.newest = l'.newest := h none

theorem Agrees.makes (logger : Option Logger) (severity : Severity) :
    l.makes logger severity = l'.makes logger severity := by
  unfold Logging.makes
  rw [h logger]

theorem Agrees.made (e : Entry) : l.made e = l'.made e := by
  unfold Logging.made
  rw [h.makes]

theorem Agrees.check (e : Entry) : l.check e = l'.check e := by
  unfold Logging.check Logging.formatOf
  rw [h e.logger?]

end

variable (l : Logging)

theorem eq_of_mem_made {e e' : Entry} (h : e' ∈ l.made e) : e' = e := by
  unfold made at h
  split at h
  · exact List.mem_singleton.mp h
  · cases h

theorem newest_use (e : Entry) : (l.use e).newest = l.newest := by
  unfold use
  cases e.logger? <;> rfl

/-- Writing an entry changes the format of no logger. -/
theorem agrees_use (e : Entry) : (l.use e).Agrees l := by
  intro other
  unfold use
  cases hlogger : e.logger? with
  | none => rfl
  | some logger =>
    unfold formatOf format keep
    cases other with
    | none => rfl
    | some other =>
      by_cases hsame : other = logger
      -- Its logger has come to keep the newest format, or has kept another all along.
      · simp [hlogger, hsame]
        cases l.kept logger <;> simp
      · simp [hsame]

section

variable {logger : Logger}

theorem keep_kept : l.keep logger (l.kept logger) = l := by
  obtain ⟨newest, kept⟩ := l
  refine congrArg (Logging.mk newest) (funext fun other => ?_)
  dsimp only
  split
  · next h => rw [h]
  · rfl

theorem keep_keep (f f' : Option LogFormat) :
    (l.keep logger f).keep logger f' = l.keep logger f' := by
  refine congrArg (Logging.mk l.newest) (funext fun other => ?_)
  dsimp only [keep]
  split <;> rfl

/-- After its own entry a logger keeps the format of that entry. -/
theorem use_keep {e : Entry} (h : e.logger? = some logger) (f : Option LogFormat) :
    (l.keep logger f).use e = l.keep logger ((l.keep logger f).formatOf e) := by
  rw [use, h]
  exact l.keep_keep ..

theorem keep_comm {logger' : Logger} (h : logger ≠ logger') (f f' : Option LogFormat) :
    (l.keep logger f).keep logger' f' = (l.keep logger' f').keep logger f := by
  refine congrArg (Logging.mk l.newest) (funext fun other => ?_)
  dsimp only [keep]
  split
  · next hother => rw [if_neg (fun hlogger => h (hlogger.symm.trans hother))]
  · rfl

variable {e : Entry} (h : e.logger? ≠ some logger) (f : Option LogFormat)

include h

/-- What a logger keeps does not matter for the entries of another. -/
theorem format_keep_of_ne : (l.keep logger f).format e.logger? = l.format e.logger? := by
  unfold format keep
  cases hlogger : e.logger? with
  | none => rfl
  | some other =>
    have hne : other ≠ logger := fun heq => h (hlogger.trans (congrArg some heq))
    simp [hne]

theorem use_keep_of_ne : (l.keep logger f).use e = (l.use e).keep logger f := by
  unfold use formatOf
  rw [l.format_keep_of_ne h]
  cases hlogger : e.logger? with
  | none => rfl
  | some other =>
    have hne : other ≠ logger := fun heq => h (hlogger.trans (congrArg some heq))
    exact l.keep_comm (Ne.symm hne) f _

theorem made_keep_of_ne : (l.keep logger f).made e = l.made e := by
  unfold made makes
  rw [l.format_keep_of_ne h]

theorem check_keep_of_ne : (l.keep logger f).check e = l.check e := by
  unfold check formatOf
  rw [l.format_keep_of_ne h]

end

/-! ## Lines that can be printed -/

/-- An entry whose fields can be written can be printed, whatever was set up. -/
theorem check_eq_ok {e : Entry} (h : e.IsPlain) : l.check e = .ok () := by
  unfold check
  cases l.formatOf e with
  | none => rfl
  | some f => exact LogLine.check_eq_ok h f

/-- Entries that are written alike are printed alike. -/
theorem check_eq_of_writtenLike {e e' : Entry} (h : e.WrittenLike e') : l.check e = l.check e' := by
  unfold check formatOf
  rw [h.logger]
  cases l.format e'.logger? with
  | none => rfl
  | some f => exact LogLine.check_eq_of_writtenLike h f

end Logging

/-! ## Entries about services and sources -/

/-- The entry speaks of services and sources, and of no draft and no event. -/
def Entry.IsBackground : Entry → Prop
  | attributionResolved _ | logSinkSelected | memorySinkSelected _ | started .. => True
  | _ => False

theorem Entry.IsBackground.logger?_ne {e : Entry} (h : e.IsBackground) :
    e.logger? ≠ some .drafts := by
  cases e with
  | attributionResolved | logSinkSelected | memorySinkSelected | started => exact nofun
  | _ => exact h.elim

end Telemetry
