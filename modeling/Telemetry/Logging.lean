import Telemetry.LogLine

/-!
# Logging

Log lines are made in the format that was set up last, with one exception. Every part of the library
writes with a logger of its own, and from its first entry after something was set up a logger keeps
the format of that entry, whatever is set up later. Only a start is reported with a logger made for
the occasion. As long as nothing was set up every entry is made and no logger keeps anything.
-/

namespace Telemetry

/-- The loggers that parts of the library write with. -/
inductive Logger where
  | drafts
  | attribution
  | services
  | memorySinks
  | logSinks
  deriving DecidableEq

/-- The logger that an entry is written with; none if it is one made for the occasion. -/
def Entry.logger? : Entry → Option Logger
  | validationFailed .. | eventCreated .. => some .drafts
  | attributionResolved _ => some .attribution
  | eventAdded .. | logSinkSelected | memorySinkSelected _ => some .services
  | kept .. => some .memorySinks
  | written _ => some .logSinks
  | started .. => none

/-- How log lines are made. -/
structure Logging where
  /-- The format as it was set up last. -/
  newest : Option LogFormat
  /-- The formats that loggers keep. -/
  kept : Logger → Option LogFormat

namespace Logging

/-- Nothing was set up. -/
def unset : Logging := ⟨none, fun _ => none⟩

/-- Sets up a format. -/
def setUp (l : Logging) (f : LogFormat) : Logging := { l with newest := some f }

/-- Gives a logger a format to keep. -/
def keep (l : Logging) (logger : Logger) (format : Option LogFormat) : Logging :=
  { l with kept := fun other => if other = logger then format else l.kept other }

/-- The format that a logger writes in; without a name it is one made for the occasion. -/
def format (l : Logging) (logger : Option Logger) : Option LogFormat :=
  (logger.bind l.kept).or l.newest

/-- The format that an entry is written in. -/
def formatOf (l : Logging) (e : Entry) : Option LogFormat := l.format e.logger?

/-- The logger of an entry keeps the format that this is written in. -/
def use (l : Logging) (e : Entry) : Logging :=
  match e.logger? with
  | some logger => l.keep logger (l.formatOf e)
  | none => l

/-- Whether a logger makes entries of a severity: it is high enough, or nothing was set up. -/
def makes (l : Logging) (logger : Option Logger) (severity : Severity) : Bool :=
  (l.format logger).all fun f => LogLine.isPrinted f severity

/-- The entry, if it is made. -/
def made (l : Logging) (e : Entry) : List Entry := if l.makes e.logger? e.severity then [e] else []

/-- Fails where the line of an entry cannot be printed. -/
def check (l : Logging) (e : Entry) : Except Fault Unit :=
  (l.formatOf e).elim (.ok ()) fun f => LogLine.check f e

end Logging

end Telemetry
