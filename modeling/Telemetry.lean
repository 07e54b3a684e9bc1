import Telemetry.Json.Writer
import Telemetry.Proofs.EventValue.Exact
import Telemetry.World.Step
import Telemetry.Proofs.Decimal.Spelling
import Telemetry.Proofs.Binary64.Layout
import Telemetry.Proofs.EventValue.Representation
import Telemetry.Proofs.Draft.Write
import Telemetry.Proofs.EventRecord.Valid
import Telemetry.Proofs.LogLine
import Telemetry.Proofs.Draft.Valid
import Telemetry.Proofs.Attribution
import Telemetry.Proofs.World.Apart
import Telemetry.Proofs.World.Drafts
import Telemetry.Proofs.Draft.Calls
import Telemetry.Proofs.World.Creation
import Telemetry.Proofs.World.Calls
import Telemetry.Proofs.Binary64.Magnitude
import Telemetry.Proofs.Binary64.Nearest
import Telemetry.Proofs.Binary64.Shortest
import Telemetry.Proofs.Binary64.Rounding
import Telemetry.Proofs.EventValue.RoundTrip
import Telemetry.Proofs.World.Changes
import Telemetry.Proofs.World.Linked
import Telemetry.Proofs.World.Inquiries
import Telemetry.Proofs.World.Attribution
import Telemetry.Proofs.World.Finalized
import Telemetry.Proofs.World.Adding
import Telemetry.Json.Reader
import Telemetry.Proofs.Json.Reader
import Telemetry.Proofs.EventRecord.Admission
import Telemetry.Proofs.EventRecord.Json
import Telemetry.Proofs.World.Agreement
import Telemetry.Proofs.World.Counts
import Telemetry.Proofs.World.Routing
import Telemetry.Proofs.EventValue.Numerals
import Telemetry.Proofs.World.Shared
import Telemetry.Proofs.World.Retry
import Telemetry.Proofs.Unstamped
import Telemetry.Proofs.World.InStep
import Telemetry.Proofs.World.Interleaving
import Telemetry.Proofs.EventRecord.Payload
import Telemetry.Proofs.EventRecord.Problems
import Telemetry.Proofs.EventValue.Outcome
import Telemetry.Proofs.World.DefaultSink
import Telemetry.Proofs.World.Rejections
import Telemetry.Proofs.World.Retention
import Telemetry.Proofs.World.Consulting
import Telemetry.Proofs.World.Snapshot
import Telemetry.Proofs.Binary64.Fewest
import Telemetry.Proofs.Decimal.Significant
import Telemetry.Proofs.EventValue.Floats
import Telemetry.Proofs.Binary64.Sum
import Telemetry.Proofs.Histogram
import Telemetry.Proofs.Samples
import Telemetry.Proofs.World.Recordings
import Telemetry.Proofs.Text.Utf16
import Telemetry.Proofs.Binary64.Fixed
import Telemetry.Proofs.EventRecord.Time
import Telemetry.Proofs.LogLine.Precedence
