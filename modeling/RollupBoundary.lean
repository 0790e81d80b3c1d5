import RollupBoundary.Abi.Encode
import RollupBoundary.Report
import RollupBoundary.Wire.Transport
import RollupBoundary.Wire.Value
import RollupBoundary.Proofs.Text.Utf8
import RollupBoundary.Proofs.Abi.Word
import RollupBoundary.Proofs.Abi.Value
import RollupBoundary.Proofs.Abi.Layout
import RollupBoundary.Proofs.Abi.Cursor
import RollupBoundary.Proofs.Abi.RoundTrip
import RollupBoundary.Proofs.Abi.Places
import RollupBoundary.Proofs.Abi.Words
import RollupBoundary.Proofs.Abi.Trailing
import RollupBoundary.Proofs.Abi.Shape
import RollupBoundary.Proofs.Json.Number
import RollupBoundary.Proofs.Json.Token
import RollupBoundary.Proofs.Json.RoundTrip
import RollupBoundary.Proofs.Json.Record
import RollupBoundary.Proofs.Abi.Document
import RollupBoundary.Proofs.Alias.Aliasing
import RollupBoundary.Proofs.Alias.OffsetText
import RollupBoundary.Proofs.Logging.Components
import RollupBoundary.Proofs.Logging.Directives
import RollupBoundary.Proofs.Logging.Deciding
import RollupBoundary.Proofs.Configuration.Partial
import RollupBoundary.Proofs.Configuration.RoundTrip
import RollupBoundary.Proofs.Event.RoundTrip
import RollupBoundary.Proofs.Event.Canonical
import RollupBoundary.Proofs.Event.Flat
import RollupBoundary.Proofs.Event.Shape
import RollupBoundary.Proofs.Event.Fieldwise
import RollupBoundary.Proofs.Event.Dependence
import RollupBoundary.Proofs.Event.Heads
import RollupBoundary.Proofs.Event.Binding
import RollupBoundary.Proofs.Event.ScheduledRedeem
import RollupBoundary.Proofs.Event.Outcomes
import RollupBoundary.Proofs.Wire.Queue
import RollupBoundary.Proofs.Wire.BoundedSink
import RollupBoundary.Proofs.Wire.Reencoding
import RollupBoundary.Proofs.Wire.Truncation
import RollupBoundary.Proofs.Wire.Limit
import RollupBoundary.Proofs.Word.SignedStep
import RollupBoundary.Proofs.Boundary.Message
import RollupBoundary.Proofs.Boundary.WordForm
