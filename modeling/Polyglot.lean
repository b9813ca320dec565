import Polyglot.Main
import Polyglot.Proofs.Json.Reading
import Polyglot.Guard
import Polyglot.Proofs.Wire.GenericType
import Polyglot.Proofs.Envelope.Metadata
import Polyglot.Proofs.Envelope.Answer
import Polyglot.Proofs.Codec.Step
import Polyglot.Proofs.Codec.Termination
import Polyglot.Proofs.Json.Equality
import Polyglot.Proofs.Value.Equality
import Polyglot.Proofs.Codec.Decoding
import Polyglot.Proofs.Codec.WireForms
import Polyglot.Proofs.Codec.RoundTrip
import Polyglot.Proofs.Script.Declared
import Polyglot.Proofs.Codec.Compositional
import Polyglot.Proofs.Worker.Handover
import Polyglot.Proofs.Worker.Reentry
import Polyglot.Proofs.Codec.Inferred
import Polyglot.Proofs.Script.Depth
import Polyglot.Proofs.Script.Nesting
import Polyglot.Cascade
import Polyglot.Proofs.Evaluation.Answers
import Polyglot.Proofs.Evaluation.Race
import Polyglot.Proofs.Exchange.Schedule
import Polyglot.Proofs.Script.Closed
import Polyglot.Proofs.Session.Acts
import Polyglot.Proofs.Worker.Framing
import Polyglot.Proofs.Codec.Found
import Polyglot.Proofs.Codec.Conformance
import Polyglot.Proofs.Request.Rendering
import Polyglot.Proofs.Worker.Dispatched
import Polyglot.Proofs.Request.Positions
import Polyglot.Proofs.Codec.Reordered
import Polyglot.Proofs.Codec.Rewritten
import Polyglot.Proofs.Codec.Interchangeable
import Polyglot.Proofs.Envelope.Attachments
import Polyglot.Proofs.Codec.FiniteMap
import Polyglot.Proofs.Script.Native
import Polyglot.Proofs.Script.Bindings
import Polyglot.Proofs.Script.Lines
import Polyglot.Proofs.Script.Spelling
import Polyglot.Proofs.Script.Rendered
import Polyglot.Proofs.Script.Progress
import Polyglot.Proofs.Script.Arithmetic
import Polyglot.Proofs.Script.Elements
import Polyglot.Proofs.Codec.TypeKey
