import SpanFlow.Act
import SpanFlow.Attribute
import SpanFlow.Call
import SpanFlow.Carrier.Amqp
import SpanFlow.Carrier.Http
import SpanFlow.Carrier.Jms
import SpanFlow.Carrier.Stomp
import SpanFlow.Config
import SpanFlow.Context
import SpanFlow.Decorator
import SpanFlow.Executor.Pool
import SpanFlow.Interceptor
import SpanFlow.Propagation.B3
import SpanFlow.Propagation.TraceContext
import SpanFlow.Proxy
import SpanFlow.Scenario.Report
import SpanFlow.Scope
import SpanFlow.Strategy
import SpanFlow.Task
import SpanFlow.Tracer
import SpanFlow.Proofs.Act.Moves
import SpanFlow.Proofs.World.Frame
import SpanFlow.Proofs.World.Ordinary
import SpanFlow.Proofs.World.Closing
import SpanFlow.Proofs.Guarded.Start
import SpanFlow.Proofs.Scope.Bracket
import SpanFlow.Proofs.Guarded.Stages
import SpanFlow.Proofs.Guarded.Attribution
import SpanFlow.Proofs.Guarded.Once
import SpanFlow.Proofs.Guarded.Hooks
import SpanFlow.Proofs.Guarded.Begun
import SpanFlow.Proofs.Guarded.Transparency
import SpanFlow.Proofs.Guarded.Outcome
import SpanFlow.Proofs.Scope.Balance
import SpanFlow.Proofs.Scope.Tokens
import SpanFlow.Proofs.Scope.Newest
import SpanFlow.Proofs.Span.Frozen
import SpanFlow.Proofs.Text.Hex
import SpanFlow.Proofs.Text.Percent
import SpanFlow.Proofs.Text.Numeral
import SpanFlow.Proofs.Text.Blank
import SpanFlow.Proofs.KeyMap
import SpanFlow.Proofs.Propagation.Entries
import SpanFlow.Proofs.Propagation.B3
import SpanFlow.Proofs.Propagation.TraceContext
import SpanFlow.Proofs.Propagation.ParentGrammar
import SpanFlow.Proofs.Carrier.Faithful
import SpanFlow.Proofs.Propagation.RoundTrip
import SpanFlow.Proofs.Propagation.Forwarding
import SpanFlow.Proofs.Guarded.Continuity
import SpanFlow.Proofs.Carrier.Http
import SpanFlow.Proofs.Propagation.Http
import SpanFlow.Proofs.Executor.Proxy
import SpanFlow.Proofs.Executor.Submission
import SpanFlow.Proofs.Executor.Watching
import SpanFlow.Proofs.Executor.Listening
import SpanFlow.Proofs.Carrier.Others
import SpanFlow.Proofs.Propagation.Tree
import SpanFlow.Proofs.Propagation.Flattening
import SpanFlow.Proofs.Propagation.Untouched
import SpanFlow.Proofs.Carrier.Storage
import SpanFlow.Proofs.Propagation.Insensitive
import SpanFlow.Proofs.Propagation.Replacement
import SpanFlow.Proofs.Strategy.Layers
import SpanFlow.Proofs.Propagation.B3Reading
import SpanFlow.Proofs.Propagation.Refused
import SpanFlow.Proofs.Guarded.Refused
import SpanFlow.Proofs.Propagation.Members
import SpanFlow.Proofs.Propagation.Items
import SpanFlow.Proofs.Carrier.Slots
import SpanFlow.Proofs.Carrier.Stomp
import SpanFlow.Proofs.Decimal.Digits
import SpanFlow.Proofs.Decimal.Rounding
import SpanFlow.Proofs.Decimal.Shortest
import SpanFlow.Proofs.Json.Numeral
import SpanFlow.Proofs.Json.Scaling
import SpanFlow.Proofs.Json.Double
import SpanFlow.Proofs.Json.Document
import SpanFlow.Proofs.Json.Fields
import SpanFlow.Proofs.Span.Documents
import SpanFlow.Proofs.Executor.Rate
