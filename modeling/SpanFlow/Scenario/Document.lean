import SpanFlow.Scenario.Carrier
import SpanFlow.Call
import SpanFlow.Failure
import SpanFlow.World

namespace SpanFlow.Scenario.Document

def optText (o : Option String) : Json := .ofOption .text o

def ofDouble (x : Double) : Json := .text (Hex.text 16 x.bits.toNat)

def ofAttribute : Attribute → Json
  | .text s => .obj [("s", .text s)]
  | .int i => .obj [("i", .text (Decimal.intText i.toInt))]
  | .float x => .obj [("f", ofDouble x)]
  | .bool b => .obj [("b", .bool b)]
  | .texts l => .obj [("a", .texts l)]

def ofAttributes (l : List (String × Attribute)) : Json :=
  .list (l.map fun (k, v) => .list [.text k, ofAttribute v])

def ofContext (c : Context) : Json :=
  .obj [("trace", .text (Context.traceText c.trace)), ("span", .text (Context.spanText c.span)),
    ("sampled", .bool c.sampled), ("baggage", .pairs c.baggage.entries)]

def ofParent (p : Option SpanId) : Json :=
  optText (p.map Context.spanText)

def ofLogs (logs : List LogRecord) : Json :=
  .list (logs.map fun l => ofAttributes l.fields.entries)

def ofData (d : SpanData) : Json :=
  .obj [("trace", .text (Context.traceText d.trace)), ("span", .text (Context.spanText d.span)),
    ("parent", ofParent d.parent), ("name", .text d.name), ("kind", .text d.kind.name),
    ("tags", ofAttributes d.tags.entries), ("logs", ofLogs d.logs), ("status", .text d.status.name),
    ("sampled", .bool d.sampled), ("ended", .bool (d.stop != 0))]

def ofError (kind message : String) : Json :=
  .obj [("error", .text kind), ("message", .text message)]

def ofCarrierError (e : CarrierError) : Json :=
  .obj [("error", .text e.kind), ("message", .text e.message), ("unsupported", .bool e.isUnsupported)]

def ofTaskError (e : TaskError) : Json := ofError e.kind e.message

def ofCallError (e : CallError) : Json := ofError e.kind e.message

def ofFailure (f : FailureInfo) : Json :=
  .obj [("type_name", .text f.typeName), ("kind", .text f.kind), ("message", .text f.message),
    ("display", .text f.message), ("debug", .text f.debug)]

def payloadText : Payload → String
  | .text s => s
  | .other => "<other>"

def ofPanic (p : Payload) : Json := .obj [("panic", .text (payloadText p))]

def badInput : Json := .obj [("error", .text "BadInput")]

def ofResult {ε α : Type} (error : ε → Json) (value : α → Json) : Except ε α → Json
  | .ok a => value a
  | .error e => error e

def ofAmqp : AmqpValue → Json
  | .text s => .obj [("s", .text s)]
  | .int i => .obj [("i", .text (Decimal.intText i.toInt))]
  | .bool b => .obj [("b", .bool b)]
  | .bytes bs => .obj [("x", .text (Hex.ofBytes bs))]

def ofHeaderValue (v : HeaderValue) : Json :=
  match Utf8.decode? v with
  | some cs => .obj [("s", .text (String.ofList cs))]
  | none => .obj [("x", .text (Hex.ofBytes v))]

def ofStomp (m : StompMessage) : Json :=
  .obj [("headers", .pairs m.headers.entries),
    ("native", .list (m.native.entries.map fun (k, vs) => .list [.text k, .texts vs])),
    ("first", .list (m.native.entries.map fun (k, _) => .list [.text k, optText (m.firstNative? k)]))]

def ofCarrier : Carrier → Json
  | .map m => .pairs m.entries
  | .http m => .list (m.fields.flatMap fun (n, vs) => vs.map fun v => .list [.text n, ofHeaderValue v])
  | .amqp m =>
    .list (m.headers.entries.map fun (k, v) => .list [.text k, ofAmqp v, optText v.asText?, .text v.display])
  | .jms m => .pairs m.properties.entries
  | .stomp m => ofStomp m
  | .stub c => .pairs c.items
  | .bare => .null

end SpanFlow.Scenario.Document
