import SpanFlow.Attribute
import SpanFlow.Context

namespace SpanFlow

inductive Status where
  | ok
  | error
  | unset
  deriving DecidableEq

namespace Status

instance : Inhabited Status := ⟨.unset⟩

def name : Status → String
  | .ok => "Ok"
  | .error => "Error"
  | .unset => "Unset"

def named : List (String × Status) :=
  [("Ok", .ok), ("Error", .error), ("Unset", .unset)]

end Status

/-- The part that a span plays between a caller and a callee. -/
inductive Kind where
  | internal
  | server
  | client
  | producer
  | consumer
  deriving DecidableEq

namespace Kind

instance : Inhabited Kind := ⟨.internal⟩

def name : Kind → String
  | .internal => "Internal"
  | .server => "Server"
  | .client => "Client"
  | .producer => "Producer"
  | .consumer => "Consumer"

def tag : Kind → String
  | .internal => "internal"
  | .server => "server"
  | .client => "client"
  | .producer => "producer"
  | .consumer => "consumer"

def named : List (String × Kind) :=
  [("Internal", .internal), ("Server", .server), ("Client", .client), ("Producer", .producer),
   ("Consumer", .consumer)]

end Kind

abbrev Time := BitVec 64

structure LogRecord where
  time : Time
  fields : KeyMap Attribute
  deriving DecidableEq

def occursIn (needle : List Char) : List Char → Bool
  | [] => needle.isEmpty
  | c :: r => needle.isPrefixOf (c :: r) || occursIn needle r

namespace LogRecord

def mentions (r : LogRecord) (needle : String) : Bool :=
  r.fields.entries.any fun (_, v) => occursIn needle.toList v.display.toList

def fieldNames : List String := ["timestamp", "fields"]

def attributesJson (m : KeyMap Attribute) : Json :=
  .obj (m.entries.map fun (k, v) => (k, v.toJson))

def toJson (r : LogRecord) : Json :=
  .obj [("timestamp", .ofNat r.time.toNat), ("fields", attributesJson r.fields)]

def ofJson? (j : Json) : Option LogRecord := do
  let fs ← Json.fields? fieldNames false j
  let time ← fs.required "timestamp" (Json.word? 64)
  let fields ← fs.required "fields" (Json.entries? Attribute.ofJson?)
  return ⟨time, .ofList fields⟩

end LogRecord

/-- A span as it is at one moment. The end is zero while the span is open. -/
structure SpanData where
  trace : TraceId
  span : SpanId
  parent : Option SpanId
  start : Time
  stop : Time
  name : String
  kind : Kind
  tags : KeyMap Attribute
  logs : List LogRecord
  status : Status
  sampled : Bool
  deriving DecidableEq

namespace SpanData

def duration (d : SpanData) : Nat :=
  d.stop.toNat - d.start.toNat

def tag? (d : SpanData) (key : String) : Option Attribute :=
  d.tags.get? key

def fieldNames : List String :=
  ["trace_id", "span_id", "parent_span_id", "start_time", "end_time", "name", "kind", "tags", "logs",
   "status", "sampled"]

def toJson (d : SpanData) : Json :=
  .obj [("trace_id", .ofNat d.trace.toNat), ("span_id", .ofNat d.span.toNat),
    ("parent_span_id", .ofOption (fun p => .ofNat p.toNat) d.parent),
    ("start_time", .ofNat d.start.toNat), ("end_time", .ofNat d.stop.toNat), ("name", .text d.name),
    ("kind", .text d.kind.name), ("tags", LogRecord.attributesJson d.tags),
    ("logs", .list (d.logs.map LogRecord.toJson)), ("status", .text d.status.name),
    ("sampled", .bool d.sampled)]

def ofJson? (j : Json) : Option SpanData := do
  let fs ← Json.fields? fieldNames false j
  let trace ← fs.required "trace_id" (Json.word? 128)
  let span ← fs.required "span_id" (Json.word? 64)
  let parent ← fs.optional "parent_span_id" (Json.word? 64)
  let start ← fs.required "start_time" (Json.word? 64)
  let stop ← fs.required "end_time" (Json.word? 64)
  let name ← fs.required "name" Json.text?
  let kind ← fs.required "kind" (Json.choice? Kind.named)
  let tags ← fs.required "tags" (Json.entries? Attribute.ofJson?)
  let logs ← fs.required "logs" (Json.list? LogRecord.ofJson?)
  let status ← fs.required "status" (Json.choice? Status.named)
  let sampled ← fs.required "sampled" Json.bool?
  return ⟨trace, span, parent, start, stop, name, kind, .ofList tags, logs, status, sampled⟩

end SpanData

end SpanFlow
