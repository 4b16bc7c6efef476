import SpanFlow.Propagation.B3
import SpanFlow.Propagation.TraceContext

namespace SpanFlow

inductive WireFormat where
  | b3
  | w3c
  | composite
  deriving DecidableEq

namespace WireFormat

instance : Inhabited WireFormat := ⟨.b3⟩

def key : WireFormat → String
  | .b3 => "b3"
  | .w3c => "w3c"
  | .composite => "composite"

def name : WireFormat → String
  | .b3 => "B3"
  | .w3c => "W3c"
  | .composite => "Composite"

def named : List (String × WireFormat) :=
  [("b3", .b3), ("w3c", .w3c), ("composite", .composite)]

end WireFormat

structure PropagationConfig where
  format : WireFormat
  baggagePrefix : String
  deriving DecidableEq

namespace PropagationConfig

def default : PropagationConfig := ⟨.b3, B3.defaultPrefix⟩

def propagator {C : Type} [TextMap C] (c : PropagationConfig) : Propagator C :=
  match c.format with
  | .b3 => B3.propagator c.baggagePrefix
  | .w3c => TraceContext.propagator
  | .composite => .composite [B3.propagator c.baggagePrefix, TraceContext.propagator]

def toJson (c : PropagationConfig) : Json :=
  .obj [("format", .text c.format.key), ("baggage_prefix", .text c.baggagePrefix)]

def ofJson? (j : Json) : Option PropagationConfig := do
  let fs ← Json.fields? ["format", "baggage_prefix"] true j
  let format ← fs.withDefault "format" (Json.choice? WireFormat.named) default.format
  let baggagePrefix ← fs.withDefault "baggage_prefix" Json.text? default.baggagePrefix
  return ⟨format, baggagePrefix⟩

end PropagationConfig

structure TracerConfig where
  service : Option String
  sampleRatio : Double
  propagation : PropagationConfig
  deriving DecidableEq

namespace TracerConfig

def default : TracerConfig := ⟨none, Double.one, .default⟩

def toJson (c : TracerConfig) : Json :=
  .obj [("service_name", .ofOption .text c.service), ("sample_ratio", .ofDouble c.sampleRatio),
    ("propagation", c.propagation.toJson)]

def ofJson? (j : Json) : Option TracerConfig := do
  let fs ← Json.fields? ["service_name", "sample_ratio", "propagation"] true j
  let service ← fs.optional "service_name" Json.text?
  let sampleRatio ← fs.withDefault "sample_ratio" Json.double? default.sampleRatio
  let propagation ← fs.withDefault "propagation" PropagationConfig.ofJson? .default
  return ⟨service, sampleRatio, propagation⟩

end TracerConfig

inductive ProxyPolicy where
  | degrade
  | require
  deriving DecidableEq

namespace ProxyPolicy

instance : Inhabited ProxyPolicy := ⟨.degrade⟩

def key : ProxyPolicy → String
  | .degrade => "degrade"
  | .require => "require"

def name : ProxyPolicy → String
  | .degrade => "Degrade"
  | .require => "Require"

def named : List (String × ProxyPolicy) :=
  [("degrade", .degrade), ("require", .require)]

end ProxyPolicy

structure ExecutorConfig where
  enabled : Bool
  ignored : KeyMap Unit
  policy : ProxyPolicy
  deriving DecidableEq

namespace ExecutorConfig

def default : ExecutorConfig := ⟨true, .empty, .degrade⟩

def nameSet (names : List String) : KeyMap Unit :=
  .ofList (names.map fun n => (n, ()))

def instruments (c : ExecutorConfig) (name : String) : Bool :=
  c.enabled && !c.ignored.contains name

def toJson (c : ExecutorConfig) : Json :=
  .obj [("enabled", .bool c.enabled), ("ignored_names", .texts c.ignored.keys), ("policy", .text c.policy.key)]

def ofJson? (j : Json) : Option ExecutorConfig := do
  let fs ← Json.fields? ["enabled", "ignored_names", "policy"] true j
  let enabled ← fs.withDefault "enabled" Json.bool? default.enabled
  let ignored ← fs.withDefault "ignored_names" (Json.list? Json.text?) []
  let policy ← fs.withDefault "policy" (Json.choice? ProxyPolicy.named) default.policy
  return ⟨enabled, nameSet ignored, policy⟩

end ExecutorConfig

end SpanFlow
