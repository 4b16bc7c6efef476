import SpanFlow.Scenario.Store

namespace SpanFlow.Scenario.Transport

open Document

def tracerFor (format : Option Format) : Run (Tracer Viewed) := do
  match format with
  | none => Run.tracer
  | some f => return { (Tracer.default : Tracer Viewed) with propagator := f.propagator }

def written {α : Type} (name : String) (value : α → Json) (r : Except CarrierError α × Viewed) : Run Json := do
  Run.store name (.carrier r.2.carrier)
  return ofResult ofCarrierError value r.1

def put (name : String) (view : View) (key value : String) : Run Json :=
  Run.withCarrier name fun c =>
    let done (r : Except CarrierError Unit) (v : Viewed) : Run Json := written name (fun _ => .text "ok") (r, v)
    match TextMap.put key value (Viewed.mk c view) with
    | .ok () v => done (.ok ()) v
    | .error e v => done (.error e) v

def inject (name : String) (view : View) (source : InjectSource) (format : Option Format) : Run Json :=
  Run.withCarrier name fun c => do
    let t ← tracerFor format
    let write (context : Context) : Run Json :=
      written name (fun _ => .text "ok") (t.inject context ⟨c, view⟩)
    match source with
    | .ofContext context => write context
    | .ofSpan s => Run.withSpan s fun r => do
      match ← Run.view r Span.context with
      | some context => write context
      | none => return badInput

def extract (name : String) (view : View) (lenient : Bool) (format : Option Format) : Run Json :=
  Run.withCarrier name fun c => do
    let t ← tracerFor format
    let found ← if lenient then t.extract ⟨c, view⟩ else t.extractRaw ⟨c, view⟩
    return ofResult ofCarrierError (.ofOption ofContext) found

def writable (name : String) : Run Json :=
  Run.withCarrier name fun c => do
    match c with
    | .jms m =>
      Run.store name (.carrier (.jms m.makeWritable))
      return .null
    | _ => return .null

end SpanFlow.Scenario.Transport
