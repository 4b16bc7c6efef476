import SpanFlow.Config
import SpanFlow.Scope

namespace SpanFlow

structure Tracer (C : Type) where
  service : Option String
  ratio : Double
  reporter : Reporter
  propagator : Propagator C

namespace Tracer

variable {ν ε C : Type}

def default [TextMap C] : Tracer C :=
  ⟨none, Double.one, .null, B3.propagator B3.defaultPrefix⟩

def withRatio (t : Tracer C) (ratio : Double) : Tracer C :=
  { t with ratio := ratio.clampUnit }

def ofConfig [TextMap C] (c : TracerConfig) (reporter : Reporter) : Tracer C :=
  ⟨c.service, c.sampleRatio.clampUnit, reporter, c.propagation.propagator⟩

/-- Whether a root is sampled. A draw is only made where it can matter. -/
def sampleRoot (t : Tracer C) : Activity ν ε Bool :=
  if t.ratio.isNegative ∨ t.ratio.isZero then pure false
  else if Double.one.magnitude ≤ t.ratio.magnitude then pure true
  else do
    let x ← Activity.draw
    return x.magnitude < t.ratio.magnitude

def childContext (parent : Context) (id : SpanId) : Context :=
  (Context.new parent.trace id parent.sampled).withBaggage parent.baggage.entries

def rootContext (t : Tracer C) (id : SpanId) : Activity ν ε Context := do
  let trace ← Activity.freshTraceId
  let sampled ← t.sampleRoot
  return Context.new trace id sampled

def start (t : Tracer C) (name : String) (kind : Kind) (parent : Option Context) : Activity ν ε SpanRef := do
  let id ← Activity.freshSpanId
  let context ←
    match parent with
    | some p => pure (childContext p id)
    | none => t.rootContext id
  let span ← SpanRef.create context (parent.map Context.span) name kind t.reporter
  match t.service with
  | some s => span.setTag "service.name" (.text s)
  | none => pure ()
  return span

def activeContext : Activity ν ε (Option Context) :=
  Act.read fun w => (w.active.bind w.span?).map Span.context

def startChildOfActive (t : Tracer C) (name : String) (kind : Kind) : Activity ν ε SpanRef := do
  t.start name kind (← activeContext)

/-- Writes a context into a carrier. What was written before a failure stays. -/
def inject (t : Tracer C) (context : Context) (carrier : C) : Except CarrierError Unit × C :=
  match t.propagator.inject context carrier with
  | .ok () c => (.ok (), c)
  | .error e c => (.error e, c)

def injectActive (t : Tracer C) (carrier : C) : Activity ν ε (Except CarrierError Bool × C) := do
  match ← activeContext with
  | none => return (.ok false, carrier)
  | some context =>
    match t.inject context carrier with
    | (.ok (), c) => return (.ok true, c)
    | (.error e, c) => return (.error e, c)

def answered (x : Extraction) : Activity ν ε (Except CarrierError (Option Context)) := do
  Activity.emitAll x.events
  return x.answer

def extractRaw (t : Tracer C) (carrier : C) : Activity ν ε (Except CarrierError (Option Context)) :=
  answered (t.propagator.extract carrier)

/-- Reads a usable context. Only a carrier that cannot be read at all is an error. -/
def extract [TextMap C] (t : Tracer C) (carrier : C) : Activity ν ε (Except CarrierError (Option Context)) :=
  answered (t.propagator.extractLenient carrier)

end Tracer

end SpanFlow
