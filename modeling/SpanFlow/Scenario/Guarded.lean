import SpanFlow.Scenario.Store

namespace SpanFlow.Scenario

instance : Describable FailureInfo where
  typeName := FailureInfo.typeName
  message f := .ok f.message

namespace Guarded

def mischief (span : SpanRef) : Mischief → Run (Except Rendered Unit)
  | .none => pure (.ok ())
  | .fail message => pure (.error (.ok message))
  | .panic p => Act.panic p
  | .finish => do
    let _ ← span.finish
    return .ok ()
  | .tag key value => do
    span.setTag key value
    return .ok ()

def recordHook (label : String) (point : HookPoint) (call : Call) (detail : Json) (span : SpanRef) :
    Run (Except Rendered Unit) := do
  let finished ← Run.view span Span.isFinished
  Run.record "hook"
    (.list [.text label, .text point.name, .text call.name, detail, .bool (finished.getD false)])
  return .ok ()

def decorator : DecoratorSpec → Decorator Int Session Int
  | .standard => .standardTags
  | .quiet name => .quiet (.ok name)
  | .recorder label =>
    { name := .ok label
      preCall := fun call span => recordHook label .pre call .null span
      postCall := fun call value span => recordHook label .post call (.ofInt value) span
      onError := fun call f span => recordHook label .error call (Document.ofFailure f) span }
  | .unruly name points act =>
    let hook (p : HookPoint) (span : SpanRef) : Run (Except Rendered Unit) :=
      if p ∈ points then mischief span act else pure (.ok ())
    { name := .ok name
      preCall := fun _ span => hook .pre span
      postCall := fun _ _ span => hook .post span
      onError := fun _ _ span => hook .error span }

def decoratorName : DecoratorSpec → String
  | .standard => "standard_tags"
  | .quiet name => name
  | .recorder label => label
  | .unruly name _ _ => name

/-- The operation inside a guarded call: it stores the span, reports that the call was entered,
runs steps, and ends as it is told. -/
def operation (run : Steps → Run Unit) (key : String) (decorators : Nat)
    (steps : Steps) (result : CallResult) (span : SpanRef) : Run (Except FailureInfo Int) := do
  Run.store key (.span span)
  let state ← Run.view span fun s => (s.parent, s.context)
  let active ← Scope.active
  Run.record "enter" (.obj
    [("parent", Document.ofParent (state.bind (·.1))), ("is_active", .bool (active = some span)),
      ("ctx", .ofOption Document.ofContext (state.map (·.2))), ("decorators", .ofNat decorators)])
  run steps
  match result with
  | .ok value => return .ok value
  | .failure f => return .error f
  | .panic p => Act.panic p

def outcome : Except FailureInfo Int → Json
  | .ok value => .obj [("ok", .ofInt value)]
  | .error f => Document.ofError f.kind f.message

def sortedEntries (entries : Entries) : Entries :=
  entries.mergeSort fun a b => a.1 < b.1 || (a.1 == b.1 && a.2 ≤ b.2)

def interceptor (decorators : List DecoratorSpec) : Run (Interceptor Int Session Viewed Int) := do
  return ⟨← Run.tracer, decorators.map decorator⟩

def trace (run : Steps → Run Unit) (key : String) (call : Call) (parent : ParentChoice)
    (decorators : List DecoratorSpec) (steps : Steps) (result : CallResult) : Run Json := do
  let i ← interceptor decorators
  return outcome (← i.trace call parent (operation run key decorators.length steps result))

/-- A guarded call with a carrier for its context. The carrier is out of the store meanwhile. -/
def outbound (run : Steps → Run Unit) (key : String) (call : Call) (name : String)
    (carrier : Viewed) (decorators : List DecoratorSpec) (steps : Steps) (result : CallResult) :
    Run Json := do
  let i ← interceptor decorators
  Run.remove name
  return outcome (← i.traceOutbound call carrier fun c span => do
    Run.record "carrier_seen"
      (Document.ofResult Document.ofCarrierError (fun es => .pairs (sortedEntries es)) (TextMap.entries c))
    let r ← Act.attempt (operation run key decorators.length steps result span)
    Run.store name (.carrier c.carrier)
    Act.resume r)

def inbound (run : Steps → Run Unit) (key : String) (call : Call) (name : String)
    (carrier : Viewed) (decorators : List DecoratorSpec) (steps : Steps) (result : CallResult) :
    Run Json := do
  let i ← interceptor decorators
  Run.remove name
  let r ← Act.attempt (i.traceInbound call carrier (operation run key decorators.length steps result))
  Run.store name (.carrier carrier.carrier)
  return outcome (← Act.resume r)

def chain (span : SpanRef) (call : Call) (decorators : List DecoratorSpec) (value : Int) (f : FailureInfo) :
    Run Json := do
  let names := decorators.map decoratorName
  let ds : DecoratorChain Int Session Int := decorators.map decorator
  let pre ← ds.preCall call span
  let post ← ds.postCall call value span
  let error ← ds.onError call f span
  return .obj
    [("len", .ofNat names.length), ("empty", .bool names.isEmpty), ("names", .texts names),
      ("debug", .text (DecoratorChain.debug names)), ("interceptor", .text (Interceptor.debug names)),
      ("pre", .ofNat pre), ("post", .ofNat post), ("error", .ofNat error)]

end Guarded

end SpanFlow.Scenario
