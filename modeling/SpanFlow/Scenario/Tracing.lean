import SpanFlow.Scenario.Store

namespace SpanFlow.Scenario.Tracing

open Document

def started (key : String) (r : SpanRef) : Run Json := do
  Run.store key (.span r)
  let state ← Run.view r fun s => (s.context, s.parent)
  return .obj [("ctx", .ofOption ofContext (state.map (·.1))), ("parent", ofParent (state.bind (·.2)))]

def start (key name : String) (kind : Kind) (parent : StartParent) : Run Json := do
  let t ← Run.tracer
  match parent with
  | .root => started key (← t.start name kind none)
  | .active => started key (← t.startChildOfActive name kind)
  | .ofContext c => started key (← t.start name kind (some c))
  | .ofSpan s => Run.withSpan s fun r => do
    started key (← t.start name kind (← Run.view r Span.context))

def newSpan (key name : String) (kind : Kind) (c : Context) (parent : Option SpanId) : Run Json := do
  let t ← Run.tracer
  let r ← SpanRef.create c parent name kind t.reporter
  Run.store key (.span r)
  return .obj [("debug", optText (← Run.view r Span.debug))]

def inspect (s : Span) : Json :=
  .obj
    [("data", ofData s.data), ("finished", .bool s.isFinished), ("name", .text s.name), ("kind", .text s.kind.name),
      ("kind_tag", .text s.kind.tag), ("label", .text s.label), ("trace", .text (Context.traceText s.context.trace)),
      ("context", .text s.context.display)]

def reported (name : Option String) : Run Json := do
  let t ← Run.tracer
  if t.reporter ≠ .memory then return .null
  let all ← Act.read fun w => w.reported.toList
  let chosen := all.filter fun d => name.all (· = d.name)
  return .obj [("len", .ofNat all.length), ("empty", .bool all.isEmpty), ("spans", .list (chosen.map ofData))]

def tracerInfo : Run Json := do
  let t ← Run.tracer
  return .obj
    [("service", optText t.service), ("reporter", .text t.reporter.name), ("ratio", ofDouble t.ratio),
      ("fields", .texts t.propagator.fields)]

/-- A root span of a tracer without settings, started and finished aside: nothing of it stays. -/
def defaultTracer : Run Json := do
  let t : Tracer Viewed := .default
  let aside : Run (Option Context × Bool) := do
    let r ← t.start "default" .internal none
    let context ← Run.view r Span.context
    return (context, ← r.finish)
  let (context, finished) ← fun w => ((aside w).1, w)
  return .obj
    [("service", optText t.service), ("ratio", ofDouble t.ratio), ("valid", .bool (context.any Context.isValid)),
      ("sampled", .bool (context.any Context.sampled)), ("finish", .bool finished),
      ("active", ← Run.label (← Scope.active))]

def debugOption (r : Option SpanRef) : Run String := do
  match r with
  | none => return "None"
  | some r => return "Some(" ++ ((← Run.view r Span.debug).getD "") ++ ")"

def debug (name : String) : Run Json := do
  match ← Run.object? name with
  | some (.span r) => return optText (← Run.view r Span.debug)
  | some (.captured c) =>
    return .text ("CapturedSpan \x7b span: " ++ (← debugOption c.span) ++ " \x7d TaskWrapper \x7b .. \x7d")
  | some (.task t) => return .text (← t.debug)
  | some (.handle h) => return .text (TaskHandle.debug (← h.isCancelled))
  | some (.token t) =>
    let activated := (← Run.view t.activated Span.debug).getD ""
    return .text ("ScopeToken \x7b previous: " ++ (← debugOption t.previous) ++ ", activated: " ++ activated ++ " \x7d")
  | _ => return badInput

def activate (key : String) (r : SpanRef) : Run Json := do
  let token ← Scope.activate r
  Run.store key (.token token)
  return .obj [("previous", ← Run.label token.previous), ("activated", ← Run.label token.activated)]

def withToken (name : String) (f : ScopeToken → Run Json) : Run Json := do
  match ← Run.object? name with
  | some (.token t) =>
    Run.remove name
    f t
  | _ => return badInput

end SpanFlow.Scenario.Tracing
