import SpanFlow.Scenario.Guarded
import SpanFlow.Scenario.Proxying
import SpanFlow.Scenario.Registries
import SpanFlow.Scenario.Tracing
import SpanFlow.Scenario.Transport

namespace SpanFlow.Scenario.Evaluate

open Document

variable (run : Steps → Run Unit)

def withCall (call : Except CallError Call) (f : Call → Run Json) : Run Json :=
  match call with
  | .ok c => f c
  | .error e => pure (ofCallError e)

def trace (key : String) (call : Except CallError Call) (parent : CallParent) (decorators : List DecoratorSpec)
    (steps : Steps) (result : CallResult) : Run Json :=
  withCall call fun c =>
    let go (p : ParentChoice) : Run Json := Guarded.trace run key c p decorators steps result
    match parent with
    | .root => go .root
    | .active => go .active
    | .ofContext context => go (.context context)
    | .ofSpan s => Run.withSpan s fun r => do go (.context (← Run.view r Span.context))

def step : Step → Run Json
  | .start key name kind parent => Tracing.start key name kind parent
  | .newSpan key name kind c parent => Tracing.newSpan key name kind c parent
  | .clone key s => Run.withSpan s fun r => do
    Run.store key (.span r)
    return .null
  | .tag s tagKey value => Run.withSpan s fun r => do
    r.setTag tagKey value
    return .ofOption ofAttribute ((← Run.view r (·.tags.get? tagKey)).join)
  | .log s fields => Run.withSpan s fun r => do
    r.log fields
    return .ofOption ofLogs (← Run.view r Span.logs)
  | .mentions s needle => Run.withSpan s fun r => do
    return .ofOption (fun logs => .list (logs.map fun l => .bool (l.mentions needle))) (← Run.view r Span.logs)
  | .status s set => Run.withSpan s fun r => do
    match set with
    | some status => r.setStatus status
    | none => pure ()
    return optText (← Run.view r (·.status.name))
  | .finish s => Run.withSpan s fun r => do return .bool (← r.finish)
  | .inspect s => Run.withSpan s fun r => do return .ofOption Tracing.inspect (← Run.view r id)
  | .same a b => Run.withSpan a fun r => Run.withSpan b fun q => pure (.bool (r = q))
  | .reported name => Tracing.reported name
  | .clearReported => do
    Act.modify fun w => { w with reported := #[] }
    return .null
  | .tracerInfo => Tracing.tracerInfo
  | .defaultTracer => Tracing.defaultTracer
  | .debug name => Tracing.debug name
  | .activate key s => Run.withSpan s fun r => Tracing.activate key r
  | .restore t => Tracing.withToken t fun token => do
    Scope.restore token
    return .null
  | .forget t => Tracing.withToken t fun token => Run.label token.previous
  | .scope s steps => Run.withSpan s fun r => do
    Scope.within r (run steps)
    return .bool true
  | .active => do Run.label (← Scope.active)
  | .onThread steps => do
    Activity.onThread (run steps)
    return .null
  | .catching steps => do
    return ofResult ofPanic (fun _ => .text "ok") (← Act.attempt (run steps))
  | .panic p => Act.panic p
  | .carrier key c => do
    Run.store key (.carrier c)
    return .null
  | .put name view key value => Transport.put name view key value
  | .entries name view => Run.withCarrier name fun c =>
    pure (ofResult ofCarrierError .pairs (TextMap.entries (Viewed.mk c view)))
  | .carrierName name view => Run.withCarrier name fun c => pure (.text (TextMap.name (Viewed.mk c view)))
  | .dump name => Run.withCarrier name fun c => pure (ofCarrier c)
  | .writable name => Transport.writable name
  | .inject name view source format => Transport.inject name view source format
  | .injectActive name view format => Run.withCarrier name fun c => do
    Transport.written name .bool (← (← Transport.tracerFor format).injectActive ⟨c, view⟩)
  | .extract name view lenient format => Transport.extract name view lenient format
  | .capture key => do
    let c ← Captured.take
    Run.store key (.captured c)
    Run.captured c
  | .inScope name steps thread => do
    match ← Run.object? name with
    | some (.captured c) =>
      Run.maybeOnThread thread (c.within (run steps))
      return .ofNat 7
    | _ => return badInput
  | .wrap key steps value explicit => Wrapping.wrap key steps value explicit
  | .wrapRecurring key steps => do
    let c ← Captured.take
    Run.store key (.recurring ⟨[c], .repeated steps⟩)
    Run.captured c
  | .wrapRecurringTask key steps => do
    Run.store key (.recurringTask (← (Recurring.mk [] (.repeated steps)).bound))
    return .null
  | .wrapFuture key polls value => do
    let c ← Captured.take
    Run.store key (.future ⟨c, polls, value⟩)
    Run.captured c
  | .spawnTraced polls value => Wrapping.spawnTraced run polls value
  | .wrapCallback key success failure => do
    let c ← Captured.take
    Run.store key (.callback ⟨[c], .script success 0, .script failure 0⟩)
    Run.captured c
  | .callBack name input thread => Wrapping.callBack run name input thread
  | .run name thread => Wrapping.runObject run name thread
  | .task key steps cancellable wrapped => Wrapping.task key steps cancellable wrapped
  | .cancelTask name => Wrapping.cancelTask name
  | .executor key spec => Submission.executor key spec
  | .execute name steps cancellable cancelled => Submission.execute run name steps cancellable cancelled
  | .schedule key name delay steps => Submission.schedule run key name delay steps
  | .fixedRate key name initial period steps maxRuns panicAt =>
    Submission.fixedRate run key name initial period steps maxRuns panicAt
  | .wait name runs => Submission.wait run name runs
  | .submit key name steps value => Submission.submit run key name steps value
  | .submitListenable key name steps value success failure wrapped =>
    Submission.submitListenable run key name steps value success failure wrapped
  | .cancel name => Submission.cancel name
  | .join name => Submission.join run name
  | .poll name => Submission.withHandle name fun h => Submission.settle name h
  | .release name times => Submission.release run name times
  | .calls name => Submission.calls name
  | .shutdown name => Submission.shutdown name
  | .proxy key target spec => Proxying.proxy key target spec
  | .tracedCapability key target => Proxying.tracedCapability key target
  | .trace key call parent decorators steps result => trace run key call parent decorators steps result
  | .outbound key call name view decorators steps result => withCall call fun c =>
    Run.withCarrier name fun carrier => Guarded.outbound run key c name ⟨carrier, view⟩ decorators steps result
  | .inbound key call name view decorators steps result => withCall call fun c =>
    Run.withCarrier name fun carrier => Guarded.inbound run key c name ⟨carrier, view⟩ decorators steps result
  | .chain s call decorators value f => withCall call fun c =>
    Run.withSpan s fun r => Guarded.chain r c decorators value f
  | .registry key spec => do
    Run.store key (.registry ⟨strategy spec⟩)
    return .null
  | .install name => Registries.install name
  | .register name spec => Registries.register name spec
  | .current name => Registries.current name
  | .layer name => Registries.layer name
  | .wrapCallable key name steps cancellable => Registries.wrapCallable key name steps cancellable
  | .unknown => pure badInput

end SpanFlow.Scenario.Evaluate
