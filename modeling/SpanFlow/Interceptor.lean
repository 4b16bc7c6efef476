import SpanFlow.Decorator
import SpanFlow.Tracer

/-!
Guarded calls. A call runs inside a span of its own, which is active meanwhile. Its failure is
written on the span and returned unchanged; its panic is written on the span and goes on. However
the call ends, its span is closed.
-/

namespace SpanFlow

inductive ParentChoice where
  | active
  | root
  | context (c : Option Context)

/-- Failures that can be described: the name of their type, and a text that may panic. -/
class Describable (E : Type) where
  typeName : E → String
  message : E → Rendered

inductive CallPhase where
  | notStarted
  | spanActive
  | completed
  | errored
  | closed
  deriving DecidableEq

def CallPhase.next : CallPhase → CallPhase → Bool
  | .notStarted, .spanActive => true
  | .spanActive, .completed => true
  | .spanActive, .errored => true
  | .spanActive, .closed => true
  | .completed, .closed => true
  | .errored, .closed => true
  | _, _ => false

def CallPhase.name : CallPhase → String
  | .notStarted => "NotStarted"
  | .spanActive => "SpanActive"
  | .completed => "Completed"
  | .errored => "Errored"
  | .closed => "Closed"

structure Interceptor (ν ε C R : Type) where
  tracer : Tracer C
  decorators : DecoratorChain ν ε R

namespace Interceptor

variable {ν ε C R E : Type}

def debug (names : List String) : String :=
  "Interceptor \x7b decorators: " ++ DecoratorChain.debug names ++ ", .. \x7d"

def startSpan (i : Interceptor ν ε C R) (call : Call) : ParentChoice → Activity ν ε SpanRef
  | .active => i.tracer.startChildOfActive call.name call.kind
  | .root => i.tracer.start call.name call.kind none
  | .context c => i.tracer.start call.name call.kind c

def describe [Describable E] (e : E) : Activity ν ε FailureInfo := do
  let message ← Act.resume (Describable.message e)
  return ⟨Describable.typeName e, message⟩

def recordFailure (span : SpanRef) (f : FailureInfo) : Activity ν ε Unit := do
  span.setTag "error" (.bool true)
  span.log
    [("event", .text "error"), ("error.kind", .text f.kind), ("error.object", .text f.typeName),
      ("message", .text f.message)]

def recordPanic (span : SpanRef) : Activity ν ε Unit := do
  span.setTag "error" (.bool true)
  span.log [("event", .text "error"), ("message", .text "guarded call panicked")]

def alreadyFinished : String :=
  "intercepted span was already finished before the interceptor closed it"

/-- What is done about things that a guarded call must never find: a step that it may not take, and its
span closed by someone else. -/
structure Alarms (ν ε : Type) where
  misstep : CallPhase → CallPhase → Activity ν ε Unit
  reclosed : Activity ν ε Unit

def alarms : Alarms ν ε where
  misstep a b := Act.panic (.text ("invalid call transition: " ++ a.name ++ " -> " ++ b.name))
  reclosed := Act.panic (.text alreadyFinished)

/-- Closes the span of a call that unwinds. A panic before the outcome is known is written on it. -/
def closeUnwound (phase : CallPhase) (span : SpanRef) : Activity ν ε Unit := do
  if phase = .spanActive then recordPanic span
  let _ ← span.finish

def conclude (i : Interceptor ν ε C R) (call : Call) (span : SpanRef) :
    Except (E × FailureInfo) R → Activity ν ε Unit
  | .ok r => do let _ ← i.decorators.postCall call r span
  | .error (_, f) => do let _ ← i.decorators.onError call f span

def phaseOf : Except (E × FailureInfo) R → CallPhase
  | .ok _ => .completed
  | .error _ => .errored

def unwind (phase : CallPhase) (token : ScopeToken) (span : SpanRef) : Activity ν ε Unit := do
  Scope.restore token
  closeUnwound phase span

/-- Runs the hooks after the call, and leaves its scope. -/
def leave (i : Interceptor ν ε C R) (call : Call) (span : SpanRef) (token : ScopeToken)
    (outcome : Except (E × FailureInfo) R) : Activity ν ε Unit := do
  Act.onPanic (i.conclude call span outcome) (unwind (phaseOf outcome) token span)
  Act.onPanic (Scope.restore token) (closeUnwound (phaseOf outcome) span)

section Alarms

variable (a : Alarms ν ε) (i : Interceptor ν ε C R) (call : Call)

def advanceUnder (p q : CallPhase) : Activity ν ε Unit :=
  if p.next q then pure () else a.misstep p q

def closeUnder (phase : CallPhase) (span : SpanRef) : Activity ν ε Unit := do
  Act.onPanic (advanceUnder a phase .closed) (closeUnwound phase span)
  if !(← span.finish) then a.reclosed

def settleUnder [Describable E] (span : SpanRef) : Except E R → Activity ν ε (Except (E × FailureInfo) R)
  | .ok r => do
    advanceUnder a .spanActive .completed
    return .ok r
  | .error e => do
    let f ← describe e
    recordFailure span f
    advanceUnder a .spanActive .errored
    return .error (e, f)

def operateUnder [Describable E] (op : SpanRef → Activity ν ε (Except E R)) (span : SpanRef) :
    Activity ν ε (Except (E × FailureInfo) R) := do
  let _ ← i.decorators.preCall call span
  settleUnder a span (← op span)

/-- A call within its scope. On the way out, by return or by panic, the previous span becomes active again;
after a panic the span of the call is closed then. -/
def enclosedUnder [Describable E] (op : SpanRef → Activity ν ε (Except E R)) (span : SpanRef) :
    Activity ν ε (Except (E × FailureInfo) R) := do
  let token ← Scope.activate span
  let outcome ← Act.onPanic (i.operateUnder a call op span) (unwind .spanActive token span)
  i.leave call span token outcome
  return outcome

/-- A guarded call with these alarms. -/
def traceUnder [Describable E] (parent : ParentChoice) (op : SpanRef → Activity ν ε (Except E R)) :
    Activity ν ε (Except E R) := do
  let span ← i.startSpan call parent
  advanceUnder a .notStarted .spanActive
  let outcome ← i.enclosedUnder a call op span
  closeUnder a (phaseOf outcome) span
  return outcome.mapError (·.1)

end Alarms

def operate [Describable E] (i : Interceptor ν ε C R) (call : Call)
    (op : SpanRef → Activity ν ε (Except E R)) (span : SpanRef) :
    Activity ν ε (Except (E × FailureInfo) R) :=
  i.operateUnder alarms call op span

def trace [Describable E] (i : Interceptor ν ε C R) (call : Call) (parent : ParentChoice)
    (op : SpanRef → Activity ν ε (Except E R)) : Activity ν ε (Except E R) :=
  i.traceUnder alarms call parent op

def tellInjection [TextMap C] (call : Call) (carrier : C) (e : CarrierError) : Activity ν ε Unit :=
  Activity.emit ⟨.warn, "span context injection failed",
    [("carrier", TextMap.name carrier), ("operation", call.name), ("error", e.message)]⟩

/-- Runs an outbound call: the context of its span is written into the carrier first. If that
fails the call goes on all the same. -/
def traceOutbound [TextMap C] [Describable E] (i : Interceptor ν ε C R) (call : Call) (carrier : C)
    (op : C → SpanRef → Activity ν ε (Except E R)) : Activity ν ε (Except E R) :=
  i.trace call .active fun span => do
    match ← Act.read fun w => (w.span? span).map Span.context with
    | none => op carrier span
    | some context =>
      match i.tracer.inject context carrier with
      | (.ok (), c) => op c span
      | (.error e, c) =>
        tellInjection call c e
        op c span

def tellExtraction [TextMap C] (carrier : C) (e : CarrierError) : Activity ν ε Unit :=
  Activity.emit ⟨.warn, "span context extraction failed",
    [("carrier", TextMap.name carrier), ("error", e.message)]⟩

/-- Runs an inbound call as a child of the context in the carrier, or as a root without one. -/
def traceInbound [TextMap C] [Describable E] (i : Interceptor ν ε C R) (call : Call) (carrier : C)
    (op : SpanRef → Activity ν ε (Except E R)) : Activity ν ε (Except E R) := do
  match ← i.tracer.extract carrier with
  | .ok parent => i.trace call (.context parent) op
  | .error e =>
    tellExtraction carrier e
    i.trace call (.context none) op

end Interceptor

end SpanFlow
