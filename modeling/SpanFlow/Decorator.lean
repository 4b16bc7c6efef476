import SpanFlow.Call
import SpanFlow.Failure
import SpanFlow.Span.Live

namespace SpanFlow

/-- A text that is made when it is needed; making it may panic. -/
abbrev Rendered := Except Payload String

/-- Hooks around calls with results of type `R`. A hook fails with an error that can be rendered. -/
structure Decorator (ν ε R : Type) where
  name : Rendered
  preCall : Call → SpanRef → Activity ν ε (Except Rendered Unit)
  postCall : Call → R → SpanRef → Activity ν ε (Except Rendered Unit)
  onError : Call → FailureInfo → SpanRef → Activity ν ε (Except Rendered Unit)

namespace Decorator

variable {ν ε R : Type}

def quiet (name : Rendered) : Decorator ν ε R :=
  ⟨name, fun _ _ => pure (.ok ()), fun _ _ _ => pure (.ok ()), fun _ _ _ => pure (.ok ())⟩

def standardTags : Decorator ν ε R :=
  { quiet (.ok "standard_tags") with
    preCall := fun call span => do
      span.setTag "component" (.text call.component)
      span.setTag "span.kind" (.text call.kind.tag)
      Act.each (fun (k, v) => span.setTag k v) call.tags
      return .ok () }

def tellFailure (name : Rendered) (hook : String) (error : Rendered) : Activity ν ε Unit := do
  let decorator ← Act.resume name
  let error ← Act.resume error
  Activity.emit ⟨.warn, "span decorator failed", [("decorator", decorator), ("hook", hook), ("error", error)]⟩

def tellPanic (name : Rendered) (hook : String) (p : Payload) : Activity ν ε Unit := do
  let decorator ← Act.resume name
  Activity.emit
    ⟨.warn, "span decorator panicked", [("decorator", decorator), ("hook", hook), ("panic", p.message)]⟩

def runHook (hook : String) (name : Rendered) (x : Activity ν ε (Except Rendered Unit)) : Activity ν ε Nat := do
  match ← Act.attempt x with
  | .ok (.ok ()) => return 0
  | .ok (.error e) =>
    tellFailure name hook e
    return 1
  | .error p =>
    tellPanic name hook p
    return 1

end Decorator

abbrev DecoratorChain (ν ε R : Type) := List (Decorator ν ε R)

namespace DecoratorChain

variable {ν ε R : Type}

def run (hook : String) (invoke : Decorator ν ε R → Activity ν ε (Except Rendered Unit)) :
    DecoratorChain ν ε R → Activity ν ε Nat
  | [] => pure 0
  | d :: r => do
    let failed ← Decorator.runHook hook d.name (invoke d)
    let more ← run hook invoke r
    return failed + more

def preCall (chain : DecoratorChain ν ε R) (call : Call) (span : SpanRef) : Activity ν ε Nat :=
  run "on_pre_call" (fun d => d.preCall call span) chain

def postCall (chain : DecoratorChain ν ε R) (call : Call) (result : R) (span : SpanRef) : Activity ν ε Nat :=
  run "on_post_call" (fun d => d.postCall call result span) chain

def onError (chain : DecoratorChain ν ε R) (call : Call) (failure : FailureInfo) (span : SpanRef) :
    Activity ν ε Nat :=
  run "on_error" (fun d => d.onError call failure span) chain

def names (chain : DecoratorChain ν ε R) : List Rendered :=
  chain.map Decorator.name

def debug (names : List String) : String :=
  "[" ++ String.intercalate ", " (names.map Quoted.quote) ++ "]"

end DecoratorChain

end SpanFlow
