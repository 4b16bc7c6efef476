import SpanFlow.Config
import SpanFlow.Executor

/-!
Proxies for executors. A proxy binds the work it takes to the span active at that moment and hands
it to its target. It is built in one of two ways, as the target's own traced twin or through the
capability that the target shows; the second way is tried if the first one fails, and the policy
decides what happens if both do.
-/

namespace SpanFlow

variable {κ ν ε : Type}

/-- What a target shows of itself: that it takes work, or also that it schedules. -/
inductive Capability where
  | plain
  | scheduled
  deriving DecidableEq

namespace Capability

def isScheduled : Capability → Bool
  | .plain => false
  | .scheduled => true

def debug : Capability → String
  | .plain => "Capability::Plain"
  | .scheduled => "Capability::Scheduled"

/-- Takes work for a target through its capability, bound to the active span. A plain capability
cannot schedule. -/
def bound (c : Capability) (target : Scheduler κ ν ε) : Scheduler κ ν ε :=
  match c with
  | .scheduled => target.bound
  | .plain => target.toExecutor.bound.withoutTimer

end Capability

inductive ProxyStrategy where
  | subclass
  | interface
  deriving DecidableEq

namespace ProxyStrategy

def other : ProxyStrategy → ProxyStrategy
  | .subclass => .interface
  | .interface => .subclass

def display : ProxyStrategy → String
  | .subclass => "subclass"
  | .interface => "interface"

def name : ProxyStrategy → String
  | .subclass => "Subclass"
  | .interface => "Interface"

end ProxyStrategy

inductive ProxyError where
  | rejected (strategy : ProxyStrategy) (typeName reason : String)
  | notProxyable (typeName reason : String)
  deriving DecidableEq

namespace ProxyError

def kind : ProxyError → String
  | .rejected _ _ _ => "Rejected"
  | .notProxyable _ _ => "NotProxyable"

def message : ProxyError → String
  | .rejected s t r => s.display ++ " proxy rejected for " ++ t ++ ": " ++ r
  | .notProxyable t r => t ++ " cannot be proxied: " ++ r

end ProxyError

structure TargetFacts where
  address : Nat
  typeName : String
  finalClass : Bool
  finalMethods : Bool
  capability : Option Capability
  deriving DecidableEq

structure ProxyDescriptor where
  address : Nat
  typeName : String
  finalClass : Bool
  finalMethods : Bool
  strategy : Option ProxyStrategy
  deriving DecidableEq

namespace ProxyDescriptor

def inspect (t : TargetFacts) : ProxyDescriptor :=
  ⟨t.address, t.typeName, t.finalClass, t.finalMethods, none⟩

/-- A sealed target is better reached through its capability. -/
def preferred (d : ProxyDescriptor) : ProxyStrategy :=
  if d.finalClass || d.finalMethods then .interface else .subclass

def debug (d : ProxyDescriptor) (address : String) : String :=
  let strategy :=
    match d.strategy with
    | none => "None"
    | some s => "Some(" ++ s.name ++ ")"
  "ProxyDescriptor \x7b target_address: " ++ address ++ ", type_name: " ++ Quoted.quote d.typeName ++
    ", final_class: " ++ Context.boolText d.finalClass ++ ", final_scheduling_methods: " ++
    Context.boolText d.finalMethods ++ ", strategy: " ++ strategy ++ " \x7d"

end ProxyDescriptor

structure ProxyToolkit (ν ε : Type) where
  permit : ProxyDescriptor → ProxyStrategy → Activity ν ε (Except ProxyError Unit)

namespace ProxyToolkit

def standardPermit (d : ProxyDescriptor) (s : ProxyStrategy) : Except ProxyError Unit :=
  if s = .subclass ∧ d.preferred = .interface then
    .error (.rejected s d.typeName (if d.finalClass then "type is final" else "scheduling methods are final"))
  else .ok ()

/-- Refuses twins of sealed targets and permits everything else. -/
def standard : ProxyToolkit ν ε where
  permit d s := pure (standardPermit d s)

end ProxyToolkit

inductive ProxyKind where
  | subclass
  | interface (capability : Capability)
  | unwrapped
  deriving DecidableEq

structure ExecutorProxy where
  descriptor : ProxyDescriptor
  kind : ProxyKind
  deriving DecidableEq

namespace ExecutorProxy

def isWrapped (p : ExecutorProxy) : Bool :=
  p.kind ≠ .unwrapped

def executor (p : ExecutorProxy) (target : Executor κ ν ε) : Executor κ ν ε :=
  match p.kind with
  | .subclass => target.bound
  | .interface _ => target.bound
  | .unwrapped => target

def tellPlain (p : ExecutorProxy) : Activity ν ε Unit :=
  Activity.emit ⟨.debug, "capability offers no scheduling, scheduling on the target",
    [("target_type", p.descriptor.typeName)]⟩

/-- The proxy as a scheduler over its target. A target that shows a plain capability schedules by
itself, with its work bound as usual. -/
def scheduler (p : ExecutorProxy) (target : Scheduler κ ν ε) : Scheduler κ ν ε :=
  match p.kind with
  | .subclass => target.bound
  | .interface .scheduled => Capability.scheduled.bound target
  | .interface .plain =>
    { Capability.plain.bound target with
      schedule := fun t delay => do
        p.tellPlain
        target.bound.schedule t delay
      fixedRate := fun r initial period => do
        p.tellPlain
        target.bound.fixedRate r initial period }
  | .unwrapped => target

def inner (p : ExecutorProxy) (target : Scheduler κ ν ε) : Scheduler κ ν ε :=
  match p.kind with
  | .subclass => target.bound
  | .interface c => c.bound target
  | .unwrapped => target

def debug (p : ExecutorProxy) (address : String) : String :=
  "ExecutorProxy \x7b descriptor: " ++ p.descriptor.debug address ++ ", .. \x7d"

end ExecutorProxy

structure ProxyFactory (ν ε : Type) where
  toolkit : ProxyToolkit ν ε
  config : ExecutorConfig

namespace ProxyFactory

def build (f : ProxyFactory ν ε) (t : TargetFacts) (s : ProxyStrategy) : Activity ν ε (Except ProxyError ProxyKind) := do
  match ← f.toolkit.permit (.inspect t) s with
  | .error e => return .error e
  | .ok () =>
    match s, t.capability with
    | .subclass, _ => return .ok .subclass
    | .interface, some c => return .ok (.interface c)
    | .interface, none => return .error (.notProxyable t.typeName "no capability interface")

def unwrapped (t : TargetFacts) : ExecutorProxy :=
  ⟨.inspect t, .unwrapped⟩

def wrapped (t : TargetFacts) (s : ProxyStrategy) (k : ProxyKind) : ExecutorProxy :=
  ⟨{ ProxyDescriptor.inspect t with strategy := some s }, k⟩

def tellFailed (t : TargetFacts) (s : ProxyStrategy) (e : ProxyError) : Activity ν ε Unit :=
  Activity.emit ⟨.debug, "proxy strategy failed",
    [("target_type", t.typeName), ("strategy", s.display), ("error", e.message)]⟩

def tellFallback (t : TargetFacts) (s : ProxyStrategy) : Activity ν ε Unit :=
  Activity.emit ⟨.debug, "proxy built with fallback strategy", [("target_type", t.typeName), ("strategy", s.display)]⟩

def giveUp (f : ProxyFactory ν ε) (t : TargetFacts) (e : ProxyError) : Activity ν ε (Except ProxyError ExecutorProxy) :=
  match f.config.policy with
  | .require => pure (.error e)
  | .degrade => do
    Activity.emit ⟨.warn, "executor left uninstrumented, tasks will not carry spans",
      [("target_type", t.typeName), ("error", e.message)]⟩
    return .ok (unwrapped t)

/-- Wraps a target in the preferred way, or else in the other one. The first error counts. -/
def wrap (f : ProxyFactory ν ε) (t : TargetFacts) : Activity ν ε (Except ProxyError ExecutorProxy) := do
  let preferred := (ProxyDescriptor.inspect t).preferred
  match ← f.build t preferred with
  | .ok k => return .ok (wrapped t preferred k)
  | .error e =>
    tellFailed t preferred e
    match ← f.build t preferred.other with
    | .ok k =>
      tellFallback t preferred.other
      return .ok (wrapped t preferred.other k)
    | .error e' =>
      tellFailed t preferred.other e'
      f.giveUp t e

def wrapNamed (f : ProxyFactory ν ε) (name : String) (t : TargetFacts) :
    Activity ν ε (Except ProxyError ExecutorProxy) :=
  if f.config.instruments name then f.wrap t
  else do
    Activity.emit ⟨.debug, "executor excluded from instrumentation", [("executor", name)]⟩
    return .ok (unwrapped t)

end ProxyFactory

end SpanFlow
