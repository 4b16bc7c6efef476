import SpanFlow.Task

/-!
Concurrency strategies prepare the commands that are about to run elsewhere. Tracing is a layer
over any strategy: it binds each command to the span active when it was prepared. A strategy that
already traces never gets a second layer.
-/

namespace SpanFlow

variable {β κ ν ε : Type}

/-- A strategy: commands as they are, a strategy of some sort `β`, or a tracing layer over one. -/
inductive Strategy (β : Type) where
  | passthrough
  | custom (b : β)
  | tracing (delegate : Strategy β)
  deriving DecidableEq

structure StrategySort (β κ ν ε : Type) where
  name : β → String
  traces : β → Bool
  wrap : β → Task κ → Activity ν ε (Task κ)

namespace Strategy

def name (sort : StrategySort β κ ν ε) : Strategy β → String
  | .passthrough => "passthrough"
  | .custom b => sort.name b
  | .tracing _ => "tracing"

def isTracing (sort : StrategySort β κ ν ε) : Strategy β → Bool
  | .passthrough => false
  | .custom b => sort.traces b
  | .tracing _ => true

def layered (sort : StrategySort β κ ν ε) (s : Strategy β) : Activity ν ε (Strategy β) := do
  if s.isTracing sort then
    Activity.emit ⟨.debug, "concurrency strategy already traces, not wrapping again", [("strategy", s.name sort)]⟩
    return s
  else
    return .tracing s

/-- Prepares a command. A tracing layer binds what its delegate made of it. -/
def wrapCallable (sort : StrategySort β κ ν ε) : Strategy β → Task κ → Activity ν ε (Task κ)
  | .passthrough, t => pure t
  | .custom b, t => sort.wrap b t
  | .tracing d, t => do (← d.wrapCallable sort t).bound

end Strategy

structure StrategyRegistry (β : Type) where
  current : Strategy β
  deriving DecidableEq

namespace StrategyRegistry

def initial : StrategyRegistry β := ⟨.passthrough⟩

def register (r : StrategyRegistry β) (s : Strategy β) : Strategy β × StrategyRegistry β :=
  (r.current, ⟨s⟩)

def installTracing (sort : StrategySort β κ ν ε) (r : StrategyRegistry β) :
    Activity ν ε (Bool × StrategyRegistry β) := do
  if r.current.isTracing sort then
    Activity.emit ⟨.debug, "tracing concurrency strategy already installed", []⟩
    return (false, r)
  else
    return (true, ⟨← r.current.layered sort⟩)

/-- Adds tracing for the whole process, and tells so the first time. -/
def installGlobally (sort : StrategySort β κ ν ε) (r : StrategyRegistry β) :
    Activity ν ε (Bool × StrategyRegistry β) := do
  let (installed, r) ← r.installTracing sort
  if installed then
    Activity.emit ⟨.info, "tracing concurrency strategy installed globally", []⟩
  return (installed, r)

end StrategyRegistry

end SpanFlow
