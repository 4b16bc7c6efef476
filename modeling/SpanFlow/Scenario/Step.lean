import SpanFlow.Proxy
import SpanFlow.Interceptor
import SpanFlow.Strategy
import SpanFlow.Scenario.Carrier

/-!
The steps of a scenario. A scenario is a program over named objects; steps that hold steps run them
inside a scope, on another thread, as the body of a task, or around a guarded call.
-/

namespace SpanFlow.Scenario

inductive StartParent where
  | root
  | active
  | ofSpan (span : String)
  | ofContext (context : Context)

inductive CallParent where
  | root
  | active
  | ofSpan (span : String)
  | ofContext (context : Option Context)

inductive InjectSource where
  | ofSpan (span : String)
  | ofContext (context : Context)

inductive CallResult where
  | ok (value : Int)
  | failure (f : FailureInfo)
  | panic (p : Payload)

inductive CallbackInput where
  | value (v : Int)
  | failure (e : TaskError)

inductive HookPoint where
  | pre
  | post
  | error
  deriving DecidableEq

def HookPoint.name : HookPoint → String
  | .pre => "pre"
  | .post => "post"
  | .error => "error"

inductive Mischief where
  | none
  | fail (message : String)
  | panic (p : Payload)
  | finish
  | tag (key : String) (value : Attribute)

inductive DecoratorSpec where
  | standard
  | quiet (name : String)
  | recorder (label : String)
  | unruly (name : String) (points : List HookPoint) (act : Mischief)

inductive TargetMode where
  | reject
  | shutdown
  | unsupported
  | drop
  | deferred
  | thread
  | direct
  deriving DecidableEq

/-- A sort of executors. A target does with work what its mode says; an inert executor takes none. -/
inductive ExecutorSort where
  | direct
  | inert
  | pool
  | target (mode : TargetMode) (modeText : String)

structure ExecutorSpec where
  sort : ExecutorSort
  typeName : String
  finalClass : Bool
  finalMethods : Bool
  capability : Option Capability

structure ToolkitSpec where
  refused : List String
  asksStandard : Bool

structure ProxySpec where
  config : ExecutorConfig
  name : Option String
  toolkit : Option ToolkitSpec
  innerOnly : Bool

/-- A concurrency strategy of a scenario: its own ones have a name and steps that run before the
body of each command; one of them drops the body instead. -/
inductive StrategySpec (σ : Type) where
  | passthrough
  | tracing
  | skip
  | named (name : String) (steps : List σ)

instance {σ : Type} : Inhabited (StrategySpec σ) := ⟨.passthrough⟩

/-- A step of a scenario. Objects are stored under `key`. Steps that are held come with the names under
which they are reported. -/
inductive Step where
  | start (key name : String) (kind : Kind) (parent : StartParent)
  | newSpan (key name : String) (kind : Kind) (context : Context) (parent : Option SpanId)
  | clone (key span : String)
  | tag (span tagKey : String) (value : Attribute)
  | log (span : String) (fields : List (String × Attribute))
  | mentions (span needle : String)
  | status (span : String) (set : Option Status)
  | finish (span : String)
  | inspect (span : String)
  | same (a b : String)
  | reported (name : Option String)
  | clearReported
  | tracerInfo
  | defaultTracer
  | debug (object : String)
  | activate (key span : String)
  | restore (token : String)
  | forget (token : String)
  | scope (span : String) (steps : List (String × Step))
  | active
  | onThread (steps : List (String × Step))
  | catching (steps : List (String × Step))
  | panic (p : Payload)
  | carrier (key : String) (carrier : Carrier)
  | put (carrier : String) (view : View) (key value : String)
  | entries (carrier : String) (view : View)
  | carrierName (carrier : String) (view : View)
  | dump (carrier : String)
  | writable (carrier : String)
  | inject (carrier : String) (view : View) (source : InjectSource) (format : Option Format)
  | injectActive (carrier : String) (view : View) (format : Option Format)
  | extract (carrier : String) (view : View) (lenient : Bool) (format : Option Format)
  | capture (key : String)
  | inScope (captured : String) (steps : List (String × Step)) (thread : Bool)
  | wrap (key : String) (steps : List (String × Step)) (value : Int) (explicit : Option String)
  | wrapRecurring (key : String) (steps : List (String × Step))
  | wrapRecurringTask (key : String) (steps : List (String × Step))
  | wrapFuture (key : String) (polls : List (List (String × Step))) (value : Int)
  | spawnTraced (polls : List (List (String × Step))) (value : Int)
  | wrapCallback (key : String) (success failure : List (String × Step))
  | callBack (callback : String) (input : CallbackInput) (thread : Bool)
  | run (object : String) (thread : Bool)
  | task (key : String) (steps : List (String × Step)) (cancellable wrapped : Bool)
  | cancelTask (task : String)
  | executor (key : String) (spec : Except ExecutorError ExecutorSpec)
  | execute (executor : String) (steps : List (String × Step)) (cancellable cancelled : Bool)
  | schedule (key executor : String) (delay : Millis) (steps : List (String × Step))
  | fixedRate (key executor : String) (initial period : Millis) (steps : List (String × Step)) (maxRuns panicAt : Option Nat)
  | wait (handle : String) (runs : Nat)
  | submit (key executor : String) (steps : List (String × Step)) (value : Int)
  | submitListenable (key executor : String) (steps : List (String × Step)) (value : Int) (success failure : List (String × Step))
      (wrapped : Bool)
  | cancel (handle : String)
  | join (handle : String)
  | poll (handle : String)
  | release (executor : String) (times : Nat)
  | calls (executor : String)
  | shutdown (executor : String)
  | proxy (key target : String) (spec : ProxySpec)
  | tracedCapability (key target : String)
  | trace (key : String) (call : Except CallError Call) (parent : CallParent) (decorators : List DecoratorSpec)
      (steps : List (String × Step)) (result : CallResult)
  | outbound (key : String) (call : Except CallError Call) (carrier : String) (view : View)
      (decorators : List DecoratorSpec) (steps : List (String × Step)) (result : CallResult)
  | inbound (key : String) (call : Except CallError Call) (carrier : String) (view : View)
      (decorators : List DecoratorSpec) (steps : List (String × Step)) (result : CallResult)
  | chain (span : String) (call : Except CallError Call) (decorators : List DecoratorSpec) (value : Int)
      (failure : FailureInfo)
  | registry (key : String) (strategy : StrategySpec (String × Step))
  | install (registry : String)
  | register (registry : String) (strategy : StrategySpec (String × Step))
  | current (registry : String)
  | layer (registry : String)
  | wrapCallable (key registry : String) (steps : List (String × Step)) (cancellable : Bool)
  | unknown

instance : Inhabited Step := ⟨.unknown⟩

abbrev Steps := List (String × Step)

end SpanFlow.Scenario
