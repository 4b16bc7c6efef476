import SpanFlow.Scenario.Executors
import SpanFlow.Scenario.Wrapping

namespace SpanFlow.Scenario.Submission

open Document Wrapping

variable (run : Steps → Run Unit)

def executor (key : String) (spec : Except ExecutorError ExecutorSpec) : Run Json := do
  match spec with
  | .error e => return ofError e.kind e.message
  | .ok spec =>
    let index ← Act.modifyGet fun w =>
      (w.extra.executors.size,
        { w with extra := { w.extra with executors := w.extra.executors.push (.fresh spec) } })
    Run.store key (.executor index .plain)
    return .null

def withExecutor (name : String) (f : Nat → Route → ExecutorState → Run Json) : Run Json := do
  match ← Run.object? name with
  | some (.executor index route) =>
    match ← Executors.state? index with
    | some e => Executors.inUse index (f index route e)
    | none => return badInput
  | _ => return badInput

def withPlain (name : String) (f : Nat → Executor Code Int Session → Run Json) : Run Json :=
  withExecutor name fun index route e =>
    match Executors.plain (meaning run) index e with
    | some x => f index (Executors.along route x)
    | none => pure badInput

def withScheduler (name : String) (f : Scheduler Code Int Session → Run Json) : Run Json :=
  withExecutor name fun index route e =>
    match Executors.scheduler (meaning run) index e route with
    | some s => f (Executors.schedulerAlong route s)
    | none => pure badInput

def ofExecutorError (e : ExecutorError) : Json := ofError e.kind e.message

def execute (name : String) (steps : Steps) (cancellable cancelled : Bool) : Run Json :=
  withPlain run name fun index x => do
    let t ← newTask (.code (.script steps 0)) cancellable cancelled
    let isPool := match (← Executors.state? index).map (·.spec.sort) with
      | some .pool => true
      | _ => false
    let before := ((← Executors.state? index).map (·.held.length)).getD 0
    let r ← x.execute t
    if isPool then Executors.runSince (meaning run) index before
    return ofResult ofExecutorError (fun _ => .text "ok") r

def handedOut {α : Type} (key : String) (object : α → Object) (isCancelled : α → Run Bool) :
    Except ExecutorError α → Run Json
  | .error e => pure (ofExecutorError e)
  | .ok h => do
    Run.store key (object h)
    return .obj [("cancelled", .bool (← isCancelled h))]

def schedule (key name : String) (delay : Millis) (steps : Steps) : Run Json :=
  withScheduler run name fun s => do
    let t ← newTask (.code (.script steps 0)) false false
    handedOut key .scheduled ScheduledHandle.isCancelled (← s.schedule t delay)

def fixedRate (key name : String) (initial period : Millis) (steps : Steps)
    (maxRuns panicAt : Option Nat) : Run Json :=
  withScheduler run name fun s => do
    let r : Recurring Code := ⟨[], .counted steps 0 maxRuns panicAt⟩
    handedOut key .scheduled ScheduledHandle.isCancelled (← s.fixedRate r initial period)

def wait (name : String) (runs : Nat) : Run Json := do
  match ← Run.object? name with
  | some (.scheduled h) => return .ofNat (← Executors.await (meaning run) h runs)
  | _ => return badInput

def submit (key name : String) (steps : Steps) (value : Int) : Run Json :=
  withPlain run name fun _ x => do
    handedOut key .handle TaskHandle.isCancelled (← x.submit (.script steps value))

def submitListenable (key name : String) (steps : Steps) (value : Int)
    (success failure : Steps) (wrapped : Bool) : Run Json :=
  withPlain run name fun _ x => do
    let cb : Callback Code := ⟨[], .script success 0, .script failure 0⟩
    let cb ← if wrapped then cb.bound else pure cb
    handedOut key .handle TaskHandle.isCancelled (← x.submitListenable (.script steps value) cb)

def cancel (name : String) : Run Json := do
  match ← Run.object? name with
  | some (.handle h) =>
    let first ← h.cancel
    return .list [.bool first, .bool (← h.isCancelled)]
  | some (.scheduled h) =>
    let before ← h.isCancelled
    h.cancel
    return .list [.bool before, .bool (← h.isCancelled)]
  | _ => return badInput

def ofOutcome (r : Except TaskError (Option Int)) : Json :=
  ofResult ofTaskError (fun v => .obj [("ok", .ofOption .ofInt v)]) r

def settle (name : String) (h : TaskHandle) : Run Json := do
  match ← h.poll with
  | none => return .text "pending"
  | some r =>
    Run.remove name
    return ofOutcome r

def withHandle (name : String) (f : TaskHandle → Run Json) : Run Json := do
  match ← Run.object? name with
  | some (.handle h) => f h
  | _ => return badInput

def join (name : String) : Run Json :=
  withHandle name fun h => do
    Executors.runTaskOf (meaning run) h
    settle name h

def release (name : String) (times : Nat) : Run Json :=
  withExecutor name fun index route e =>
    match route, e.spec.sort with
    | .plain, .target _ _ => do
      return .list (← Executors.runAll (meaning run) times (← Executors.takeHeld index))
    | .plain, _ => pure .null
    | _, _ => pure badInput

def ofCall : TargetCall → Json
  | .execute t => .list [.text "execute", .text t]
  | .schedule t delay => .list [.text "schedule", .text t, .ofNat delay]
  | .fixedRate initial period => .list [.text "fixed_rate", .ofNat initial, .ofNat period]

def calls (name : String) : Run Json :=
  withExecutor name fun _ route e =>
    match route, e.spec.sort with
    | .plain, .target _ _ => pure (.obj [("calls", .list (e.calls.map ofCall)), ("count", .ofNat e.calls.length)])
    | .plain, _ => pure .null
    | _, _ => pure badInput

def shutdown (name : String) : Run Json :=
  withExecutor name fun index _ e =>
    match e.spec.sort with
    | .pool => do
      Executors.update index fun e => { e with isShutDown := true }
      return .list [.bool e.isShutDown, .bool true]
    | _ => pure badInput

end SpanFlow.Scenario.Submission
