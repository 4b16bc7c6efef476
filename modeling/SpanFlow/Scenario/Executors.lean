import SpanFlow.Scenario.Store

/-!
The executors of a scenario. A pool holds work back until a step waits for it, so that runs happen
in a fixed order; a target does with work what its mode says, and remembers the calls.
-/

namespace SpanFlow.Scenario

variable (m : Meaning Code Int Session)

namespace ExecutorState

def facts (index : Nat) (e : ExecutorState) : TargetFacts :=
  ⟨index, e.spec.typeName, e.spec.finalClass, e.spec.finalMethods, e.spec.capability⟩

end ExecutorState

namespace Executors

def hold (index : Nat) (h : Held) : Run Unit :=
  update index fun e => { e with held := e.held ++ [h] }

def called (index : Nat) (c : TargetCall) : Run Unit :=
  update index fun e => { e with calls := e.calls ++ [c] }

/-- Runs recurring work up to a number of times, until its handle is cancelled. Gives the number
of runs. -/
def runTimes (h : ScheduledHandle) : Nat → Recurring Code → Run Nat
  | 0, _ => pure 0
  | n + 1, r => do
    if ← h.isCancelled then return 0
    else
      let left ← r.run m
      let more ← runTimes h n left
      return more + 1

def runHeld (times : Nat) : Held → Run Json
  | .task t => do return .bool (← t.run m)
  | .delayed h t => do
    if ← h.isCancelled then
      t.discard
      return .text "skipped"
    else return .bool (← t.run m)
  | .rate s => do
    match s.job with
    | none => return .ofNat 0
    | some job => return .ofNat (← runTimes m s.handle times job)

/-- Runs held work in order. If a run panics, the work behind it is given up. -/
def runAll (times : Nat) : List Held → Run (List Json)
  | [] => pure []
  | h :: r => do
    let shown ← Act.onPanic (runHeld m times h) (Act.each Held.discard r)
    return shown :: (← runAll times r)

def accept (index : Nat) (mode : TargetMode) (h : Held) : Run (Except ExecutorError Unit) :=
  match mode with
  | .reject => do
    h.discard
    return .error (.rejected "queue full")
  | .shutdown => do
    h.discard
    return .error .shutDown
  | .unsupported => do
    h.discard
    return .error (.unsupported "anything")
  | .drop => do
    h.discard
    return .ok ()
  | .deferred => do
    hold index h
    return .ok ()
  | .thread => do
    let _ ← Activity.onThread (Act.attempt (runHeld m 2 h))
    return .ok ()
  | .direct => do
    let _ ← runHeld m 2 h
    return .ok ()

def acceptScheduled (index : Nat) (mode : TargetMode) (h : ScheduledHandle → Held) :
    Run (Except ExecutorError ScheduledHandle) := do
  let handle ← ScheduledHandle.new
  return (← accept m index mode (h handle)).map fun _ => handle

def target (index : Nat) (mode : TargetMode) : Scheduler Code Int Session where
  execute t := do
    called index (.execute (← t.debug))
    accept m index mode (.task t)
  schedule t delay := do
    called index (.schedule (← t.debug) delay)
    acceptScheduled m index mode fun h => .delayed h t
  fixedRate r initial period := do
    called index (.fixedRate initial period)
    acceptScheduled m index mode fun h => .rate ⟨h, some r⟩

def poolHold {α : Type} (index : Nat) (isShutDown : Bool) (t : Task Code) (h : Held) (a : α) :
    Run (Except ExecutorError α) :=
  match Pool.check isShutDown with
  | .error e => do
    t.discard
    return .error e
  | .ok () => do
    hold index h
    return .ok a

def pool (index : Nat) (isShutDown : Bool) : Scheduler Code Int Session where
  execute t := poolHold index isShutDown t (.task t) ()
  schedule t _ := do
    let handle ← ScheduledHandle.new
    poolHold index isShutDown t (.delayed handle t) handle
  fixedRate r _ period := do
    match ← Pool.Schedule.begin isShutDown r period with
    | .error e => return .error e
    | .ok s =>
      hold index (.rate s)
      return .ok s.handle

def plain (index : Nat) (e : ExecutorState) : Option (Executor Code Int Session) :=
  match e.spec.sort with
  | .direct => some (.direct m)
  | .inert => none
  | .pool => some (pool index e.isShutDown).toExecutor
  | .target mode _ => some (target m index mode).toExecutor

/-- The executor as a scheduler along a route, if it is one. A capability always is, even if it refuses. -/
def scheduler (index : Nat) (e : ExecutorState) (route : Route) : Option (Scheduler Code Int Session) :=
  match e.spec.sort, route with
  | .direct, .capability _ => some (Executor.direct m).withoutTimer
  | .direct, _ => none
  | .inert, _ => none
  | .pool, _ => some (pool index e.isShutDown)
  | .target mode _, _ => some (target m index mode)

def along (route : Route) (e : Executor Code Int Session) : Executor Code Int Session :=
  match route with
  | .plain => e
  | .proxy p _ => p.executor e
  | .capability _ => e.bound

def schedulerAlong (route : Route) (s : Scheduler Code Int Session) : Scheduler Code Int Session :=
  match route with
  | .plain => s
  | .proxy p true => p.inner s
  | .proxy p false => p.scheduler s
  | .capability c => c.bound s

/-- Runs on workers the work that a pool got since it held only `before`. Other work stays. -/
def runSince (index before : Nat) : Run Unit := do
  let held ← takeHeld index
  update index fun e => { e with held := held.take before ++ e.held }
  Act.each
    (fun h =>
      match h with
      | .task t => do
        let _ ← Pool.runOnWorker m t
      | other => hold index other)
    (held.drop before)

def isTaskOf (h : TaskHandle) : Held → Bool
  | .task t => t.flag = some h.flag
  | _ => false

def isWorkOf (h : ScheduledHandle) : Held → Bool
  | .task _ => false
  | .delayed g _ => g = h
  | .rate s => s.handle = h

def takeFromPools (p : Held → Bool) : Run (Option (Nat × Held)) :=
  Act.modifyGet fun w =>
    let isPool (e : ExecutorState) : Bool :=
      match e.spec.sort with
      | .pool => true
      | _ => false
    match w.extra.executors.findIdx? fun e => isPool e && e.held.any p with
    | none => (none, w)
    | some i =>
      let found := (w.extra.executors[i]?.bind fun e => e.held.find? p).map fun h => (i, h)
      (found, { w with extra := w.extra.updateExecutor i fun e => { e with held := e.held.eraseP p } })

def runTaskOf (h : TaskHandle) : Run Unit := do
  match ← takeFromPools (isTaskOf h) with
  | some (_, .task t) =>
    let _ ← Pool.runOnWorker m t
  | _ => pure ()

/-- Lets a schedule tick until it has made a number of runs that do something. Gives their number,
and what is left of the schedule. -/
def tickUpTo : Nat → Pool.Schedule Code → Run (Nat × Pool.Schedule Code)
  | 0, s => pure (0, s)
  | n + 1, s => do
    let isSpent := s.job.any fun j => j.code.isSpent
    match ← s.tick m Payload.message with
    | (false, s') => return (0, s')
    | (true, s') =>
      if isSpent then return (0, s')
      else
        let (more, left) ← tickUpTo n s'
        return (more + 1, left)

def await (h : ScheduledHandle) (runs : Nat) : Run Nat := do
  if runs = 0 then return 0
  match ← takeFromPools (isWorkOf h) with
  | some (_, .delayed h t) => return if ← Pool.runDelayed m h t then 1 else 0
  | some (i, .rate s) =>
    let (seen, left) ← tickUpTo m runs s
    hold i (.rate left)
    return seen
  | _ => return 0

end Executors

end SpanFlow.Scenario
