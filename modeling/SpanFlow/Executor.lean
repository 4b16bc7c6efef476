import SpanFlow.Task

/-!
Executors take work. On top of that, a submission gives out a handle to the result: the task runs
at most once, not at all if it was cancelled before, and the handle then tells what became of it.
-/

namespace SpanFlow

variable {κ ν ε : Type}

inductive ExecutorError where
  | rejected (reason : String)
  | shutDown
  | unsupported (operation : String)
  deriving DecidableEq

namespace ExecutorError

def kind : ExecutorError → String
  | .rejected _ => "Rejected"
  | .shutDown => "ShutDown"
  | .unsupported _ => "Unsupported"

def message : ExecutorError → String
  | .rejected r => "task rejected: " ++ r
  | .shutDown => "executor is shut down"
  | .unsupported o => o ++ " is not supported by this executor"

end ExecutorError

abbrev Millis := Nat

structure TaskHandle where
  flag : FlagRef
  channel : ChannelRef
  deriving DecidableEq

structure ScheduledHandle where
  flag : FlagRef
  deriving DecidableEq

structure Executor (κ ν ε : Type) where
  execute : Task κ → Activity ν ε (Except ExecutorError Unit)

structure Scheduler (κ ν ε : Type) extends Executor κ ν ε where
  schedule : Task κ → Millis → Activity ν ε (Except ExecutorError ScheduledHandle)
  fixedRate : Recurring κ → Millis → Millis → Activity ν ε (Except ExecutorError ScheduledHandle)

namespace Executor

def direct (m : Meaning κ ν ε) : Executor κ ν ε where
  execute t := do
    let _ ← t.run m
    return .ok ()

def submitWork (e : Executor κ ν ε) (work : ChannelRef → Work κ) :
    Activity ν ε (Except ExecutorError TaskHandle) := do
  let channel ← Activity.openChannel
  let flag ← Activity.newFlag false
  match ← e.execute ⟨work channel, some flag⟩ with
  | .ok () => return .ok ⟨flag, channel⟩
  | .error x => return .error x

def submit (e : Executor κ ν ε) (c : κ) : Activity ν ε (Except ExecutorError TaskHandle) :=
  e.submitWork fun channel => .answer channel c

/-- Submits code whose outcome goes to a callback; the handle yields no value. -/
def submitListenable (e : Executor κ ν ε) (c : κ) (cb : Callback κ) :
    Activity ν ε (Except ExecutorError TaskHandle) :=
  e.submitWork fun channel => .notify channel c cb

/-- The executor that binds each task to the span active where it is handed over. -/
def bound (e : Executor κ ν ε) : Executor κ ν ε where
  execute t := do e.execute (← t.bound)

def withoutTimer (e : Executor κ ν ε) : Scheduler κ ν ε where
  toExecutor := e
  schedule _ _ := pure (.error (.unsupported "schedule"))
  fixedRate _ _ _ := pure (.error (.unsupported "schedule_at_fixed_rate"))

end Executor

namespace Scheduler

def bound (s : Scheduler κ ν ε) : Scheduler κ ν ε where
  toExecutor := s.toExecutor.bound
  schedule t delay := do s.schedule (← t.bound) delay
  fixedRate r initial period := do s.fixedRate (← r.bound) initial period

end Scheduler

namespace TaskHandle

def cancel (h : TaskHandle) : Activity ν ε Bool := do
  let before ← Activity.isSet h.flag
  Activity.setFlag h.flag
  return !before

def isCancelled (h : TaskHandle) : Activity ν ε Bool :=
  Activity.isSet h.flag

def closedError (cancelled : Bool) : TaskError :=
  if cancelled then .cancelled else .dropped

/-- The outcome, unless the task may still run. -/
def poll (h : TaskHandle) : Activity ν ε (Option (Except TaskError (Option ν))) :=
  Act.read fun w =>
    match w.channel h.channel with
    | .waiting => none
    | .answered result => some result
    | .closed => some (.error (closedError (w.flag h.flag)))

def debug (cancelled : Bool) : String :=
  "TaskHandle \x7b cancelled: " ++ Context.boolText cancelled ++ ", .. \x7d"

end TaskHandle

namespace ScheduledHandle

def new : Activity ν ε ScheduledHandle := do
  return ⟨← Activity.newFlag false⟩

def cancel (h : ScheduledHandle) : Activity ν ε Unit :=
  Activity.setFlag h.flag

def isCancelled (h : ScheduledHandle) : Activity ν ε Bool :=
  Activity.isSet h.flag

end ScheduledHandle

def Task.debug (t : Task κ) : Activity ν ε String := do
  let cancelled ← t.isCancelled
  return "Task \x7b cancellable: " ++ Context.boolText t.flag.isSome ++ ", cancelled: " ++
    Context.boolText cancelled ++ " \x7d"

end SpanFlow
