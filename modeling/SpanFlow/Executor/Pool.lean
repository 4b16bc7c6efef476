import SpanFlow.Executor

namespace SpanFlow.Pool

variable {κ ν ε : Type}

def check (isShutDown : Bool) : Except ExecutorError Unit :=
  if isShutDown then .error .shutDown else .ok ()

def checkRate (isShutDown : Bool) (period : Millis) : Except ExecutorError Unit := do
  check isShutDown
  if period = 0 then .error (.rejected "period must be non-zero")

/-- Runs a task on a worker; its panic ends there. Says whether it ran to its end. -/
def runOnWorker (m : Meaning κ ν ε) (t : Task κ) : Activity ν ε Bool := do
  match ← Activity.onThread (Act.attempt (t.run m)) with
  | .ok ran => return ran
  | .error _ => return false

def runDelayed (m : Meaning κ ν ε) (h : ScheduledHandle) (t : Task κ) : Activity ν ε Bool := do
  if ← h.isCancelled then
    t.discard
    return false
  else
    runOnWorker m t

/-- A schedule at a fixed rate. It has no work left once it has ended. -/
structure Schedule (κ : Type) where
  handle : ScheduledHandle
  job : Option (Recurring κ)

namespace Schedule

def begin (isShutDown : Bool) (r : Recurring κ) (period : Millis) :
    Activity ν ε (Except ExecutorError (Schedule κ)) :=
  match checkRate isShutDown period with
  | .error e => pure (.error e)
  | .ok () => do return .ok ⟨← ScheduledHandle.new, some r⟩

def ended (s : Schedule κ) : Schedule κ :=
  { s with job := none }

def tellPanic (error : String) : Activity ν ε Unit :=
  Activity.onThread (Activity.emit ⟨.warn, "recurring task panicked, schedule stopped", [("error", error)]⟩)

/-- One tick of the timer. Says whether a run was made and returned. The threads of the pool have their own
words for the panic of a run. -/
def tick (m : Meaning κ ν ε) (error : Payload → String) (s : Schedule κ) : Activity ν ε (Bool × Schedule κ) := do
  match s.job with
  | none => return (false, s)
  | some job =>
    if ← s.handle.isCancelled then return (false, s.ended)
    else
      match ← Activity.onThread (Act.attempt (job.run m)) with
      | .ok left => return (true, { s with job := some left })
      | .error p =>
        tellPanic (error p)
        return (false, s.ended)

end Schedule

end SpanFlow.Pool

def SpanFlow.Executor.onWorker {κ ν ε : Type} (m : Meaning κ ν ε) : Executor κ ν ε where
  execute t := do
    let _ ← Pool.runOnWorker m t
    return .ok ()
