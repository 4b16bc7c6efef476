import SpanFlow.Scenario.Meaning
import SpanFlow.Scenario.Store

namespace SpanFlow.Scenario.Wrapping

open Document

variable (run : Steps → Run Unit)

def wrap (key : String) (steps : Steps) (value : Int) (explicit : Option String) : Run Json := do
  let c : Captured ←
    match explicit with
    | none => Captured.take
    | some name => do pure ⟨← Run.span? name⟩
  Run.store key (.wrapped c (.script steps value))
  Run.captured c

def pollFuture (f : Future) : Run (Option Int × Future) := do
  match f.polls with
  | [] => f.captured.within (pure ())
  | steps :: _ => f.captured.within (run steps)
  let left := f.polls.tail
  return (if left.isEmpty then some f.value else none, { f with polls := left })

def runFuture : Nat → Future → Run Int
  | 0, f => pure f.value
  | n + 1, f => do
    match ← pollFuture run f with
    | (some value, _) => return value
    | (none, left) => runFuture n left

def spawnTraced (polls : List Steps) (value : Int) : Run Json := do
  let f : Future := ⟨← Captured.take, polls, value⟩
  match ← Act.attempt (Activity.onThread (runFuture run (polls.length + 1) f)) with
  | .ok v => return .obj [("ok", .ofInt v)]
  | .error _ => return .obj [("error", .text "JoinError"), ("panic", .bool true)]

/-- Runs recurring work that is stored under a name. It is out of the store meanwhile, and stays
as it was if it panics. -/
def runRecurring (name : String) (r : Recurring Code) (wrapUp : Recurring Code → Object) (thread : Bool) :
    Run (Recurring Code) := do
  Run.remove name
  let ran ← Act.attempt (Run.maybeOnThread thread (r.run (meaning run)))
  Run.store name (wrapUp (ran.toOption.getD r))
  Act.resume ran

def runObject (name : String) (thread : Bool) : Run Json := do
  match ← Run.object? name with
  | some (.wrapped c code) =>
    Run.remove name
    return .ofInt (← Run.maybeOnThread thread (c.within ((meaning run).call code)))
  | some (.task t) =>
    Run.remove name
    return .bool (← Run.maybeOnThread thread (t.run (meaning run)))
  | some (.recurring r) =>
    let left ← runRecurring run name r .recurring thread
    return .ofNat left.code.runs
  | some (.recurringTask r) =>
    let _ ← runRecurring run name r .recurringTask thread
    return .text "ran"
  | some (.future f) =>
    Run.remove name
    match ← Run.maybeOnThread thread (pollFuture run f) with
    | (some value, _) => return .obj [("ready", .ofInt value)]
    | (none, left) =>
      Run.store name (.future left)
      return .text "pending"
  | _ => return badInput

def callBack (name : String) (input : CallbackInput) (thread : Bool) : Run Json := do
  match ← Run.object? name with
  | some (.callback cb) =>
    Run.maybeOnThread thread
      (match input with
      | .value v => cb.succeed (meaning run) v
      | .failure e => cb.fail (meaning run) e)
    return .null
  | _ => return badInput

def ofTask (t : Task Code) : Run Json := do
  return .obj [("cancelled", .bool (← t.isCancelled)), ("debug", .text (← t.debug))]

def newTask (work : Work Code) (cancellable cancelled : Bool) : Run (Task Code) := do
  if cancellable then return ⟨work, some (← Activity.newFlag cancelled)⟩
  else return ⟨work, none⟩

def task (key : String) (steps : Steps) (cancellable wrapped : Bool) : Run Json := do
  let t ← newTask (.code (.script steps 0)) cancellable false
  let t ← if wrapped then t.bound else pure t
  Run.store key (.task t)
  ofTask t

def cancelTask (name : String) : Run Json := do
  match ← Run.object? name with
  | some (.task t) =>
    match t.flag with
    | some f => Activity.setFlag f
    | none => pure ()
    ofTask t
  | _ => return badInput

end SpanFlow.Scenario.Wrapping
