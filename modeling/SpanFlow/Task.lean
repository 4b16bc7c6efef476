import SpanFlow.Scope

/-!
Work that carries its span to wherever it runs. The active span is captured when work is handed
over, and made active again around every run; without a captured span nothing is switched. Code is
data of some sort `κ`, and a `Meaning` says what running it does.
-/

namespace SpanFlow

variable {κ ν ε α : Type}

/-- A span, or none, as it was found when work was handed over. -/
structure Captured where
  span : Option SpanRef
  deriving DecidableEq

namespace Captured

def take : Activity ν ε Captured := do
  return ⟨← Scope.active⟩

def within (c : Captured) (x : Activity ν ε α) : Activity ν ε α :=
  match c.span with
  | some s => Scope.within s x
  | none => x

def withinAll : List Captured → Activity ν ε α → Activity ν ε α
  | [], x => x
  | c :: r, x => c.within (withinAll r x)

end Captured

/-- What code does when it runs: once for a value; again and again, leaving behind the code of the
next run; and as a callback that gets a value or an error. -/
structure Meaning (κ ν ε : Type) where
  call : κ → Activity ν ε ν
  turn : κ → Activity ν ε κ
  succeed : κ → ν → Activity ν ε Unit
  fail : κ → TaskError → Activity ν ε Unit

structure Callback (κ : Type) where
  layers : List Captured
  success : κ
  failure : κ

namespace Callback

def bound (cb : Callback κ) : Activity ν ε (Callback κ) := do
  let c ← Captured.take
  return { cb with layers := c :: cb.layers }

def succeed (m : Meaning κ ν ε) (cb : Callback κ) (v : ν) : Activity ν ε Unit :=
  Captured.withinAll cb.layers (m.succeed cb.success v)

def fail (m : Meaning κ ν ε) (cb : Callback κ) (e : TaskError) : Activity ν ε Unit :=
  Captured.withinAll cb.layers (m.fail cb.failure e)

end Callback

/-- The body of a task: nothing; code run for its effect; code whose outcome is sent through a
channel, as it is or after a callback got it; a body bound to a captured span; or a body that runs
after some code. -/
inductive Work (κ : Type) where
  | idle
  | code (c : κ)
  | answer (channel : ChannelRef) (c : κ)
  | notify (channel : ChannelRef) (c : κ) (callback : Callback κ)
  | bound (captured : Captured) (body : Work κ)
  | after (c : κ) (body : Work κ)

namespace Work

def caught (x : Activity ν ε α) : Activity ν ε (Except TaskError α) := do
  match ← Act.attempt x with
  | .ok a => return .ok a
  | .error p => return .error (.panicked p.message)

def inform (m : Meaning κ ν ε) (cb : Callback κ) (c : κ) : Activity ν ε Unit := do
  match ← caught (m.call c) with
  | .ok v => cb.succeed m v
  | .error e => cb.fail m e

/-- Gives up a body that was not run: its channel has no sender any more. -/
def discard : Work κ → Activity ν ε Unit
  | .idle => pure ()
  | .code _ => pure ()
  | .answer channel _ => Activity.closeChannel channel
  | .notify channel _ _ => Activity.closeChannel channel
  | .bound _ body => body.discard
  | .after _ body => body.discard

def run (m : Meaning κ ν ε) : Work κ → Activity ν ε Unit
  | .idle => pure ()
  | .code c => do
    let _ ← m.call c
  | .answer channel c => do
    let outcome ← caught (m.call c)
    Activity.send channel (outcome.map some)
  | .notify channel c callback => do
    let outcome ← caught (inform m callback c)
    Activity.send channel (outcome.map fun _ => none)
  | .bound captured body => captured.within (body.run m)
  | .after c body => do
    let _ ← Act.onPanic (m.call c) body.discard
    body.run m

end Work

/-- A unit of work for an executor. If it has a flag, setting it prevents the run. -/
structure Task (κ : Type) where
  work : Work κ
  flag : Option FlagRef

namespace Task

def isCancelled (t : Task κ) : Activity ν ε Bool :=
  match t.flag with
  | some f => Activity.isSet f
  | none => pure false

def bound (t : Task κ) : Activity ν ε (Task κ) := do
  let c ← Captured.take
  return { t with work := .bound c t.work }

def run (m : Meaning κ ν ε) (t : Task κ) : Activity ν ε Bool := do
  if ← t.isCancelled then
    t.work.discard
    return false
  else
    t.work.run m
    return true

def discard (t : Task κ) : Activity ν ε Unit :=
  t.work.discard

end Task

/-- Work that is run again and again, each time from what the last run left behind. -/
structure Recurring (κ : Type) where
  layers : List Captured
  code : κ

namespace Recurring

def bound (r : Recurring κ) : Activity ν ε (Recurring κ) := do
  let c ← Captured.take
  return { r with layers := c :: r.layers }

def run (m : Meaning κ ν ε) (r : Recurring κ) : Activity ν ε (Recurring κ) := do
  let code ← Captured.withinAll r.layers (m.turn r.code)
  return { r with code := code }

end Recurring

end SpanFlow
