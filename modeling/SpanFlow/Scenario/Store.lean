import SpanFlow.Scenario.Session

namespace SpanFlow.Scenario

namespace Executors

def state? (index : Nat) : Run (Option ExecutorState) :=
  Act.read fun w => w.extra.executors[index]?

def update (index : Nat) (f : ExecutorState → ExecutorState) : Run Unit :=
  Act.modify fun w => { w with extra := w.extra.updateExecutor index f }

def takeHeld (index : Nat) : Run (List Held) :=
  Act.modifyGet fun w =>
    ((w.extra.executors[index]?.map ExecutorState.held).getD [],
      { w with extra := w.extra.updateExecutor index fun e => { e with held := [] } })

/-- Gives up the work that is lost with an executor, if nobody can get at it any more. -/
def letGo (index : Nat) : Run Unit := do
  let isLost ← Act.read fun w =>
    !w.extra.isReachable index && w.extra.executors[index]?.any ExecutorState.losesWork
  if isLost then Act.each Held.discard (← takeHeld index)

def inUse {α : Type} (index : Nat) (x : Run α) : Run α := do
  update index fun e => { e with users := e.users + 1 }
  Act.ensuring x do
    update index fun e => { e with users := e.users - 1 }
    letGo index

end Executors

namespace Run

def object? (name : String) : Run (Option Object) :=
  Act.read fun w => w.extra.objects.get? name

/-- Stores an object under a name. An earlier one is gone, and maybe the executor it led to. -/
def store (name : String) (o : Object) : Run Unit := do
  let earlier ← object? name
  Act.modify fun w => { w with extra := { w.extra with objects := w.extra.objects.insert name o } }
  match earlier.bind Object.executorIndex? with
  | some index => Executors.letGo index
  | none => pure ()

def remove (name : String) : Run Unit :=
  Act.modify fun w => { w with extra := { w.extra with objects := w.extra.objects.erase name } }

def span? (name : String) : Run (Option SpanRef) := do
  match ← object? name with
  | some (.span r) => return some r
  | _ => return none

def carrier? (name : String) : Run (Option Carrier) := do
  match ← object? name with
  | some (.carrier c) => return some c
  | _ => return none

def withSpan (name : String) (f : SpanRef → Run Json) : Run Json := do
  match ← span? name with
  | some r => f r
  | none => return Document.badInput

def withCarrier (name : String) (f : Carrier → Run Json) : Run Json := do
  match ← carrier? name with
  | some c => f c
  | none => return Document.badInput

end Run

end SpanFlow.Scenario
