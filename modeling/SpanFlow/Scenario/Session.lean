import SpanFlow.Executor.Pool
import SpanFlow.Scenario.Document
import SpanFlow.Scenario.Step

/-!
The state of a running scenario: the named objects, the executors with the work that they hold, and
the report of what has happened so far.
-/

namespace SpanFlow.Scenario

/-- Code of a scenario: steps and the value they yield, or steps that are run again and again, with
the number of runs so far, the number of the last run that does anything, and that of a run that
panics. -/
inductive Code where
  | script (steps : Steps) (value : Int)
  | counted (steps : Steps) (runs : Nat) (maxRuns panicAt : Option Nat)

namespace Code

def repeated (steps : Steps) : Code :=
  .counted steps 0 none none

def runs : Code → Nat
  | .script _ _ => 0
  | .counted _ n _ _ => n

def isSpent : Code → Bool
  | .script _ _ => false
  | .counted _ n maxRuns _ => maxRuns.any (· ≤ n)

end Code

inductive Custom where
  | skip
  | named (name : String) (steps : Steps)

inductive Held where
  | task (t : Task Code)
  | delayed (h : ScheduledHandle) (t : Task Code)
  | rate (s : Pool.Schedule Code)

/-- Gives held work up. Nobody waits for recurring work. -/
def Held.discard {ν ε : Type} : Held → Activity ν ε Unit
  | .task t => t.discard
  | .delayed _ t => t.discard
  | .rate _ => pure ()

inductive TargetCall where
  | execute (task : String)
  | schedule (task : String) (delay : Millis)
  | fixedRate (initial period : Millis)

/-- An executor of a scenario with its state: whether it was shut down, the work it holds, the
calls it got, and the number of steps under way that use it. -/
structure ExecutorState where
  spec : ExecutorSpec
  isShutDown : Bool
  held : List Held
  calls : List TargetCall
  users : Nat

namespace ExecutorState

def fresh (spec : ExecutorSpec) : ExecutorState :=
  ⟨spec, false, [], [], 0⟩

/-- Whether held work is lost with the executor. A pool brings its work to an end by itself. -/
def losesWork (e : ExecutorState) : Bool :=
  match e.spec.sort with
  | .target _ _ => true
  | _ => false

end ExecutorState

structure Future where
  captured : Captured
  polls : List Steps
  value : Int

inductive Route where
  | plain
  | proxy (p : ExecutorProxy) (innerOnly : Bool)
  | capability (c : Capability)

inductive Object where
  | span (r : SpanRef)
  | token (t : ScopeToken)
  | carrier (c : Carrier)
  | captured (c : Captured)
  | wrapped (c : Captured) (code : Code)
  | recurring (r : Recurring Code)
  | recurringTask (r : Recurring Code)
  | future (f : Future)
  | callback (cb : Callback Code)
  | task (t : Task Code)
  | handle (h : TaskHandle)
  | scheduled (h : ScheduledHandle)
  | executor (index : Nat) (route : Route)
  | registry (r : StrategyRegistry Custom)

def Object.executorIndex? : Object → Option Nat
  | .executor index _ => some index
  | _ => none

inductive ReportLine where
  | step (name : String) (result : Json) (active : Option String)
  | event (e : Event)

structure Settings where
  tracer : Tracer Viewed
  loud : Bool
  events : Bool

structure Session where
  settings : Settings
  objects : KeyMap Object
  executors : Array ExecutorState
  processRegistry : StrategyRegistry Custom
  report : Array ReportLine

abbrev Run (α : Type) := Activity Int Session α

namespace Session

def initial (settings : Settings) : Session :=
  ⟨settings, .empty, #[], .initial, #[]⟩

/-- Whether somebody can still get at an executor: through an object, or in a step that uses it. -/
def isReachable (s : Session) (index : Nat) : Bool :=
  s.objects.entries.any (fun e => e.2.executorIndex? = some index) ||
    s.executors[index]?.any fun e => 0 < e.users

def updateExecutor (s : Session) (index : Nat) (f : ExecutorState → ExecutorState) : Session :=
  { s with executors := s.executors.modify index f }

end Session

def labelOf (w : World Int Session) (r : SpanRef) : String :=
  ((w.span? r).map Span.label).getD ""

def nameOf (w : World Int Session) (r : SpanRef) : String :=
  ((w.span? r).map Span.name).getD ""

def lineOf (w : World Int Session) (j : JournalEntry) : Option ReportLine :=
  let switch (what : String) (r : SpanRef) : Option ReportLine :=
    if w.extra.settings.loud then
      some (.step "manager" (.texts [what, nameOf w r]) (j.active.map (labelOf w)))
    else none
  match j.note with
  | .event e => if w.extra.settings.events ∧ j.thread = .main then some (.event e) else none
  | .activating r => switch "activate" r
  | .restoring r => switch "restore" r

def flush (w : World Int Session) : World Int Session :=
  { w with
    journal := #[]
    extra := { w.extra with report := w.extra.report ++ w.journal.filterMap (lineOf w) } }

namespace Run

def record (name : String) (result : Json) : Run Unit :=
  Act.modify fun w =>
    let v := flush w
    let line := ReportLine.step name result (v.active.map (labelOf v))
    { v with extra := { v.extra with report := v.extra.report.push line } }

def settings : Run Settings :=
  Act.read fun w => w.extra.settings

def tracer : Run (Tracer Viewed) :=
  Act.read fun w => w.extra.settings.tracer

def view {α : Type} (r : SpanRef) (f : Span → α) : Run (Option α) :=
  Act.read fun w => (w.span? r).map f

def label (r : Option SpanRef) : Run Json :=
  Act.read fun w => Document.optText (r.map (labelOf w))

def maybeOnThread {α : Type} (thread : Bool) (x : Run α) : Run α :=
  if thread then Activity.onThread x else x

def captured (c : Captured) : Run Json := do
  return .obj [("span", ← label c.span), ("empty", .bool c.span.isNone)]

end Run

end SpanFlow.Scenario
