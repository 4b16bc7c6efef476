import SpanFlow.Scenario.Wrapping

namespace SpanFlow.Scenario.Registries

open Document Wrapping

def processName : String := "global"

def registry? (name : String) : Run (Option (StrategyRegistry Custom)) := do
  if name = processName then return some (← Act.read fun w => w.extra.processRegistry)
  else
    match ← Run.object? name with
    | some (.registry r) => return some r
    | _ => return none

def setRegistry (name : String) (r : StrategyRegistry Custom) : Run Unit :=
  if name = processName then Act.modify fun w => { w with extra := { w.extra with processRegistry := r } }
  else Run.store name (.registry r)

def withRegistry (name : String) (f : StrategyRegistry Custom → Run Json) : Run Json := do
  match ← registry? name with
  | some r => f r
  | none => return badInput

def install (name : String) : Run Json :=
  withRegistry name fun r => do
    let (installed, r) ←
      if name = processName then r.installGlobally strategySort else r.installTracing strategySort
    setRegistry name r
    return .bool installed

def register (name : String) (spec : StrategySpec (String × Step)) : Run Json :=
  withRegistry name fun r => do
    let (previous, r) := r.register (strategy spec)
    setRegistry name r
    return .text (previous.name strategySort)

def current (name : String) : Run Json :=
  withRegistry name fun r =>
    pure (.list [.text (r.current.name strategySort), .bool (r.current.isTracing strategySort)])

def layer (name : String) : Run Json :=
  withRegistry name fun r => do
    let once ← r.current.layered strategySort
    let twice := once.isTracing strategySort
    let _ ← once.layered strategySort
    return .list [.text (once.name strategySort), .bool (r.current.isTracing strategySort), .bool twice]

def wrapCallable (key name : String) (steps : Steps) (cancellable : Bool) : Run Json :=
  withRegistry name fun r => do
    let t ← newTask (.code (.script steps 0)) cancellable false
    let t ← r.current.wrapCallable strategySort t
    Run.store key (.task t)
    return .text (← t.debug)

end SpanFlow.Scenario.Registries
