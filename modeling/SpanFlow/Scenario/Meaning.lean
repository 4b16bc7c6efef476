import SpanFlow.Scenario.Session

namespace SpanFlow.Scenario

/-- One run of counted code, by its number. The run that is to panic does so before its steps, and
runs beyond the last one do nothing; they are counted all the same. -/
def countedRun (run : Steps → Run Unit) (steps : Steps) (number : Nat)
    (maxRuns panicAt : Option Nat) : Run Unit :=
  if panicAt = some number then Act.panic (.text "tick failed")
  else if maxRuns.any (· < number) then pure ()
  else run steps

def turn (run : Steps → Run Unit) : Code → Run Code
  | .script steps value => do
    run steps
    return .script steps value
  | .counted steps runs maxRuns panicAt => do
    countedRun run steps (runs + 1) maxRuns panicAt
    return .counted steps (runs + 1) maxRuns panicAt

def meaning (run : Steps → Run Unit) : Meaning Code Int Session where
  call c :=
    match c with
    | .script steps value => do
      run steps
      return value
    | .counted .. => do return (← turn run c).runs
  turn := turn run
  succeed c v := do
    Run.record "on_success" (.ofInt v)
    let _ ← turn run c
  fail c e := do
    Run.record "on_failure" (Document.ofTaskError e)
    let _ ← turn run c

def strategySort : StrategySort Custom Code Int Session where
  name
    | .skip => "skip"
    | .named n _ => n
  traces
    | .skip => false
    | .named n _ => n = "own-tracing"
  wrap
    | .skip, t => do
      Run.record "strategy" (.text "skip")
      t.discard
      return { t with work := .idle }
    | .named n steps, t => do
      Run.record "strategy" (.text n)
      return { t with work := .after (.script steps 0) t.work }

def strategy : StrategySpec (String × Step) → Strategy Custom
  | .passthrough => .passthrough
  | .tracing => .tracing .passthrough
  | .skip => .custom .skip
  | .named n steps => .custom (.named n steps)

end SpanFlow.Scenario
