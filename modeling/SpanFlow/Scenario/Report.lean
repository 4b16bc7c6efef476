import SpanFlow.Scenario.Evaluate

namespace SpanFlow

namespace Scenario

/-- Runs steps one after the other and reports each when it is complete. The depth of nested steps
is limited; beyond it everything comes down. -/
def runSteps : Nat → Steps → Run Unit
  | 0, _ => Act.abort
  | depth + 1, steps =>
    Act.each
      (fun (name, s) => do
        let result ← Evaluate.step (runSteps depth) s
        Run.record name result)
      steps

/-- Runs a step of the outermost list: its panic is its result. -/
def runOutermost (depth : Nat) (name : String) (s : Step) : Run Unit := do
  match ← Act.attempt (Evaluate.step (runSteps depth) s) with
  | .ok result => Run.record name result
  | .error p => Run.record name (Document.ofPanic p)

def depthLimit : Nat := 4096

def untilLastStep (lines : List ReportLine) : List ReportLine :=
  (lines.reverse.dropWhile fun
    | .event _ => true
    | .step .. => false).reverse

end Scenario

structure Scenario where
  settings : Scenario.Settings
  steps : Scenario.Steps

def Scenario.report (s : Scenario) (supply : Supply) : List ReportLine :=
  let all : Run Unit := Act.each (fun (name, step) => runOutermost depthLimit name step) s.steps
  let (_, w) := all (.initial supply (.initial s.settings))
  untilLastStep (flush w).extra.report.toList

end SpanFlow
