import SpanFlow.World

/-!
Spans as activities share them. A write to a finished span is ignored and leaves an event in the
journal; the activity that closes a span hands its record to the reporter.
-/

namespace SpanFlow.SpanRef

variable {ν ε : Type}

def create (context : Context) (parent : Option SpanId) (name : String) (kind : Kind) (reporter : Reporter) :
    Activity ν ε SpanRef := do
  let now ← Activity.now
  Act.modifyGet fun w =>
    (⟨w.spans.size⟩, { w with spans := w.spans.push (.opened context parent name kind reporter now) })

def late (what : String) (s : Span) : Event :=
  ⟨.debug, what ++ " written after finish, ignored", [("span_name", s.name)]⟩

def setTag (r : SpanRef) (key : String) (value : Attribute) : Activity ν ε Unit :=
  Act.modify fun w =>
    match w.span? r with
    | none => w
    | some s => if s.isFinished then w.note (.event (late "tag" s)) else w.modifySpan r (·.setTag key value)

def log (r : SpanRef) (fields : List (String × Attribute)) : Activity ν ε Unit := do
  let now ← Activity.now
  Act.modify fun w =>
    match w.span? r with
    | none => w
    | some s =>
      if s.isFinished then w.note (.event (late "log" s))
      else w.modifySpan r (·.addLog ⟨now, .ofList fields⟩)

def logEvent (r : SpanRef) (event : String) : Activity ν ε Unit :=
  r.log [("event", .text event)]

def setStatus (r : SpanRef) (status : Status) : Activity ν ε Unit :=
  Act.modify fun w => w.modifySpan r (·.setStatus status)

def finishedEvent (d : SpanData) : Event :=
  let parent :=
    match d.parent with
    | none => "None"
    | some p => "Some(" ++ Quoted.quote (Context.spanText p) ++ ")"
  ⟨.info, "span finished",
    [("trace_id", Context.traceText d.trace), ("span_id", Context.spanText d.span), ("parent_span_id", parent),
      ("name", d.name), ("duration_ns", Decimal.natText d.duration), ("status", d.status.name)]⟩

def report (reporter : Reporter) (d : SpanData) : Activity ν ε Unit :=
  match reporter with
  | .memory => Act.modify fun w => { w with reported := w.reported.push d }
  | .null => pure ()
  | .logging => Activity.emit (finishedEvent d)

/-- Closes the span and reports it; false if it was closed before. -/
def finish (r : SpanRef) : Activity ν ε Bool := do
  match ← Act.read fun w => w.span? r with
  | none => return false
  | some s =>
    if s.isFinished then return false
    else
      let now ← Activity.now
      Act.modify fun w => w.modifySpan r (·.close now)
      report s.reporter (s.close now).data
      return true

end SpanFlow.SpanRef
