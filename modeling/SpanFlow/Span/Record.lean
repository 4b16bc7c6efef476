import SpanFlow.Span.Data

namespace SpanFlow

/-- Where the record of a finished span goes: a list in memory, nowhere, or the log. -/
inductive Reporter where
  | memory
  | null
  | logging
  deriving DecidableEq

def Reporter.name : Reporter → String
  | .memory => "in_memory"
  | .null => "null"
  | .logging => "logging"

/-- A span. It is open as long as it has no end. -/
structure Span where
  context : Context
  parent : Option SpanId
  name : String
  kind : Kind
  reporter : Reporter
  start : Time
  tags : KeyMap Attribute
  logs : List LogRecord
  status : Status
  stop : Option Time

namespace Span

def opened (context : Context) (parent : Option SpanId) (name : String) (kind : Kind) (reporter : Reporter)
    (now : Time) : Span :=
  ⟨context, parent, name, kind, reporter, now, .empty, [], .unset, none⟩

def isFinished (s : Span) : Bool :=
  s.stop.isSome

def setTag (s : Span) (key : String) (value : Attribute) : Span :=
  if s.isFinished then s else { s with tags := s.tags.insert key value }

def addLog (s : Span) (record : LogRecord) : Span :=
  if s.isFinished then s else { s with logs := s.logs ++ [record] }

def setStatus (s : Span) (status : Status) : Span :=
  if s.isFinished then s else { s with status := status }

/-- The status of a closed span: the one that was set, otherwise what the `error` tag says. -/
def finalStatus (s : Span) : Status :=
  match s.status with
  | .unset => if s.tags.get? "error" = some (.bool true) then .error else .ok
  | status => status

def close (s : Span) (now : Time) : Span :=
  if s.isFinished then s else { s with status := s.finalStatus, stop := some now }

def data (s : Span) : SpanData :=
  ⟨s.context.trace, s.context.span, s.parent, s.start, s.stop.getD 0, s.name, s.kind, s.tags, s.logs, s.status,
    s.context.sampled⟩

def label (s : Span) : String :=
  s.name ++ "@" ++ Context.spanText s.context.span

def debug (s : Span) : String :=
  let parent :=
    match s.parent with
    | none => "None"
    | some p => "Some(" ++ Decimal.natText p.toNat ++ ")"
  "Span \x7b name: " ++ Quoted.quote s.name ++ ", trace_id: " ++ Context.traceText s.context.trace ++
    ", span_id: " ++ Context.spanText s.context.span ++ ", parent_span_id: " ++ parent ++ ", .. \x7d"

theorem setTag_of_finished {s : Span} (h : s.isFinished = true) (k : String) (v : Attribute) :
    s.setTag k v = s := if_pos h

theorem addLog_of_finished {s : Span} (h : s.isFinished = true) (r : LogRecord) : s.addLog r = s := if_pos h

theorem setStatus_of_finished {s : Span} (h : s.isFinished = true) (t : Status) : s.setStatus t = s := if_pos h

theorem close_of_finished {s : Span} (h : s.isFinished = true) (now : Time) : s.close now = s := if_pos h

theorem isFinished_close (s : Span) (now : Time) : (s.close now).isFinished = true := by
  unfold close
  split
  · assumption
  · rfl

end Span

end SpanFlow
