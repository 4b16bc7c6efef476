import SpanFlow.Act
import SpanFlow.Event
import SpanFlow.Span.Record

/-!
What instrumented activities share: the spans and their reports, the active span of the running
thread, cancellation flags, result channels, and a journal of what was said and done. Fresh
identifiers, sampling draws and the time come from a supply. `ν` is the sort of values that
submitted work yields, `ε` is whatever else the program around the instrumentation keeps.
-/

namespace SpanFlow

/-- A handle to a span. Two handles are equal only if they refer to the same span. -/
structure SpanRef where
  index : Nat
  deriving DecidableEq

structure FlagRef where
  index : Nat
  deriving DecidableEq

structure ChannelRef where
  index : Nat
  deriving DecidableEq

inductive TaskError where
  | cancelled
  | panicked (message : String)
  | dropped
  deriving DecidableEq

namespace TaskError

def kind : TaskError → String
  | .cancelled => "Cancelled"
  | .panicked _ => "Panicked"
  | .dropped => "Dropped"

def message : TaskError → String
  | .cancelled => "task was cancelled"
  | .panicked m => "task panicked: " ++ m
  | .dropped => "task was dropped before completing"

end TaskError

/-- A channel for one result. It is closed when its sender is gone; the result `none` is that of
work done for its effect. -/
inductive Channel (ν : Type) where
  | waiting
  | answered (result : Except TaskError (Option ν))
  | closed

/-- Everything that comes from outside. Identifiers are never zero. -/
structure Supply where
  spanIds : Nat → SpanId
  traceIds : Nat → TraceId
  draws : Nat → Double
  times : Nat → Time
  span_ne_zero : ∀ n, spanIds n ≠ 0
  trace_ne_zero : ∀ n, traceIds n ≠ 0

structure Used where
  spans : Nat
  traces : Nat
  draws : Nat
  times : Nat

inductive Thread where
  | main
  | worker
  deriving DecidableEq

/-- What the journal tells: an event, or a switch of the active span that is about to be made. -/
inductive Note where
  | event (e : Event)
  | activating (span : SpanRef)
  | restoring (span : SpanRef)
  deriving DecidableEq

structure JournalEntry where
  note : Note
  thread : Thread
  active : Option SpanRef
  deriving DecidableEq

structure World (ν ε : Type) where
  supply : Supply
  used : Used
  spans : Array Span
  reported : Array SpanData
  thread : Thread
  active : Option SpanRef
  flags : Array Bool
  channels : Array (Channel ν)
  journal : Array JournalEntry
  extra : ε

namespace World

variable {ν ε : Type}

def initial (supply : Supply) (extra : ε) : World ν ε :=
  ⟨supply, ⟨0, 0, 0, 0⟩, #[], #[], .main, none, #[], #[], #[], extra⟩

def span? (w : World ν ε) (r : SpanRef) : Option Span :=
  w.spans[r.index]?

def flag (w : World ν ε) (r : FlagRef) : Bool :=
  w.flags[r.index]?.getD false

def channel (w : World ν ε) (r : ChannelRef) : Channel ν :=
  w.channels[r.index]?.getD .closed

def modifySpan (w : World ν ε) (r : SpanRef) (f : Span → Span) : World ν ε :=
  { w with spans := w.spans.modify r.index f }

def note (w : World ν ε) (n : Note) : World ν ε :=
  { w with journal := w.journal.push ⟨n, w.thread, w.active⟩ }

end World

abbrev Activity (ν ε α : Type) := Act (World ν ε) α

namespace Activity

variable {ν ε α : Type}

def emit (e : Event) : Activity ν ε Unit :=
  Act.modify fun w => w.note (.event e)

def emitAll (es : List Event) : Activity ν ε Unit :=
  Act.each emit es

def now : Activity ν ε Time :=
  Act.modifyGet fun w => (w.supply.times w.used.times, { w with used.times := w.used.times + 1 })

def freshSpanId : Activity ν ε SpanId :=
  Act.modifyGet fun w => (w.supply.spanIds w.used.spans, { w with used.spans := w.used.spans + 1 })

def freshTraceId : Activity ν ε TraceId :=
  Act.modifyGet fun w => (w.supply.traceIds w.used.traces, { w with used.traces := w.used.traces + 1 })

def draw : Activity ν ε Double :=
  Act.modifyGet fun w => (w.supply.draws w.used.draws, { w with used.draws := w.used.draws + 1 })

def newFlag (set : Bool) : Activity ν ε FlagRef :=
  Act.modifyGet fun w => (⟨w.flags.size⟩, { w with flags := w.flags.push set })

def isSet (r : FlagRef) : Activity ν ε Bool :=
  Act.read fun w => w.flag r

def setFlag (r : FlagRef) : Activity ν ε Unit :=
  Act.modify fun w => { w with flags := w.flags.setIfInBounds r.index true }

def openChannel : Activity ν ε ChannelRef :=
  Act.modifyGet fun w => (⟨w.channels.size⟩, { w with channels := w.channels.push .waiting })

def send (r : ChannelRef) (result : Except TaskError (Option ν)) : Activity ν ε Unit :=
  Act.modify fun w =>
    match w.channel r with
    | .waiting => { w with channels := w.channels.setIfInBounds r.index (.answered result) }
    | _ => w

def closeChannel (r : ChannelRef) : Activity ν ε Unit :=
  Act.modify fun w =>
    match w.channel r with
    | .waiting => { w with channels := w.channels.setIfInBounds r.index .closed }
    | _ => w

/-- Runs an activity on a new thread, where no span is active, and waits for it. -/
def onThread (x : Activity ν ε α) : Activity ν ε α := fun w =>
  let (e, v) := x { w with thread := .worker, active := none }
  (e, { v with thread := w.thread, active := w.active })

end Activity

end SpanFlow
