import SpanFlow.Carrier.Basic
import SpanFlow.Context
import SpanFlow.Event

namespace SpanFlow

structure Extraction where
  events : List Event
  answer : Except CarrierError (Option Context)

namespace Extraction

def absent : Extraction := ⟨[], .ok none⟩

def ignored (message : String) (fields : List (String × String)) : Extraction :=
  ⟨[⟨.debug, message, fields⟩], .ok none⟩

end Extraction

/-- A wire format, as what it does to carriers of one sort. -/
structure Propagator (C : Type) where
  /-- The fixed keys that the format reads and writes. -/
  fields : List String
  inject : Context → EStateM CarrierError C Unit
  extract : C → Extraction

namespace Propagator

variable {C : Type}

/-- A format that writes fixed entries for a context and reads from the carrier's entries. -/
def ofEntries [TextMap C] (fields : List String) (written : Context → Entries)
    (read : String → Entries → Extraction) : Propagator C where
  fields := fields
  inject context := putAll (written context)
  extract c :=
    match TextMap.entries c with
    | .ok entries => read (TextMap.name c) entries
    | .error e => ⟨[], .error e⟩

def injectAll (context : Context) : List (Propagator C) → EStateM CarrierError C Unit
  | [] => pure ()
  | p :: r => do
    p.inject context
    injectAll context r

/-- The first context that a format finds, or the first failure before it. -/
def extractFirst (c : C) : List (Propagator C) → Extraction
  | [] => .absent
  | p :: r =>
    let found := p.extract c
    match found.answer with
    | .ok none =>
      let later := extractFirst c r
      ⟨found.events ++ later.events, later.answer⟩
    | _ => found

def composite (ps : List (Propagator C)) : Propagator C where
  fields := ps.flatMap Propagator.fields
  inject context := injectAll context ps
  extract c := extractFirst c ps

/-- Reads a usable context. Only a carrier that cannot be read at all is an error. -/
def extractLenient [TextMap C] (p : Propagator C) (c : C) : Extraction :=
  let found := p.extract c
  match found.answer with
  | .ok (some context) => ⟨found.events, .ok (if context.isValid then some context else none)⟩
  | .ok none => found
  | .error e =>
    if e.isUnsupported then found
    else
      ⟨found.events ++ [⟨.debug, "context extraction failed",
        [("carrier", TextMap.name c), ("error", e.message)]⟩], .ok none⟩

end Propagator

end SpanFlow
