import SpanFlow.Propagation.Basic

namespace SpanFlow.B3

def traceKey : String := "X-B3-TraceId"

def spanKey : String := "X-B3-SpanId"

def sampledKey : String := "X-B3-Sampled"

def flagsKey : String := "X-B3-Flags"

/-- The fixed headers of the format. The flags are read but never written. -/
def fields : List String := [traceKey, spanKey, sampledKey, flagsKey]

def defaultPrefix : String := "baggage-"

def traceText (t : TraceId) : String :=
  if t.toNat < Nat.pow 2 64 then Hex.text 16 t.toNat else Hex.text 32 t.toNat

def written (baggagePrefix : String) (c : Context) : Entries :=
  [(traceKey, traceText c.trace), (spanKey, Hex.text 16 c.span.toNat),
    (sampledKey, if c.sampled then "1" else "0")] ++
  c.baggage.entries.map fun (k, v) => (baggagePrefix ++ k, v)

def sampled (entries : Entries) : Bool × List Event :=
  if findEntry entries flagsKey = some "1" then (true, [])
  else
    match findEntry entries sampledKey with
    | none => (true, [])
    | some v =>
      if v = "1" ∨ Ascii.sameIgnoringCase v "true" then (true, [])
      else if v = "0" ∨ Ascii.sameIgnoringCase v "false" then (false, [])
      else (true, [⟨.debug, "unrecognised X-B3-Sampled value, assuming sampled", [("value", v)]⟩])

def itemName? (baggagePrefix key : String) : Option String :=
  let p := baggagePrefix.toList
  let k := (Ascii.lower key).toList
  if p.isPrefixOf k ∧ p.length < k.length then some (String.ofList (k.drop p.length)) else none

def items (baggagePrefix : String) (entries : Entries) : Entries :=
  entries.filterMap fun (k, v) => (itemName? baggagePrefix k).map fun name => (name, v)

def read (baggagePrefix carrier : String) (entries : Entries) : Extraction :=
  match findEntry entries traceKey, findEntry entries spanKey with
  | none, _ => .absent
  | some _, none => .ignored "X-B3-TraceId without X-B3-SpanId" [("carrier", carrier)]
  | some rawTrace, some rawSpan =>
    match Hex.bounded? 32 rawTrace, Hex.bounded? 16 rawSpan with
    | some trace, some span =>
      let (isSampled, events) := sampled entries
      ⟨events, .ok (some ((Context.new (BitVec.ofNat 128 trace) (BitVec.ofNat 64 span) isSampled).withBaggage
        (items baggagePrefix entries)))⟩
    | _, _ =>
      .ignored "malformed B3 ids" [("carrier", carrier), ("trace_id", rawTrace), ("span_id", rawSpan)]

def usedPrefix (baggagePrefix : String) : String :=
  Ascii.lower baggagePrefix

def propagator {C : Type} [TextMap C] (baggagePrefix : String) : Propagator C :=
  .ofEntries fields (written (usedPrefix baggagePrefix)) (read (usedPrefix baggagePrefix))

end SpanFlow.B3
