import SpanFlow.KeyMap
import SpanFlow.Text.Ascii
import SpanFlow.Text.Hex
import SpanFlow.Text.Quoted
import SpanFlow.Json.Fields

/-!
The position of a span in a distributed trace: two identifiers, the sampling decision, and baggage
that travels with the trace. Baggage that is added gets lower-case keys, because most transports
compare names without case; a document's baggage keeps its keys.
-/

namespace SpanFlow

abbrev TraceId := BitVec 128

abbrev SpanId := BitVec 64

/-- A span's position in a distributed trace. -/
structure Context where
  trace : TraceId
  span : SpanId
  sampled : Bool
  baggage : KeyMap String
  deriving DecidableEq

namespace Context

def new (trace : TraceId) (span : SpanId) (sampled : Bool) : Context :=
  ⟨trace, span, sampled, .empty⟩

instance : Inhabited Context := ⟨new 0 0 false⟩

def withItem (c : Context) (key value : String) : Context :=
  { c with baggage := c.baggage.insert (Ascii.lower key) value }

def withBaggage (c : Context) (items : List (String × String)) : Context :=
  items.foldl (fun c item => c.withItem item.1 item.2) c

def item? (c : Context) (key : String) : Option String :=
  c.baggage.get? (Ascii.lower key)

/-- A zero identifier names nothing. -/
def isValid (c : Context) : Bool :=
  c.trace != 0 && c.span != 0

def traceText (t : TraceId) : String := Hex.text 32 t.toNat

def spanText (s : SpanId) : String := Hex.text 16 s.toNat

def boolText (b : Bool) : String := if b then "true" else "false"

def display (c : Context) : String :=
  traceText c.trace ++ "/" ++ spanText c.span ++ " sampled=" ++ boolText c.sampled

def debug (c : Context) : String :=
  let items := c.baggage.entries.map fun (k, v) => Quoted.quote k ++ ": " ++ Quoted.quote v
  "SpanContext \x7b trace_id: " ++ Decimal.natText c.trace.toNat ++ ", span_id: " ++
    Decimal.natText c.span.toNat ++ ", sampled: " ++ boolText c.sampled ++ ", baggage: \x7b" ++
    String.intercalate ", " items ++ "\x7d \x7d"

def fieldNames : List String := ["trace_id", "span_id", "sampled", "baggage"]

def toJson (c : Context) : Json :=
  .obj [("trace_id", .ofNat c.trace.toNat), ("span_id", .ofNat c.span.toNat), ("sampled", .bool c.sampled),
    ("baggage", .obj (c.baggage.entries.map fun (k, v) => (k, .text v)))]

def ofJson? (j : Json) : Option Context := do
  let fs ← Json.fields? fieldNames false j
  let trace ← fs.required "trace_id" (Json.word? 128)
  let span ← fs.required "span_id" (Json.word? 64)
  let sampled ← fs.required "sampled" Json.bool?
  let baggage ← fs.required "baggage" (Json.entries? Json.text?)
  return ⟨trace, span, sampled, .ofList baggage⟩

@[simp] theorem trace_withItem (c : Context) (k v : String) : (c.withItem k v).trace = c.trace := rfl

@[simp] theorem span_withItem (c : Context) (k v : String) : (c.withItem k v).span = c.span := rfl

@[simp] theorem sampled_withItem (c : Context) (k v : String) : (c.withItem k v).sampled = c.sampled := rfl

theorem withBaggage_cons (c : Context) (item : String × String) (items : List (String × String)) :
    c.withBaggage (item :: items) = (c.withItem item.1 item.2).withBaggage items := rfl

@[simp] theorem trace_withBaggage (c : Context) (items : List (String × String)) :
    (c.withBaggage items).trace = c.trace := by
  induction items generalizing c with
  | nil => rfl
  | cons item items ih => rw [withBaggage_cons, ih, trace_withItem]

@[simp] theorem span_withBaggage (c : Context) (items : List (String × String)) :
    (c.withBaggage items).span = c.span := by
  induction items generalizing c with
  | nil => rfl
  | cons item items ih => rw [withBaggage_cons, ih, span_withItem]

@[simp] theorem sampled_withBaggage (c : Context) (items : List (String × String)) :
    (c.withBaggage items).sampled = c.sampled := by
  induction items generalizing c with
  | nil => rfl
  | cons item items ih => rw [withBaggage_cons, ih, sampled_withItem]

end Context

end SpanFlow
