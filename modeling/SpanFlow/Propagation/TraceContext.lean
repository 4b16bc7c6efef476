import SpanFlow.Propagation.Basic
import SpanFlow.Text.Blank
import SpanFlow.Text.Percent

namespace SpanFlow.TraceContext

def parentKey : String := "traceparent"

def baggageKey : String := "baggage"

def fields : List String := [parentKey, baggageKey]

def parentText (c : Context) : String :=
  "00-" ++ Hex.text 32 c.trace.toNat ++ "-" ++ Hex.text 16 c.span.toNat ++ "-" ++
    (if c.sampled then "01" else "00")

def memberChars (item : String × String) : List Char :=
  Percent.encode item.1.toList ++ '=' :: Percent.encode item.2.toList

def joined (sep : Char) : List (List Char) → List Char
  | [] => []
  | [a] => a
  | a :: b :: r => a ++ sep :: joined sep (b :: r)

def baggageText (items : Entries) : String :=
  String.ofList (joined ',' (items.map memberChars))

/-- The headers of a context. Without baggage there is no second header. -/
def written (c : Context) : Entries :=
  (parentKey, parentText c) ::
    if c.baggage.isEmpty then [] else [(baggageKey, baggageText c.baggage.entries)]

def splitAt (sep : Char) : List Char → List (List Char)
  | [] => [[]]
  | c :: r =>
    if c = sep then [] :: splitAt sep r
    else
      match splitAt sep r with
      | a :: l => (c :: a) :: l
      | [] => [[c]]

structure Parent where
  trace : TraceId
  span : SpanId
  sampled : Bool
  deriving DecidableEq

/-- Version, trace, span and flags from the parts of the header. Version `00` has no further
parts. -/
def parentOfParts : List (List Char) → Option Parent
  | version :: trace :: span :: flags :: more => do
    let v ← Hex.ofWidth? 2 version
    if v = 255 ∨ (v = 0 ∧ !more.isEmpty) then none
    else
      let t ← Hex.ofWidth? 32 trace
      let s ← Hex.ofWidth? 16 span
      let f ← Hex.ofWidth? 2 flags
      if t = 0 ∨ s = 0 then none
      else return ⟨BitVec.ofNat 128 t, BitVec.ofNat 64 s, f % 2 = 1⟩
  | _ => none

def parseParent (value : String) : Option Parent :=
  parentOfParts (splitAt '-' (Blank.trim value.toList))

def splitOnce (sep : Char) : List Char → Option (List Char × List Char)
  | [] => none
  | c :: r => if c = sep then some ([], r) else (splitOnce sep r).map fun (a, b) => (c :: a, b)

def decodePart (cs : List Char) : Option (List Char) :=
  Percent.decode? (Blank.trim cs)

def parseMember (member : List Char) : Option (String × String) := do
  let (key, value) ← splitOnce '=' (Blank.trim (member.takeWhile (· ≠ ';')))
  let k ← decodePart key
  let v ← decodePart value
  if k.isEmpty then none else return (String.ofList k, String.ofList v)

/-- The items of a baggage header. A member that cannot be read is passed over. -/
def parseBaggage (value : String) : Entries :=
  (splitAt ',' value.toList).filterMap parseMember

def read (carrier : String) (entries : Entries) : Extraction :=
  match findEntry entries parentKey with
  | none => .absent
  | some raw =>
    match parseParent raw with
    | none => .ignored "malformed traceparent" [("carrier", carrier), ("traceparent", raw)]
    | some p =>
      let items := ((findEntry entries baggageKey).map parseBaggage).getD []
      ⟨[], .ok (some ((Context.new p.trace p.span p.sampled).withBaggage items))⟩

def propagator {C : Type} [TextMap C] : Propagator C :=
  .ofEntries fields written read

end SpanFlow.TraceContext
