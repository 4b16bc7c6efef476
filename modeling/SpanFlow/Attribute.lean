import SpanFlow.Json.Fields

/-!
Values of tags and log fields. In documents they carry no mark of their sort: the form of the
document decides it.
-/

namespace SpanFlow

inductive Attribute where
  | text (s : String)
  | int (i : Int64)
  | float (x : Double)
  | bool (b : Bool)
  | texts (items : List String)
  deriving DecidableEq

namespace Attribute

instance : Inhabited Attribute := ⟨.bool false⟩

def asText? : Attribute → Option String
  | .text s => some s
  | _ => none

def asBool? : Attribute → Option Bool
  | .bool b => some b
  | _ => none

def display : Attribute → String
  | .text s => s
  | .int i => Decimal.intText i.toInt
  | .float x => Decimal.plainText x
  | .bool b => if b then "true" else "false"
  | .texts items => "[" ++ String.intercalate "," items ++ "]"

def toJson : Attribute → Json
  | .text s => .text s
  | .int i => .ofInt i.toInt
  | .float x => .ofDouble x
  | .bool b => .bool b
  | .texts items => .texts items

def ofNumeral? (n : Json.Numeral) : Option Attribute :=
  match n.int? with
  | some i =>
    if Int64.minValue.toInt ≤ i ∧ i ≤ Int64.maxValue.toInt then some (.int (Int64.ofInt i))
    else n.toDouble?.map .float
  | none => n.toDouble?.map .float

def ofJson? : Json → Option Attribute
  | .text s => some (.text s)
  | .number n => ofNumeral? n
  | .bool b => some (.bool b)
  | .list items => (items.mapM Json.text?).map .texts
  | _ => none

end Attribute

end SpanFlow
