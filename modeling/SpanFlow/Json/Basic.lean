import SpanFlow.Json.Numeral
import SpanFlow.Text.Hex

namespace SpanFlow

/-- A document. A text whose escapes hold half of a surrogate pair is `garbled`: it is no text,
and passes only where nobody looks at it. -/
inductive Json where
  | null
  | bool (b : Bool)
  | number (n : Json.Numeral)
  | text (s : String)
  | garbled
  | list (items : List Json)
  | record (fields : List (Option String × Json))

namespace Json

instance : Inhabited Json := ⟨.null⟩

def ofInt (i : Int) : Json := .number (Numeral.ofInt i)

def ofNat (n : Nat) : Json := .number (Numeral.ofInt n)

/-- A finite number; the infinities and NaN have no numeral and become `null`. -/
def ofDouble (x : Double) : Json :=
  if x.isFinite then .number (Numeral.ofDouble x) else .null

def ofOption {α : Type} (f : α → Json) : Option α → Json
  | some a => f a
  | none => .null

def obj (fields : List (String × Json)) : Json :=
  .record (fields.map fun (k, v) => (some k, v))

def texts (l : List String) : Json := .list (l.map .text)

def pairs (l : List (String × String)) : Json :=
  .list (l.map fun (k, v) => .list [.text k, .text v])

def escape (c : Char) : List Char :=
  if c = '"' then ['\\', '"']
  else if c = '\\' then ['\\', '\\']
  else if c = '\x08' then ['\\', 'b']
  else if c = '\x0c' then ['\\', 'f']
  else if c = '\n' then ['\\', 'n']
  else if c = '\r' then ['\\', 'r']
  else if c = '\t' then ['\\', 't']
  else if c.toNat < 0x20 then ['\\', 'u'] ++ Hex.fixed 4 c.toNat
  else [c]

def quoted (s : String) : List Char :=
  '"' :: s.toList.flatMap escape ++ ['"']

def commaSeparated : List (List Char) → List Char
  | [] => []
  | [a] => a
  | a :: b :: r => a ++ ',' :: commaSeparated (b :: r)

mutual

def chars : Json → List Char
  | .null => "null".toList
  | .bool true => "true".toList
  | .bool false => "false".toList
  | .number n => n.render
  | .text s => quoted s
  | .garbled => "null".toList
  | .list items => '[' :: (commaSeparated (itemChars items) ++ [']'])
  | .record fields => '\x7b' :: (commaSeparated (fieldChars fields) ++ ['\x7d'])

def itemChars : List Json → List (List Char)
  | [] => []
  | j :: r => j.chars :: itemChars r

def fieldChars : List (Option String × Json) → List (List Char)
  | [] => []
  | (k, j) :: r => (quoted (k.getD "") ++ ':' :: j.chars) :: fieldChars r

end

/-- The compact text of a document. -/
def render (j : Json) : String :=
  String.ofList j.chars

end Json

end SpanFlow
