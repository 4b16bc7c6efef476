import SpanFlow.Json.Reader

namespace SpanFlow.Json

abbrev Fields := List (String × Json)

def collect (names : List String) : Fields → List (Option String × Json) → Option Fields
  | found, [] => some found
  | _, (none, _) :: _ => none
  | found, (some k, j) :: r =>
    if names.contains k then
      if (found.lookup k).isSome then none else collect names (found ++ [(k, j)]) r
    else collect names found r

/-- The fields of a structure. A list may stop early only where every field has a default. -/
def fields? (names : List String) (mayStop : Bool) : Json → Option Fields
  | .record fs => collect names [] fs
  | .list items =>
    if names.length < items.length ∨ (!mayStop ∧ items.length ≠ names.length) then none
    else some (names.zip items)
  | _ => none

def Fields.required {α : Type} (fs : Fields) (name : String) (read : Json → Option α) : Option α :=
  (fs.lookup name).bind read

def Fields.withDefault {α : Type} (fs : Fields) (name : String) (read : Json → Option α) (default : α) :
    Option α :=
  match fs.lookup name with
  | some j => read j
  | none => some default

def Fields.optional {α : Type} (fs : Fields) (name : String) (read : Json → Option α) : Option (Option α) :=
  match fs.lookup name with
  | none => some none
  | some .null => some none
  | some j => (read j).map some

def text? : Json → Option String
  | .text s => some s
  | _ => none

def bool? : Json → Option Bool
  | .bool b => some b
  | _ => none

def double? : Json → Option Double
  | .number n => n.toDouble?
  | _ => none

def word? (width : Nat) : Json → Option (BitVec width)
  | .number n => (n.below? (Nat.pow 2 width)).map (BitVec.ofNat width)
  | _ => none

def list? {α : Type} (read : Json → Option α) : Json → Option (List α)
  | .list items => items.mapM read
  | _ => none

def entries? {α : Type} (read : Json → Option α) : Json → Option (List (String × α))
  | .record fs => fs.mapM fun (k, j) => do return (← k, ← read j)
  | _ => none

def choice? {α : Type} (names : List (String × α)) : Json → Option α
  | .text s => names.lookup s
  | .record [(some s, .null)] => names.lookup s
  | _ => none

end SpanFlow.Json
