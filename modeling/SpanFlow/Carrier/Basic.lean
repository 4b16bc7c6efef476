import SpanFlow.KeyMap
import SpanFlow.Text.Ascii
import SpanFlow.Text.Quoted

/-!
Carriers: string entries seen through one transport object. A carrier may support one direction
only. A write that fails leaves the object as it was.
-/

namespace SpanFlow

inductive Direction where
  | read
  | write
  deriving DecidableEq

def Direction.name : Direction → String
  | .read => "read"
  | .write => "write"

inductive CarrierError where
  | unsupported (carrier : String) (direction : Direction)
  | invalidEntry (key reason : String)
  | rejected (carrier key reason : String)
  deriving DecidableEq

namespace CarrierError

def kind : CarrierError → String
  | .unsupported _ _ => "Unsupported"
  | .invalidEntry _ _ => "InvalidEntry"
  | .rejected _ _ _ => "Rejected"

def message : CarrierError → String
  | .unsupported c d => c ++ " carrier does not support " ++ d.name
  | .invalidEntry k r => "invalid entry " ++ Quoted.quote k ++ ": " ++ r
  | .rejected c k r => c ++ " carrier rejected " ++ Quoted.quote k ++ ": " ++ r

def isUnsupported : CarrierError → Bool
  | .unsupported _ _ => true
  | _ => false

end CarrierError

/-- Entries of a carrier, in the order it lists them. -/
abbrev Entries := List (String × String)

/-- A transport object seen as string entries. -/
class TextMap (C : Type) where
  /-- The name in errors and events. -/
  name : C → String
  /-- Exactly the entries that are there. -/
  entries : C → Except CarrierError Entries
  /-- Adds or replaces one entry. -/
  put : String → String → EStateM CarrierError C Unit

def findEntry (entries : Entries) (key : String) : Option String :=
  (entries.find? fun e => Ascii.sameIgnoringCase e.1 key).map (·.2)

def putAll {C : Type} [TextMap C] : Entries → EStateM CarrierError C Unit
  | [] => pure ()
  | (k, v) :: r => do
    TextMap.put k v
    putAll r

structure ReadOnly (C : Type) where
  object : C

structure WriteOnly (C : Type) where
  object : C

instance {C : Type} [TextMap C] : TextMap (ReadOnly C) where
  name c := TextMap.name c.object ++ "_reader"
  entries c := TextMap.entries c.object
  put _ _ := fun c => .error (.unsupported (TextMap.name c.object ++ "_reader") .write) c

instance {C : Type} [TextMap C] : TextMap (WriteOnly C) where
  name c := TextMap.name c.object ++ "_writer"
  entries c := .error (.unsupported (TextMap.name c.object ++ "_writer") .read)
  put k v := fun c =>
    match TextMap.put k v c.object with
    | .ok () o => .ok () ⟨o⟩
    | .error e o => .error e ⟨o⟩

instance : TextMap (KeyMap String) where
  name _ := "map"
  entries m := .ok m.entries
  put k v := fun m => .ok () (m.insert k v)

end SpanFlow
