import SpanFlow.Carrier.Basic

/-!
JMS messages. A property name cannot hold a dash, so each dash of a key is stored as `_$dash$_`.
-/

namespace SpanFlow

namespace JmsKey

def dash : List Char := ['_', '$', 'd', 'a', 's', 'h', '$', '_']

def encodeChars (cs : List Char) : List Char :=
  cs.flatMap fun c => if c = '-' then dash else [c]

/-- The key of a stored form: the leftmost occurrences that do not overlap become dashes. -/
def decodeChars : List Char → List Char
  | '_' :: '$' :: 'd' :: 'a' :: 's' :: 'h' :: '$' :: '_' :: r => '-' :: decodeChars r
  | c :: r => c :: decodeChars r
  | [] => []

def encode (key : String) : String := String.ofList (encodeChars key.toList)

def decode (property : String) : String := String.ofList (decodeChars property.toList)

end JmsKey

/-- A JMS message with text properties. A delivered one is read-only. -/
structure JmsMessage where
  properties : KeyMap String
  body : String
  readOnly : Bool
  deriving DecidableEq

def JmsMessage.makeWritable (m : JmsMessage) : JmsMessage :=
  { m with readOnly := false }

instance : TextMap JmsMessage where
  name _ := "jms_properties"
  entries m := .ok (m.properties.entries.map fun (k, v) => (JmsKey.decode k, v))
  put k v := fun m =>
    if m.readOnly then .error (.rejected "jms_properties" k "message properties are read-only") m
    else .ok () { m with properties := m.properties.insert (JmsKey.encode k) v }

end SpanFlow
