import SpanFlow.Carrier.Basic

/-!
STOMP messages: plain headers, and native headers that may repeat. A write goes to both; reading
shows the first native value of each key, then the plain headers without a native key.
-/

namespace SpanFlow

structure StompMessage where
  headers : KeyMap String
  native : KeyMap (List String)
  deriving DecidableEq

namespace StompMessage

def addNative (m : StompMessage) (key value : String) : StompMessage :=
  { m with native := m.native.insert key ((m.native.get? key).getD [] ++ [value]) }

def firstNative? (m : StompMessage) (key : String) : Option String :=
  (m.native.get? key).bind List.head?

def entries (m : StompMessage) : Entries :=
  m.native.entries.filterMap (fun (k, vs) => vs.head?.map fun v => (k, v)) ++
    m.headers.entries.filter fun (k, _) => !m.native.contains k

def put (m : StompMessage) (key value : String) : StompMessage :=
  ⟨m.headers.insert key value, m.native.insert key [value]⟩

end StompMessage

instance : TextMap StompMessage where
  name _ := "message_headers"
  entries m := .ok m.entries
  put k v := fun m => .ok () (m.put k v)

end SpanFlow
