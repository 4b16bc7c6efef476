import SpanFlow.Carrier.Basic
import SpanFlow.Decimal.Shortest
import SpanFlow.Text.Utf8

namespace SpanFlow

inductive AmqpValue where
  | text (s : String)
  | int (i : Int64)
  | bool (b : Bool)
  | bytes (bs : List UInt8)
  deriving DecidableEq

namespace AmqpValue

def asText? : AmqpValue → Option String
  | .text s => some s
  | .int i => some (Decimal.intText i.toInt)
  | .bool b => some (if b then "true" else "false")
  | .bytes bs => (Utf8.decode? bs).map String.ofList

def display (v : AmqpValue) : String :=
  v.asText?.getD "<binary>"

end AmqpValue

structure AmqpMessage where
  headers : KeyMap AmqpValue
  messageId : Option String
  correlationId : Option String
  contentType : Option String
  deriving DecidableEq

def AmqpMessage.ofHeaders (headers : KeyMap AmqpValue) : AmqpMessage :=
  ⟨headers, none, none, none⟩

instance : TextMap AmqpMessage where
  name _ := "amqp_headers"
  entries m := .ok (m.headers.entries.filterMap fun (k, v) => v.asText?.map fun t => (k, t))
  put k v := fun m => .ok () { m with headers := m.headers.insert k (.text v) }

end SpanFlow
