import SpanFlow.Call.Uri
import SpanFlow.Text.Token
import SpanFlow.Span.Data

namespace SpanFlow

inductive MessagingSystem where
  | amqp
  | jms
  | stomp
  deriving DecidableEq

def MessagingSystem.name : MessagingSystem → String
  | .amqp => "amqp"
  | .jms => "jms"
  | .stomp => "stomp"

inductive Call where
  | http (method : String) (target : Uri)
  | connection (pool : String) (instanceName : Option String)
  | send (system : MessagingSystem) (destination : String) (routingKey : Option String)
  | receive (system : MessagingSystem) (destination : String) (routingKey : Option String)
  | plain (name component : String) (kind : Kind)
  deriving DecidableEq

inductive CallError where
  | badMethod
  | badTarget (e : UriError)

def CallError.kind : CallError → String
  | .badMethod => "InvalidMethod"
  | .badTarget _ => "InvalidUri"

def CallError.message : CallError → String
  | .badMethod => "invalid HTTP method"
  | .badTarget e => e.message

namespace Call

def ofRequest (method target : String) : Except CallError Call :=
  if !Token.isToken method then .error .badMethod
  else
    match Uri.parse target with
    | .ok u => .ok (.http method u)
    | .error e => .error (.badTarget e)

def name : Call → String
  | .http _ u => "http:" ++ u.path
  | .connection _ _ => "connection.acquire"
  | .send s _ _ => s.name ++ ":send"
  | .receive s _ _ => s.name ++ ":receive"
  | .plain n _ _ => n

def component : Call → String
  | .http _ _ => "http-client"
  | .connection _ _ => "connection-pool"
  | .send s _ _ => s.name
  | .receive s _ _ => s.name
  | .plain _ c _ => c

def kind : Call → Kind
  | .http _ _ => .client
  | .connection _ _ => .client
  | .send _ _ _ => .producer
  | .receive _ _ _ => .consumer
  | .plain _ _ k => k

def messageTags (system : MessagingSystem) (destination : String) (routingKey : Option String) :
    List (String × Attribute) :=
  ("message_bus.destination", .text destination) ::
    match system, routingKey with
    | .amqp, some key => [("amqp.routing_key", .text key)]
    | _, _ => []

def tags : Call → List (String × Attribute)
  | .http m u =>
    [("http.method", .text m), ("http.url", .text u.text)] ++
      (u.host?.map fun h => ("peer.hostname", Attribute.text h)).toList
  | .connection pool inst =>
    ("pool.name", .text pool) :: (inst.map fun i => ("db.instance", Attribute.text i)).toList
  | .send s d k => messageTags s d k
  | .receive s d k => messageTags s d k
  | .plain _ _ _ => []

end Call

end SpanFlow
