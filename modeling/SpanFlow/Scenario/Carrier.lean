import SpanFlow.Carrier.Amqp
import SpanFlow.Carrier.Http
import SpanFlow.Carrier.Jms
import SpanFlow.Carrier.Stomp
import SpanFlow.Config

namespace SpanFlow.Scenario

inductive Fault where
  | unsupported
  | invalid
  | rejected
  deriving DecidableEq

def Fault.error (f : Fault) (d : Direction) (key : String) : CarrierError :=
  match f with
  | .unsupported => .unsupported "stub" d
  | .invalid => .invalidEntry key "stub says invalid"
  | .rejected => .rejected "stub" key "stub says no"

/-- A carrier that keeps its entries as they come and fails as it is told: on every read, or on
writes once a number of them was made. -/
structure StubCarrier where
  items : Entries
  readFault : Option Fault
  writeFault : Option Fault
  writesLeft : Nat

namespace StubCarrier

def replace (key value : String) : Entries → Entries
  | [] => [(key, value)]
  | e :: r => if e.1 = key then (key, value) :: r else e :: replace key value r

def write (c : StubCarrier) (key value : String) : StubCarrier :=
  { c with items := replace key value c.items }

end StubCarrier

instance : TextMap StubCarrier where
  name _ := "stub"
  entries c :=
    match c.readFault with
    | some f => .error (f.error .read "*")
    | none => .ok c.items
  put k v := fun c =>
    match c.writeFault with
    | none => .ok () (c.write k v)
    | some f =>
      if c.writesLeft = 0 then .error (f.error .write k) c
      else .ok () { c.write k v with writesLeft := c.writesLeft - 1 }

inductive Carrier where
  | map (m : KeyMap String)
  | http (m : HeaderMap)
  | amqp (m : AmqpMessage)
  | jms (m : JmsMessage)
  | stomp (m : StompMessage)
  | stub (c : StubCarrier)
  | bare

/-- How a carrier is looked at: as it is, or through a view for one direction, where its transport
has one. -/
inductive View where
  | full
  | reader
  | writer
  deriving DecidableEq

structure Viewed where
  carrier : Carrier
  view : View

def writeThrough {A B : Type} (x : EStateM CarrierError A Unit) (a : A) (f : A → B) :
    EStateM.Result CarrierError B Unit :=
  match x a with
  | .ok () a => .ok () (f a)
  | .error e a => .error e (f a)

namespace Viewed

def name (v : Viewed) : String :=
  match v.carrier, v.view with
  | .http m, .reader => TextMap.name (ReadOnly.mk m)
  | .http m, .writer => TextMap.name (WriteOnly.mk m)
  | .http m, .full => TextMap.name m
  | .amqp m, .reader => TextMap.name (ReadOnly.mk m)
  | .amqp m, _ => TextMap.name m
  | .jms m, .reader => TextMap.name (ReadOnly.mk m)
  | .jms m, _ => TextMap.name m
  | .map m, _ => TextMap.name m
  | .stomp m, _ => TextMap.name m
  | .stub c, _ => TextMap.name c
  | .bare, _ => "bare"

def entries (v : Viewed) : Except CarrierError Entries :=
  match v.carrier, v.view with
  | .http m, .reader => TextMap.entries (ReadOnly.mk m)
  | .http m, .writer => TextMap.entries (WriteOnly.mk m)
  | .http m, .full => TextMap.entries m
  | .amqp m, .reader => TextMap.entries (ReadOnly.mk m)
  | .amqp m, _ => TextMap.entries m
  | .jms m, .reader => TextMap.entries (ReadOnly.mk m)
  | .jms m, _ => TextMap.entries m
  | .map m, _ => TextMap.entries m
  | .stomp m, _ => TextMap.entries m
  | .stub c, _ => TextMap.entries c
  | .bare, _ => .error (.unsupported "bare" .read)

def put (key value : String) : EStateM CarrierError Viewed Unit := fun v =>
  let part {A : Type} [TextMap A] (a : A) (f : A → Carrier) : EStateM.Result CarrierError Viewed Unit :=
    writeThrough (TextMap.put key value) a fun a => ⟨f a, v.view⟩
  match v.carrier, v.view with
  | .http m, .reader => part (ReadOnly.mk m) fun m => .http m.object
  | .http m, .writer => part (WriteOnly.mk m) fun m => .http m.object
  | .http m, .full => part m .http
  | .amqp m, .reader => part (ReadOnly.mk m) fun m => .amqp m.object
  | .amqp m, _ => part m .amqp
  | .jms m, .reader => part (ReadOnly.mk m) fun m => .jms m.object
  | .jms m, _ => part m .jms
  | .map m, _ => part m .map
  | .stomp m, _ => part m .stomp
  | .stub c, _ => part c .stub
  | .bare, _ => .error (.unsupported "bare" .write) v

end Viewed

instance : TextMap Viewed where
  name := Viewed.name
  entries := Viewed.entries
  put := Viewed.put

inductive StubAnswer where
  | nothing
  | context (c : Context)
  | fault (f : Fault)

inductive Format where
  | config (c : PropagationConfig)
  | composite (formats : List Format)
  | stub (answer : StubAnswer)

namespace Format

instance : Inhabited Format := ⟨.composite []⟩

def stubPropagator (answer : StubAnswer) : Propagator Viewed where
  fields := ["stub"]
  inject _ := TextMap.put "stub" "1"
  extract _ :=
    match answer with
    | .nothing => .absent
    | .context c => ⟨[], .ok (some c)⟩
    | .fault f => ⟨[], .error (f.error .read "k")⟩

mutual

def propagator : Format → Propagator Viewed
  | .config c => c.propagator
  | .composite formats => .composite (propagators formats)
  | .stub answer => stubPropagator answer

def propagators : List Format → List (Propagator Viewed)
  | [] => []
  | f :: r => f.propagator :: propagators r

end

end Format

end SpanFlow.Scenario
