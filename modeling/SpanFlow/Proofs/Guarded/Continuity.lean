import SpanFlow.Proofs.Guarded.Attribution
import SpanFlow.Proofs.Guarded.Transparency
import SpanFlow.Proofs.Propagation.Forwarding

/-!
Traces that go on over many hops. In a hop an outbound call writes the context of its span into a fresh
carrier, and an inbound call, wherever it is made, reads it there; the next hop is made from inside that
call. Main statement: along any row of hops every call comes to its operation, its span is a child of the
one before it, and trace, sampling decision and baggage stay what they were at the start.
-/

namespace SpanFlow

variable {ν ε C R E : Type} {w u v x : World ν ε} {s : SpanRef} {f : Format}

inductive Fresh : {C : Type} → [TextMap C] → C → Prop where
  | map : Fresh (KeyMap.empty : KeyMap String)
  | unordered {order : KeyMap String → Entries} (h : ∀ m, (order m).Perm m.entries) : Fresh (⟨.empty⟩ : Unordered order)
  | amqp {m : AmqpMessage} (h : m.headers = .empty) : Fresh m
  | stomp : Fresh (⟨.empty, .empty⟩ : StompMessage)

theorem Fresh.faithful [TextMap C] {m : C} (h : Fresh m) : Faithful m fun _ => True := by
  cases h with
  | map => exact faithful_map
  | unordered h => exact faithful_unordered h
  | amqp h => exact faithful_amqp h
  | stomp => exact faithful_stomp

structure Context.Alike (o c : Context) : Prop where
  trace : c.trace = o.trace
  sampled : c.sampled = o.sampled
  baggage : c.baggage = o.baggage

theorem Context.Alike.trans {o p c : Context} (h : o.Alike p) (g : p.Alike c) : o.Alike c :=
  ⟨g.trace.trans h.trace, g.sampled.trans h.sampled, g.baggage.trans h.baggage⟩

theorem Tracer.trace_childContext (p : Context) (id : SpanId) : (childContext p id).trace = p.trace := by
  rw [childContext, Context.trace_withBaggage, Context.new]

theorem Tracer.span_childContext (p : Context) (id : SpanId) : (childContext p id).span = id := by
  rw [childContext, Context.span_withBaggage, Context.new]

theorem Tracer.childContext_eq {p : Context} (hp : p.Portable) (id : SpanId) :
    childContext p id = ⟨p.trace, id, p.sampled, p.baggage⟩ :=
  Context.withBaggage_of_perm hp.lowered (.refl _) p.trace id p.sampled

/-- In `v` a call has come to its operation, with its span `s` active. The span is `t`: a child of `p`, with
trace, sampling decision and baggage from `o`. -/
structure Arrived (call : Call) (o p : Context) (s : SpanRef) (t : Span) (v : World ν ε) : Prop where
  active : v.active = some s
  span : v.span? s = some t
  name : t.name = call.name
  kind : t.kind = call.kind
  parent : t.parent = some p.span
  alike : o.Alike t.context

theorem Arrived.of_alike {call : Call} {o p : Context} {t : Span} (h : Arrived call p p s t v) (hp : o.Alike p) :
    Arrived call o p s t v :=
  ⟨h.active, h.span, h.name, h.kind, h.parent, hp.trans h.alike⟩

namespace Interceptor

section Arrived

variable {i : Interceptor ν ε C R} {call : Call} {choice : ParentChoice} {t : Span} {n : Nat}

theorem Begun.child (h : i.Begun call choice w s t u n v) (hv : (u.entered s).Recalls s v) {p : Context}
    (hchoice : choice.context? w = some p) : ∃ t', v.span? s = some t' ∧ t'.name = call.name ∧ t'.kind = call.kind ∧
      t'.parent = some p.span ∧ t'.context = Tracer.childContext p (w.supply.spanIds w.used.spans) := by
  obtain ⟨t', ht', horigin⟩ := hv.span t h.span
  simp only [Span.origin, Span.Origin.mk.injEq] at horigin
  obtain ⟨hcontext, hparent, hname, hkind⟩ := horigin
  have hparentId := h.started.parentId
  rw [hchoice] at hparentId
  exact ⟨t', ht', hname.trans h.started.name, hkind.trans h.started.kind, hparent.trans hparentId,
    hcontext.trans (h.started.child p hchoice)⟩

theorem Begun.arrived (h : i.Begun call choice w s t u n v) (hv : (u.entered s).Recalls s v) {p : Context}
    (hchoice : choice.context? w = some p) (hp : p.Portable) :
    ∃ t', Arrived call p p s t' v ∧ t'.context.Portable := by
  obtain ⟨t', ht', hname, hkind, hparent, hchild⟩ := h.child hv hchoice
  rw [Tracer.childContext_eq hp] at hchild
  refine ⟨t', ⟨hv.active, ht', hname, hkind, hparent, ?_⟩, ?_⟩
  · rw [hchild]
    exact ⟨rfl, rfl, rfl⟩
  · rw [hchild]
    exact ⟨hp.trace, w.supply.span_ne_zero _, hp.labelled⟩

end Arrived

section Found

variable [TextMap C] [Describable E] {i : Interceptor ν ε C R} {m : C} {p : Context}

theorem invokes_inbound (hi : i.tracer.propagator = f.propagator) (hd : ∀ d ∈ i.decorators, d.Orderly) (call : Call)
    (hp : p.Portable) (hm : (f.propagator : Propagator C).extractLenient m = ⟨[], .ok (some p)⟩) (w : World ν ε) :
    ∃ s v t, Invokes (fun op : SpanRef → Activity ν ε (Except E R) => i.traceInbound call m op) w s v ∧
      Arrived call p p s t v ∧ t.context.Portable := by
  have hfound : i.foundParent m = some p := by rw [foundParent, hi, hm]
  have hquiet : i.readingEvents m = [] := by simp only [readingEvents, hi, hm]
  obtain ⟨s, t, u, n, v, h, hv⟩ := begun_of_orderly hd call (.context (some p)) w
  obtain ⟨t', harrived, hportable⟩ := h.arrived hv rfl hp
  obtain ⟨k, hk, htrace⟩ := h.invokes (E := E)
  refine ⟨s, v, t', ⟨k, hk, fun op => ?_⟩, harrived, hportable⟩
  rw [← htrace op]
  exact (i.traceInbound_apply call m op w).trans (by rw [hfound, hquiet]; rfl)

theorem invokes_outbound (hf : f.Fit) (hi : i.tracer.propagator = f.propagator)
    (hd : ∀ d ∈ i.decorators, d.Orderly) (call : Call) (hm : Fresh m) (hw : w.activeContext = some p)
    (hp : p.Portable) :
    ∃ m' s v t, Invokes (fun op : C × SpanRef → Activity ν ε (Except E R) =>
        i.traceOutbound call m fun m s => op (m, s)) w (m', s) v ∧
      Arrived call p p s t v ∧ t.context.Portable ∧
      (f.propagator : Propagator C).extractLenient m' = ⟨[], .ok (some t.context)⟩ := by
  obtain ⟨s, t, u, n, v, h, hv⟩ := begun_of_orderly hd call .active w
  obtain ⟨t', harrived, hportable⟩ := h.arrived hv hw hp
  obtain ⟨m', hput, hread⟩ := Format.forwards_of_faithful hf hportable hm.faithful
  have hinject : i.tracer.inject t'.context m = (.ok (), m') := by rw [Tracer.inject, hi, hput]
  obtain ⟨k, hk, htrace⟩ := h.invokes (E := E)
  refine ⟨m', s, v, t', ⟨k, hk, fun op => ?_⟩, harrived, hportable, hread⟩
  have hsend : i.sending call m (fun m s => op (m, s)) s v = op (m', s) v := by
    rw [i.sending_apply call m _ harrived.span, written, writingEvents, hinject]
    rfl
  rw [← hsend]
  exact htrace _

end Found

end Interceptor

/-- A hop in a wire format: an outbound call with a fresh carrier, and an inbound call for what will be
written into it. -/
structure Hop (f : Format) (ν ε : Type) where
  {Carrier Sent SendError Received ReceiveError : Type}
  [textMap : TextMap Carrier]
  [sendError : Describable SendError]
  [receiveError : Describable ReceiveError]
  carrier : Carrier
  sent : Call
  sender : Interceptor ν ε Carrier Sent
  received : Call
  receiver : Interceptor ν ε Carrier Received
  fresh : Fresh carrier
  sender_format : sender.tracer.propagator = f.propagator
  sender_hooks : ∀ d ∈ sender.decorators, d.Orderly
  receiver_format : receiver.tracer.propagator = f.propagator
  receiver_hooks : ∀ d ∈ receiver.decorators, d.Orderly

attribute [instance] Hop.textMap Hop.sendError Hop.receiveError

namespace Hop

def send (h : Hop f ν ε) (op : h.Carrier × SpanRef → Activity ν ε (Except h.SendError h.Sent)) :
    Activity ν ε (Except h.SendError h.Sent) :=
  h.sender.traceOutbound h.sent h.carrier fun m s => op (m, s)

def receive (h : Hop f ν ε) (m : h.Carrier) (op : SpanRef → Activity ν ε (Except h.ReceiveError h.Received)) :
    Activity ν ε (Except h.ReceiveError h.Received) :=
  h.receiver.traceInbound h.received m op

/-- `Carried o hops p w`: the outbound call of the first hop, made in `w`, comes to its operation as a child
of `p`. Whoever receives the carrier of that operation, in whatever state, comes to the operation of the
inbound call as a child of the outbound call's span; and the rest of the hops is carried from every state
with the span of that operation active. -/
def Carried (o : Context) : List (Hop f ν ε) → Context → World ν ε → Prop
  | [], _, _ => True
  | h :: hops, p, w =>
    ∃ m s v t, Invokes h.send w (m, s) v ∧ Arrived h.sent o p s t v ∧
      ∀ w', ∃ r u q, Invokes (h.receive m) w' r u ∧ Arrived h.received o t.context r q u ∧
        ∀ x q', x.active = some r → x.span? r = some q' → q'.context = q.context → Carried o hops q.context x

theorem carried_of_portable (hf : f.Fit) {o : Context} (hops : List (Hop f ν ε)) {p : Context}
    (hw : w.activeContext = some p) (hp : p.Portable) (ho : o.Alike p) : Carried o hops p w := by
  induction hops generalizing p w with
  | nil => trivial
  | cons h hops ih =>
    obtain ⟨m, s, v, t, hsend, hout, hportable, hread⟩ :=
      Interceptor.invokes_outbound (E := h.SendError) hf h.sender_format h.sender_hooks h.sent h.fresh hw hp
    have hout := hout.of_alike ho
    -- The receiver may be anywhere: of `w'` nothing is known.
    refine ⟨m, s, v, t, hsend, hout, fun w' => ?_⟩
    obtain ⟨r, u, q, hreceive, hin, hportable'⟩ :=
      Interceptor.invokes_inbound (E := h.ReceiveError) h.receiver_format h.receiver_hooks h.received hportable hread w'
    have hin := hin.of_alike hout.alike
    refine ⟨r, u, q, hreceive, hin, fun x q' hx hq' hcontext => ?_⟩
    have hactive := World.activeContext_of_span hx hq'
    rw [hcontext] at hactive
    exact ih hactive hportable' hin.alike

/-- A row of hops, of whatever length, continues the trace of the span under which the first outbound call
is made, whatever span is active where a hop is received. -/
theorem trace_carried (hf : f.Fit) (hops : List (Hop f ν ε)) {s : SpanRef} {t : Span} (hs : w.active = some s)
    (ht : w.span? s = some t) {trace : TraceId} {id : SpanId} {sampled : Bool} {items : List (String × String)}
    (hc : t.context = (Context.new trace id sampled).withBaggage items) (htrace : trace ≠ 0) (hid : id ≠ 0)
    (hitems : ∀ e ∈ items, e.1 ≠ "") : Carried t.context hops t.context w := by
  have hportable : t.context.Portable := by
    rw [hc]
    exact Context.portable_new htrace hid sampled hitems
  exact carried_of_portable hf hops (World.activeContext_of_span hs ht) hportable ⟨rfl, rfl, rfl⟩

def standard [TextMap C] (f : Format) (m : C) (hm : Fresh m) (name : String) : Hop f ν ε where
  Carrier := C
  Sent := Unit
  SendError := Empty
  Received := Unit
  ReceiveError := Empty
  carrier := m
  sent := .plain name "sender" .producer
  sender := ⟨{ (Tracer.default : Tracer C) with propagator := f.propagator }, [.standardTags]⟩
  received := .plain name "receiver" .consumer
  receiver := ⟨{ (Tracer.default : Tracer C) with propagator := f.propagator }, [.standardTags]⟩
  fresh := hm
  sender_format := rfl
  sender_hooks := by simp [Decorator.discreet_standardTags.orderly]
  receiver_format := rfl
  receiver_hooks := by simp [Decorator.discreet_standardTags.orderly]

/-- Two hops in both formats at once, from a span that is not sampled. -/
theorem trace_carried_twice :
    let f := Format.b3First B3.defaultPrefix
    let t := Span.opened ((Context.new 7 9 false).withBaggage [("Tenant", "ä=1")]) none "origin" .server .null 0
    let w : World Unit Unit := { World.initial .constant () with spans := #[t], active := some ⟨0⟩ }
    let hops : List (Hop f Unit Unit) :=
      [standard f (KeyMap.empty : KeyMap String) .map "order", standard f (⟨.empty, .empty⟩ : StompMessage) .stomp "bill"]
    w.active = some ⟨0⟩ ∧ w.span? ⟨0⟩ = some t ∧ Carried t.context hops t.context w := by
  intro f t w hops
  have hf : f.Fit := Format.fit_default.2.2.1
  have hitems : ∀ e ∈ [("Tenant", "ä=1")], e.1 ≠ "" := by simp
  exact ⟨rfl, rfl, trace_carried hf hops rfl rfl rfl (by decide) (by decide) hitems⟩

end Hop

end SpanFlow
