import SpanFlow.Proofs.Guarded.Continuity
import SpanFlow.Proofs.Propagation.Refused
import SpanFlow.Proofs.Propagation.Untouched

namespace SpanFlow

theorem World.span?_told {ν ε : Type} (w : World ν ε) (es : List Event) (s : SpanRef) :
    (w.told es).span? s = w.span? s := by
  induction es generalizing w with
  | nil => rfl
  | cons e es ih => exact ih (w.note (.event e))

namespace Interceptor

variable {ν ε R S E F : Type} {w : World ν ε}

theorem invokes_child_of_found {C : Type} [TextMap C] [Describable F] {j : Interceptor ν ε C S}
    (hd : ∀ d ∈ j.decorators, d.Orderly) (call : Call) {m : C} {p : Context} (hm : j.foundParent m = some p)
    (w : World ν ε) :
    ∃ s v q, Invokes (fun op : SpanRef → Activity ν ε (Except F S) => j.traceInbound call m op) w s v ∧
      v.active = some s ∧ v.span? s = some q ∧ q.parent = some p.span ∧ q.context.trace = p.trace := by
  obtain ⟨s, t, u, n, v, h, hv⟩ := begun_of_orderly hd call (.context (some p)) (w.told (j.readingEvents m))
  obtain ⟨q, hq, -, -, hparent, hchild⟩ := h.child hv rfl
  obtain ⟨k, hk, htrace⟩ := h.invokes (E := F)
  refine ⟨s, v, q, ⟨k, hk, fun op => ?_⟩, hv.active, hq, hparent, ?_⟩
  · rw [← htrace op]
    exact (j.traceInbound_apply call m op w).trans (by rw [hm])
  · rw [hchild, Tracer.trace_childContext]

/-- An outbound call under a span comes to its operation with the headers that its injection left. If the
injection was refused, this is told; and still the receiver continues the span of the call. -/
theorem refused_outbound_continued [Describable E] [Describable F] {t : FormatTree} (ht : t.Fit)
    {i : Interceptor ν ε HeaderMap R} (hi : i.tracer.propagator = t.propagator) (hd : ∀ d ∈ i.decorators, d.Orderly)
    (call : Call) (m : HeaderMap) {p : Context} (hw : w.activeContext = some p) (hp : p.trace ≠ 0) :
    ∃ m' s v q, Invokes (fun op : HeaderMap × SpanRef → Activity ν ε (Except E R) =>
        i.traceOutbound call m fun m s => op (m, s)) w (m', s) v ∧
      v.active = some s ∧ v.span? s = some q ∧ q.parent = some p.span ∧
      q.context = Tracer.childContext p q.context.span ∧ m' = t.after q.context m ∧
      ∀ err, t.propagator.inject q.context m = .error err m' →
        (∃ y : World ν ε, v = y.told [⟨.warn, "span context injection failed",
          [("carrier", "http_headers"), ("operation", call.name), ("error", err.message)]⟩]) ∧
        ∀ (j : Interceptor ν ε (ReadOnly HeaderMap) S), j.tracer.propagator = t.propagator →
          (∀ d ∈ j.decorators, d.Orderly) → ∀ (received : Call) (w' : World ν ε),
          ∃ r x q', Invokes (fun op : SpanRef → Activity ν ε (Except F S) => j.traceInbound received ⟨m'⟩ op) w' r x ∧
            x.active = some r ∧ x.span? r = some q' ∧ q'.parent = some q.context.span ∧
            q'.context.trace = q.context.trace := by
  obtain ⟨s, t₀, u, n, y, h, hy⟩ := begun_of_orderly hd call .active w
  obtain ⟨q, hq, -, -, hparent, hchild⟩ := h.child hy hw
  have htrace : q.context.trace ≠ 0 := by
    rw [hchild, Tracer.trace_childContext]
    exact hp
  have hspan : q.context.span ≠ 0 := by
    rw [hchild, Tracer.span_childContext]
    exact w.supply.span_ne_zero _
  have hsame : q.context = Tracer.childContext p q.context.span := by
    rw [hchild, Tracer.span_childContext]
  have hwritten : i.written m q.context = t.after q.context m := by
    rw [written, Tracer.inject, hi, FormatTree.after]
    cases t.propagator.inject q.context m with
    | ok b m' => rfl
    | error e m' => rfl
  have hactive : (y.told (i.writingEvents call m q.context)).active = some s :=
    (y.ordinary_told _).steady.active.trans hy.active
  obtain ⟨k, hk, hinvoked⟩ := h.invokes (E := E)
  refine ⟨i.written m q.context, s, y.told (i.writingEvents call m q.context), q, ⟨k, hk, fun op => ?_⟩, hactive,
    (y.span?_told _ s).trans hq, hparent, hsame, hwritten, fun err herr => ⟨⟨y, ?_⟩, fun j hj hdj received w' => ?_⟩⟩
  · rw [← i.sending_apply call m (fun m s => op (m, s)) hq]
    exact hinvoked _
  · simp only [writingEvents, Tracer.inject, hi, herr]
    rfl
  · obtain ⟨r, hr, hrt, hrs⟩ := ht.read_refused htrace hspan herr
    have hanswer : (t.propagator.extractLenient (ReadOnly.mk (i.written m q.context))).answer = .ok (some r) := hr
    have hfound : j.foundParent ⟨i.written m q.context⟩ = some r := by simp only [foundParent, hj, hanswer]
    obtain ⟨s', x, q', hreceive, hx, hq', hfrom, htraced⟩ :=
      invokes_child_of_found (F := F) hdj received hfound w'
    exact ⟨s', x, q', hreceive, hx, hq', hfrom.trans (congrArg some hrs), htraced.trans hrt⟩

end Interceptor

end SpanFlow
