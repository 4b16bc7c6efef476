import SpanFlow.Carrier.Jms
import SpanFlow.Proofs.Guarded.Begun

/-!
What a guarded call makes of the code that it guards: nothing. Hooks that fail, and carriers that cannot
be read or written, are told in the journal and forgotten. Main statement: a guarded call comes past the
hooks before it, the code, once, and the hooks that the end of the code asks for, and ends as the code
does; code that sees nothing of the instrumentation ends as it would have without.
-/

namespace SpanFlow

variable {ν ε C R E β : Type} {w u v x y z : World ν ε} {s : SpanRef}

namespace World

def SameSurroundings (w v : World ν ε) : Prop :=
  v.surroundings = w.surroundings

instance : IsPreorder (World ν ε) SameSurroundings where
  refl _ := rfl
  trans _ _ _ h g := g.trans h

end World

theorem SpanRef.surroundings_setTag (r : SpanRef) (k : String) (a : Attribute) (w : World ν ε) :
    w.SameSurroundings (r.setTag k a w).2 := by
  simp only [setTag, Act.modify]
  split
  · rfl
  · split <;> rfl

namespace Tracer

theorem surroundings_start (t : Tracer C) (name : String) (kind : Kind) (parent : Option Context) (w : World ν ε) :
    Act.Moves World.SameSurroundings (t.start name kind parent) w := by
  have hsample (u : World ν ε) : Act.Moves World.SameSurroundings (t.sampleRoot : Activity ν ε Bool) u := by
    unfold sampleRoot
    split
    · exact Act.moves_pure _
    · split
      · exact Act.moves_pure _
      · exact Act.moves_of_done rfl rfl
  have hcontext (id : SpanId) (u : World ν ε) :
      Act.Moves World.SameSurroundings (t.newContext id parent : Activity ν ε Context) u := by
    cases parent with
    | some p => exact Act.moves_pure _
    | none =>
      have htrace : Act.Moves World.SameSurroundings (Activity.freshTraceId : Activity ν ε TraceId) u :=
        Act.moves_of_done rfl rfl
      exact htrace.bind fun _ x _ _ => (hsample x).bind fun _ _ _ _ => Act.moves_pure _
  have hservice (r : SpanRef) (u : World ν ε) :
      Act.Moves World.SameSurroundings (t.tagService r : Activity ν ε Unit) u := by
    unfold tagService
    split
    · exact Act.moves_of_done rfl (r.surroundings_setTag _ _ u)
    · exact Act.moves_pure _
  have hid : Act.Moves World.SameSurroundings (Activity.freshSpanId : Activity ν ε SpanId) w :=
    Act.moves_of_done rfl rfl
  rw [start_eq]
  refine hid.bind fun id u _ _ => (hcontext id u).bind fun c x _ _ => ?_
  have hcreate : Act.Moves World.SameSurroundings
      (SpanRef.create c (parent.map Context.span) name kind t.reporter) x := Act.moves_of_done rfl rfl
  exact hcreate.bind fun r y _ _ => (hservice r y).bind fun _ _ _ _ => Act.moves_pure _

end Tracer

namespace Interceptor

theorem surroundings_startSpan (i : Interceptor ν ε C R) (call : Call) (choice : ParentChoice)
    (hs : i.startSpan call choice w = (.done s, u)) : u.surroundings = w.surroundings := by
  have hmoves : Act.Moves World.SameSurroundings (i.startSpan call choice) w := by
    cases choice with
    | active => exact i.tracer.surroundings_start call.name call.kind w.activeContext w
    | root => exact i.tracer.surroundings_start call.name call.kind none w
    | context c => exact i.tracer.surroundings_start call.name call.kind c w
  have h := hmoves.2
  rwa [hs] at h

/-- What a guarded call goes through inside its scope, from `w` on: every hook before the call; the code,
once, after these events were told; every hook for its end, and no other. -/
inductive Course [Describable E] (i : Interceptor ν ε C R) (call : Call) (es : List Event)
    (code : Activity ν ε (Except E R)) (s : SpanRef) (w : World ν ε) : Exit (Except E R) → World ν ε → Prop where
  | returned {n m : Nat} {r : R} {u v y : World ν ε}
      (hpre : i.decorators.Passes "on_pre_call" (fun d => d.preCall call s) w n u)
      (hn : i.decorators.preCall call s w = (.done n, u)) (hcode : code (u.told es) = (.done (.ok r), v))
      (hpost : i.decorators.Passes "on_post_call" (fun d => d.postCall call r s) v m y)
      (hm : i.decorators.postCall call r s v = (.done m, y)) : Course i call es code s w (.done (.ok r)) y
  | failed {n m : Nat} {e : E} {text : String} {u v x y : World ν ε}
      (hpre : i.decorators.Passes "on_pre_call" (fun d => d.preCall call s) w n u)
      (hn : i.decorators.preCall call s w = (.done n, u)) (hcode : code (u.told es) = (.done (.error e), v))
      (htext : Describable.message e = .ok text)
      (hrecord : recordFailure s ⟨Describable.typeName e, text⟩ v = (.done (), x))
      (herr : i.decorators.Passes "on_error" (fun d => d.onError call ⟨Describable.typeName e, text⟩ s) x m y)
      (hm : i.decorators.onError call ⟨Describable.typeName e, text⟩ s x = (.done m, y)) :
      Course i call es code s w (.done (.error e)) y
  | panicked {n : Nat} {p : Payload} {u v : World ν ε}
      (hpre : i.decorators.Passes "on_pre_call" (fun d => d.preCall call s) w n u)
      (hn : i.decorators.preCall call s w = (.done n, u)) (hcode : code (u.told es) = (.panic p, v)) :
      Course i call es code s w (.panic p) v

/-- A guarded call as a whole, for events and code that may depend on its new span: the span is started,
the call takes its course inside the span's scope and ends as the course does, and the span is closed. -/
def RunsAs [Describable E] (i : Interceptor ν ε C R) (call : Call) (choice : ParentChoice)
    (es : Span → List Event) (code : Span → SpanRef → Activity ν ε (Except E R)) (w : World ν ε)
    (result : Exit (Except E R) × World ν ε) : Prop :=
  ∃ s u t y z, i.startSpan call choice w = (.done s, u) ∧ w.span? s = none ∧ u.span? s = some t ∧
    i.Course call (es t) (code t s) s (u.entered s) result.1 y ∧
    (y.left ⟨w.active, s⟩).Ordinary z ∧ s.finish z = (.done true, result.2)

theorem runsAs_trace [Describable E] {i : Interceptor ν ε C R} (hd : ∀ d ∈ i.decorators, d.Discreet) (call : Call)
    (choice : ParentChoice) {es : Span → List Event} {code : Span → SpanRef → Activity ν ε (Except E R)}
    {op : SpanRef → Activity ν ε (Except E R)} (hcode : ∀ t s, Sparing s Describable.message (code t s))
    (hop : ∀ s t t' v, World.span? v s = some t' → t.Annotated t' → op s v = code t s (v.told (es t)))
    (w : World ν ε) : i.RunsAs call choice es code w (i.trace call choice op w) := by
  obtain ⟨s, t, u, n, v, h, hv⟩ := begun_of_discreet hd call choice w
  obtain ⟨t', ht', hann⟩ := hv.span t h.span
  have hrun := hop s t t' v ht' hann
  have htold : (u.entered s).Spares s (v.told (es t)) := hv.trans (v.ordinary_told _).spares
  obtain ⟨hmoves, hrender⟩ := hcode t s (v.told (es t))
  rw [RunsAs, ← h.ordinary.steady.active]
  rcases hmoves.cases with ⟨r | r, x, hx, hspares⟩ | ⟨p, x, hx, hspares⟩
  · obtain ⟨text, htext⟩ := hrender r x hx
    obtain ⟨z, m, y, hrecord, herr, hm, hf, hexit⟩ :=
      h.trace_failed hd (hrun.trans hx) (htold.trans hspares) htext
    rw [hexit]
    exact ⟨s, u, t, y, _, h.start, h.fresh, h.span, .failed h.hooks h.count hx htext hrecord herr hm, .refl _, hf⟩
  · obtain ⟨m, y, hpost, hm, hf, hexit⟩ := h.trace_returned hd (hrun.trans hx) (htold.trans hspares)
    rw [hexit]
    exact ⟨s, u, t, y, _, h.start, h.fresh, h.span, .returned h.hooks h.count hx hpost hm, .refl _, hf⟩
  · obtain ⟨z, hz, hf, hexit⟩ := h.trace_panicked (hrun.trans hx) (htold.trans hspares)
    rw [hexit]
    exact ⟨s, u, t, x, z, h.start, h.fresh, h.span, .panicked h.hooks h.count hx, hz, hf⟩

def sending [TextMap C] [Describable E] (i : Interceptor ν ε C R) (call : Call) (carrier : C)
    (op : C → SpanRef → Activity ν ε (Except E R)) (span : SpanRef) : Activity ν ε (Except E R) := do
  match ← Act.read fun w => (w.span? span).map Span.context with
  | none => op carrier span
  | some context =>
    match i.tracer.inject context carrier with
    | (.ok (), c) => op c span
    | (.error e, c) =>
      tellInjection call c e
      op c span

theorem traceOutbound_eq [TextMap C] [Describable E] (i : Interceptor ν ε C R) (call : Call) (carrier : C)
    (op : C → SpanRef → Activity ν ε (Except E R)) :
    i.traceOutbound call carrier op = i.trace call .active (i.sending call carrier op) := rfl

def written (i : Interceptor ν ε C R) (carrier : C) (c : Context) : C :=
  (i.tracer.inject c carrier).2

def writingEvents [TextMap C] (i : Interceptor ν ε C R) (call : Call) (carrier : C) (c : Context) : List Event :=
  match i.tracer.inject c carrier with
  | (.ok (), _) => []
  | (.error e, c) =>
    [⟨.warn, "span context injection failed",
      [("carrier", TextMap.name c), ("operation", call.name), ("error", e.message)]⟩]

theorem sending_apply [TextMap C] [Describable E] (i : Interceptor ν ε C R) (call : Call) (carrier : C)
    (op : C → SpanRef → Activity ν ε (Except E R)) {t : Span} (ht : w.span? s = some t) :
    i.sending call carrier op s w =
      op (i.written carrier t.context) s (w.told (i.writingEvents call carrier t.context)) := by
  have hread : Act.read (fun w : World ν ε => (w.span? s).map Span.context) w = (.done (some t.context), w) := by
    rw [Act.read, ht, Option.map_some]
  simp only [sending, Act.bind_of_done hread, written, writingEvents]
  rcases i.tracer.inject t.context carrier with ⟨e | ⟨⟨⟩⟩, c⟩ <;> rfl

def foundParent [TextMap C] (i : Interceptor ν ε C R) (carrier : C) : Option Context :=
  match (i.tracer.propagator.extractLenient carrier).answer with
  | .ok parent => parent
  | .error _ => none

def readingEvents [TextMap C] (i : Interceptor ν ε C R) (carrier : C) : List Event :=
  let found := i.tracer.propagator.extractLenient carrier
  match found.answer with
  | .ok _ => found.events
  | .error e => found.events ++
    [⟨.warn, "span context extraction failed", [("carrier", TextMap.name carrier), ("error", e.message)]⟩]

theorem traceInbound_apply [TextMap C] [Describable E] (i : Interceptor ν ε C R) (call : Call) (carrier : C)
    (op : SpanRef → Activity ν ε (Except E R)) (w : World ν ε) :
    i.traceInbound call carrier op w =
      i.trace call (.context (i.foundParent carrier)) op (w.told (i.readingEvents carrier)) := by
  have hextract : i.tracer.extract carrier w =
      (.done (i.tracer.propagator.extractLenient carrier).answer,
        w.told (i.tracer.propagator.extractLenient carrier).events) :=
    Act.bind_of_done (Activity.emitAll_apply _ w)
  rw [traceInbound, Act.bind_of_done hextract, foundParent, readingEvents]
  rcases (i.tracer.propagator.extractLenient carrier).answer with e | parent
  · simp only [World.told, List.foldl_append]
    rfl
  · rfl

theorem RunsAs.exit_eq [Describable E] {i : Interceptor ν ε C R} {call : Call} {choice : ParentChoice}
    {es : Span → List Event} {body : Activity ν ε (Except E R)} {result : Exit (Except E R) × World ν ε}
    (h : i.RunsAs call choice es (fun _ _ => body) w result) {view : Surroundings ν ε → β}
    (hd : ∀ d ∈ i.decorators, d.Unseen view)
    (hbody : ∀ u v : World ν ε, view u.surroundings = view v.surroundings → (body u).1 = (body v).1) :
    result.1 = (body w).1 := by
  obtain ⟨s, u, t, y, z, hs, -, -, hcourse, -, -⟩ := h
  have hstart : u.surroundings = w.surroundings := i.surroundings_startSpan call choice hs
  have hentered : (u.entered s).surroundings = u.surroundings := rfl
  have hreach {n : Nat} {v : World ν ε}
      (hpre : i.decorators.Passes "on_pre_call" (fun d => d.preCall call s) (u.entered s) n v) :
      (body (v.told (es t))).1 = (body w).1 := by
    refine hbody _ _ ?_
    rw [World.surroundings_told, hpre.view_eq fun d h => (hd d h).preCall call s, hentered, hstart]
  -- Whatever the course, the code was run once, in a state that looks as `w` does.
  generalize result.1 = e at hcourse
  cases hcourse with
  | returned hpre _ hcode => exact (congrArg Prod.fst hcode).symm.trans (hreach hpre)
  | failed hpre _ hcode => exact (congrArg Prod.fst hcode).symm.trans (hreach hpre)
  | panicked hpre _ hcode => exact (congrArg Prod.fst hcode).symm.trans (hreach hpre)

section Calls

variable [TextMap C] [Describable E] {i : Interceptor ν ε C R} (hd : ∀ d ∈ i.decorators, d.Discreet) (call : Call)
  (carrier : C) (w : World ν ε)

include hd in
theorem runsAs_outbound {op : C → SpanRef → Activity ν ε (Except E R)}
    (hop : ∀ c s, Sparing s Describable.message (op c s)) :
    i.RunsAs call .active (fun t => i.writingEvents call carrier t.context)
      (fun t => op (i.written carrier t.context)) w (i.traceOutbound call carrier op w) := by
  rw [traceOutbound_eq]
  refine runsAs_trace hd call .active (fun t => hop _) (fun s t t' v ht' hann => ?_) w
  rw [i.sending_apply call carrier op ht', hann.context]

include hd in
theorem runsAs_inbound {op : SpanRef → Activity ν ε (Except E R)} (hop : ∀ s, Sparing s Describable.message (op s)) :
    i.RunsAs call (.context (i.foundParent carrier)) (fun _ => []) (fun _ => op)
      (w.told (i.readingEvents carrier)) (i.traceInbound call carrier op w) := by
  rw [traceInbound_apply]
  exact runsAs_trace hd call _ (fun _ => hop) (fun _ _ _ _ _ _ => rfl) _

theorem exit_of_unseen {view : Surroundings ν ε → β} (hd : ∀ d ∈ i.decorators, d.Discreet)
    (hview : ∀ d ∈ i.decorators, d.Unseen view) {body : Activity ν ε (Except E R)}
    (hbody : ∀ s, Sparing s Describable.message body)
    (hblind : ∀ u v : World ν ε, view u.surroundings = view v.surroundings → (body u).1 = (body v).1) :
    (∀ choice, (i.trace call choice (fun _ => body) w).1 = (body w).1) ∧
      (i.traceOutbound call carrier (fun _ _ => body) w).1 = (body w).1 ∧
      (i.traceInbound call carrier (fun _ => body) w).1 = (body w).1 := by
  refine ⟨fun choice => ?_, ?_, ?_⟩
  · have h : i.RunsAs call choice (fun _ => []) (fun _ _ => body) w _ :=
      runsAs_trace hd call choice (fun _ => hbody) (fun _ _ _ _ _ _ => rfl) w
    exact h.exit_eq hview hblind
  · exact RunsAs.exit_eq (runsAs_outbound hd call carrier w fun _ => hbody) hview hblind
  · have h := RunsAs.exit_eq (runsAs_inbound hd call carrier w hbody) hview hblind
    rw [h]
    exact hblind _ _ (by rw [World.surroundings_told])

end Calls

end Interceptor

end SpanFlow
