import SpanFlow.Proofs.Guarded.Hooks

namespace SpanFlow

variable {ν ε C R E : Type} {w u v x y : World ν ε} {s : SpanRef}

namespace Interceptor

/-- A guarded call that was begun in `w`: its span was started, and in `v` the hooks before it are over. -/
structure Begun (i : Interceptor ν ε C R) (call : Call) (choice : ParentChoice) (w : World ν ε) (s : SpanRef)
    (t : Span) (u : World ν ε) (n : Nat) (v : World ν ε) : Prop where
  start : i.startSpan call choice w = (.done s, u)
  ordinary : w.Ordinary u
  fresh : w.span? s = none
  span : u.span? s = some t
  started : i.tracer.Started call.name call.kind (choice.context? w) w u t
  hooks : i.decorators.Passes "on_pre_call" (fun d => d.preCall call s) (u.entered s) n v

theorem begun_of_keeping {i : Interceptor ν ε C R} {call : Call} {rel : SpanRef → World ν ε → World ν ε → Prop}
    [∀ s, IsPreorder (World ν ε) (rel s)] (hrel : ∀ s w v, World.Ordinary w v → rel s w v)
    (hd : ∀ d ∈ i.decorators, (∃ text, d.name = .ok text) ∧ ∀ s, Keeping (rel s) id (d.preCall call s))
    (choice : ParentChoice) (w : World ν ε) :
    ∃ s t u n v, i.Begun call choice w s t u n v ∧ rel s (u.entered s) v := by
  obtain ⟨u, t, hs, hstart, ht, hstarted⟩ := i.startSpan_apply call choice w
  obtain ⟨n, v, hhooks, hv⟩ := i.decorators.passes_of_keeping (hrel ⟨w.spans.size⟩) "on_pre_call"
    (fun d h => ⟨(hd d h).1, (hd d h).2 ⟨w.spans.size⟩⟩) (u.entered ⟨w.spans.size⟩)
  exact ⟨_, t, u, n, v, ⟨hs, hstart, by simp [World.span?], ht, hstarted, hhooks⟩, hv⟩

theorem begun_of_orderly {i : Interceptor ν ε C R} (hd : ∀ d ∈ i.decorators, d.Orderly) (call : Call)
    (choice : ParentChoice) (w : World ν ε) :
    ∃ s t u n v, i.Begun call choice w s t u n v ∧ (u.entered s).Recalls s v :=
  begun_of_keeping (fun _ _ _ h => h.spares.recalls) (fun d h => ⟨(hd d h).name, (hd d h).preCall call⟩) choice w

theorem begun_of_discreet {i : Interceptor ν ε C R} (hd : ∀ d ∈ i.decorators, d.Discreet) (call : Call)
    (choice : ParentChoice) (w : World ν ε) :
    ∃ s t u n v, i.Begun call choice w s t u n v ∧ (u.entered s).Spares s v :=
  begun_of_keeping (fun _ _ _ h => h.spares) (fun d h => ⟨(hd d h).name, (hd d h).preCall call⟩) choice w

namespace Begun

variable [Describable E] {i : Interceptor ν ε C R} {call : Call} {choice : ParentChoice} {n : Nat} {t : Span}
  {op : SpanRef → Activity ν ε (Except E R)}

theorem count (h : i.Begun call choice w s t u n v) : i.decorators.preCall call s (u.entered s) = (.done n, v) :=
  h.hooks.run_eq

theorem closes (h : i.Begun call choice w s t u n v) (hx : (u.entered s).Spares s x)
    (hz : (x.left ⟨u.active, s⟩).Ordinary z) {b : Bool} (hf : s.finish z = (.done b, y)) : b = true := by
  -- The span was at most written on, so it is as open as it was at the start.
  obtain ⟨t₁, ht₁, hann₁⟩ := hx.span t h.span
  obtain ⟨t₂, ht₂, hann₂⟩ := hz.kept.spans s t₁ ht₁
  have hopen := (hann₁.trans hann₂).isFinished_eq.trans h.started.isOpen
  obtain ⟨x', hx', -⟩ := SpanRef.finish_of_open ht₂ hopen
  rw [hf] at hx'
  cases hx'
  rfl

theorem trace_panicked (h : i.Begun call choice w s t u n v) {p : Payload} (hop : op s v = (.panic p, x))
    (hx : (u.entered s).Spares s x) :
    ∃ z, (x.left ⟨u.active, s⟩).Ordinary z ∧ s.finish z = (.done true, (i.trace call choice op w).2) ∧
      (i.trace call choice op w).1 = .panic p := by
  obtain ⟨z, b, y, hz, hf, htrace⟩ :=
    trace_of_panic h.start (operate_of_panic h.count hop) hx.active
  obtain rfl := h.closes hx hz hf
  rw [htrace]
  exact ⟨z, hz, hf, rfl⟩

theorem trace_concluded (h : i.Begun call choice w s t u n v) {o : Except (E × FailureInfo) R}
    (ho : i.operate call op s (u.entered s) = (.done o, x)) (hx : (u.entered s).Spares s x)
    (hc : i.conclude call s o x = (.done (), y)) (hy : x.Spares s y) :
    s.finish (y.left ⟨u.active, s⟩) = (.done true, (i.trace call choice op w).2) ∧
      (i.trace call choice op w).1 = .done (o.mapError (·.1)) := by
  obtain ⟨b, z, hf, htrace⟩ := trace_of_done h.start ho hx.active hc hy.active
  obtain rfl := h.closes (hx.trans hy) (.refl _) hf
  rw [htrace]
  exact ⟨hf, rfl⟩

theorem trace_returned (h : i.Begun call choice w s t u n v) (hd : ∀ d ∈ i.decorators, d.Discreet) {r : R}
    (hop : op s v = (.done (.ok r), x)) (hx : (u.entered s).Spares s x) :
    ∃ m y, i.decorators.Passes "on_post_call" (fun d => d.postCall call r s) x m y ∧
      i.decorators.postCall call r s x = (.done m, y) ∧
      s.finish (y.left ⟨u.active, s⟩) = (.done true, (i.trace call choice op w).2) ∧
      (i.trace call choice op w).1 = .done (.ok r) := by
  obtain ⟨m, y, hpost, hy⟩ := i.decorators.passes_of_sparing "on_post_call"
    (fun d h => ⟨(hd d h).name, (hd d h).postCall call r s⟩) x
  have hm : i.decorators.postCall call r s x = (.done m, y) := hpost.run_eq
  have hend := h.trace_concluded (operate_of_ok h.count hop) hx (Act.bind_of_done hm) hy
  exact ⟨m, y, hpost, hm, hend⟩

theorem trace_failed (h : i.Begun call choice w s t u n v) (hd : ∀ d ∈ i.decorators, d.Discreet) {e : E}
    {text : String} (hop : op s v = (.done (.error e), x)) (hx : (u.entered s).Spares s x)
    (htext : Describable.message e = .ok text) :
    ∃ z m y, recordFailure s ⟨Describable.typeName e, text⟩ x = (.done (), z) ∧
      i.decorators.Passes "on_error" (fun d => d.onError call ⟨Describable.typeName e, text⟩ s) z m y ∧
      i.decorators.onError call ⟨Describable.typeName e, text⟩ s z = (.done m, y) ∧
      s.finish (y.left ⟨u.active, s⟩) = (.done true, (i.trace call choice op w).2) ∧
      (i.trace call choice op w).1 = .done (.error e) := by
  let f : FailureInfo := ⟨Describable.typeName e, text⟩
  obtain ⟨z, hrecord⟩ : ∃ z, recordFailure s f x = (.done (), z) := ⟨_, rfl⟩
  have hrecorded := (moves_recordFailure (w := x) s f).2.spares (s := s)
  rw [hrecord] at hrecorded
  obtain ⟨m, y, herr, hy⟩ := i.decorators.passes_of_sparing "on_error"
    (fun d h => ⟨(hd d h).name, (hd d h).onError call f s⟩) z
  have hm : i.decorators.onError call f s z = (.done m, y) := herr.run_eq
  have hend := h.trace_concluded (operate_of_error h.count hop htext hrecord) (hx.trans hrecorded)
    (Act.bind_of_done hm) hy
  exact ⟨z, m, y, hrecord, herr, hm, hend⟩

end Begun

section Invokes

variable [Describable E] {i : Interceptor ν ε C R} {call : Call} {choice : ParentChoice} {t : Span} {n : Nat}

theorem Begun.invokes (h : i.Begun call choice w s t u n v) :
    Invokes (fun op : SpanRef → Activity ν ε (Except E R) => i.trace call choice op) w s v := by
  let settled (r : Exit (Except E R) × World ν ε) : Activity ν ε (Except (E × FailureInfo) R) :=
    fun _ => ((fun _ => r : Activity ν ε _) >>= settleUnder alarms s) v
  refine ⟨fun r => (Act.onPanic (settled r) (unwind .spanActive ⟨u.active, s⟩ s) >>=
    i.wayOut call s ⟨u.active, s⟩) (u.entered s), fun z => rfl, fun op => ?_⟩
  have hoperate : i.operate call op s (u.entered s) = (op s >>= settleUnder alarms s) v := by
    rw [operate, operateUnder, Act.bind_of_done h.count]
  refine (trace_of_started h.start).trans ?_
  simp only [Act.bind_apply, Act.onPanic, hoperate]
  rfl

end Invokes

end Interceptor

end SpanFlow
