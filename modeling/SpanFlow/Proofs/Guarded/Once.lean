import SpanFlow.Proofs.Guarded.Stages
import SpanFlow.Proofs.World.Closing

/-!
Spans of guarded calls are closed once. The operation and the hooks may do to the span whatever its
handle allows, leave other spans active, and panic. Main statement: unless everything is brought down,
the span of a guarded call is closed when the call is over, its reporter got one record of it, and no
alarm was raised but the one for a span that someone else had closed, in exactly that case.
-/

namespace SpanFlow

variable {ν ε C R E α : Type} {w : World ν ε}

namespace Handled

protected theorem pure (a : α) : Handled (pure a : Activity ν ε α) := .own fun w => .refl w

protected theorem panic (p : Payload) : Handled (Act.panic p : Activity ν ε α) := .own fun w => .refl w

protected theorem read (f : World ν ε → α) : Handled (Act.read f) := .own fun w => .refl w

protected theorem resume (r : Except Payload α) : Handled (Act.resume r : Activity ν ε α) := by
  cases r with
  | ok a => exact .pure a
  | error p => exact .panic p

theorem emit {e : Event} (h : e.message ≠ "span finished") : Handled (Activity.emit e : Activity ν ε Unit) :=
  .own fun w => w.sameRecords_note fun d hd => by
    cases hd
    exact h

theorem each {f : α → Activity ν ε Unit} (hf : ∀ a, Handled (f a)) (l : List α) : Handled (Act.each f l) := by
  induction l with
  | nil => exact .pure ()
  | cons a l ih => exact .bind (hf a) fun _ => ih

theorem activate (s : SpanRef) : Handled (Scope.activate s : Activity ν ε ScopeToken) :=
  .own fun w => by
    have h : w.SameRecords (w.note (.activating s)) := w.sameRecords_note fun _ he => nomatch he
    exact ⟨h.spans, h.reported, h.announced⟩

theorem restore (t : ScopeToken) : Handled (Scope.restore t : Activity ν ε Unit) :=
  .own fun w => by
    have h : w.SameRecords (w.note (.restoring t.activated)) := w.sameRecords_note fun _ he => nomatch he
    simp only [Scope.restore]
    split
    · exact ⟨h.spans, h.reported, h.announced⟩
    · exact h

theorem has_span {x : Activity ν ε α} (h : Handled x) {r : SpanRef} {s : Span} (hs : w.span? r = some s) :
    ∃ t, (x w).2.span? r = some t ∧ s.Onward t := by
  obtain ⟨rs, hrs⟩ := h.closes w
  exact hrs.spans r s hs

end Handled

namespace Tracer

theorem handled_sampleRoot (t : Tracer C) : Handled (t.sampleRoot : Activity ν ε Bool) := by
  unfold sampleRoot
  split
  · exact .pure _
  · split
    · exact .pure _
    · exact .bind (.own fun w => ⟨rfl, rfl, rfl⟩) fun _ => .pure _

theorem handled_newContext (t : Tracer C) (id : SpanId) (parent : Option Context) :
    Handled (t.newContext id parent : Activity ν ε Context) := by
  cases parent with
  | some p => exact .pure _
  | none => exact .bind (.own fun w => ⟨rfl, rfl, rfl⟩) fun _ => .bind t.handled_sampleRoot fun _ => .pure _

theorem handled_tagService (t : Tracer C) (r : SpanRef) : Handled (t.tagService r : Activity ν ε Unit) := by
  unfold tagService
  split
  · exact .setTag r _ _
  · exact .pure ()

theorem handled_start (t : Tracer C) (name : String) (kind : Kind) (parent : Option Context) :
    Handled (t.start name kind parent : Activity ν ε SpanRef) := by
  rw [start_eq]
  refine .bind (.own fun w => ⟨rfl, rfl, rfl⟩) fun id => .bind (t.handled_newContext id parent) fun c => ?_
  exact .bind (.create c _ name kind _) fun r => .bind (t.handled_tagService r) fun _ => .pure r

end Tracer

structure Decorator.Handled (d : Decorator ν ε R) : Prop where
  preCall : ∀ call s, SpanFlow.Handled (d.preCall call s)
  postCall : ∀ call r s, SpanFlow.Handled (d.postCall call r s)
  onError : ∀ call f s, SpanFlow.Handled (d.onError call f s)

theorem Decorator.handled_standardTags : (standardTags : Decorator ν ε R).Handled where
  preCall call s := .bind (.setTag s _ _) fun _ => .bind (.setTag s _ _) fun _ =>
    .bind (.each (fun e => .setTag s e.1 e.2) call.tags) fun _ => .pure _
  postCall _ _ _ := .pure _
  onError _ _ _ := .pure _

theorem Decorator.handled_runHook (hook : String) (name : Rendered) {x : Activity ν ε (Except Rendered Unit)}
    (hx : SpanFlow.Handled x) : SpanFlow.Handled (runHook hook name x) := by
  refine .bind hx.attempt fun r => ?_
  match r with
  | .ok (.ok ()) => exact .pure 0
  | .ok (.error e) =>
    refine .bind (.bind (.resume name) fun _ => .bind (.resume e) fun _ => .emit ?_) fun _ => .pure 1
    exact (by decide : "span decorator failed" ≠ "span finished")
  | .error p =>
    refine .bind (.bind (.resume name) fun _ => .emit ?_) fun _ => .pure 1
    exact (by decide : "span decorator panicked" ≠ "span finished")

theorem DecoratorChain.handled_run (hook : String) {invoke : Decorator ν ε R → Activity ν ε (Except Rendered Unit)}
    (chain : DecoratorChain ν ε R) (h : ∀ d ∈ chain, Handled (invoke d)) : Handled (run hook invoke chain) := by
  induction chain with
  | nil => exact .pure 0
  | cons d chain ih =>
    refine .bind (Decorator.handled_runHook hook d.name (h d (by simp))) fun _ => ?_
    exact .bind (ih fun e he => h e (by simp [he])) fun _ => .pure _

namespace Interceptor

variable (i : Interceptor ν ε C R) (call : Call)

theorem traceUnder_eq [Describable E] (a : Alarms ν ε) (parent : ParentChoice)
    (op : SpanRef → Activity ν ε (Except E R)) :
    i.traceUnder a call parent op = do
      let span ← i.startSpan call parent
      let outcome ← i.enclosed call op span
      a.check (← span.finish)
      return outcome.mapError (·.1) := by
  -- Every step of a call is one that it may take, so the alarm for missteps is gone by computation.
  have henclosed (span : SpanRef) : i.enclosedUnder a call op span = i.enclosed call op span := rfl
  have hadvance : (advanceUnder a .notStarted .spanActive : Activity ν ε Unit) = pure () := rfl
  simp only [traceUnder, henclosed, hadvance, closeUnder_phaseOf, bind_assoc, pure_bind]

section Enclosed

variable [Describable E] {i} {call} {op : SpanRef → Activity ν ε (Except E R)} {s : SpanRef}
  {o : Except (E × FailureInfo) R} {v x y : World ν ε}

theorem enclosed_of_done (hop : i.operate call op s (w.entered s) = (.done o, v))
    (hcon : i.conclude call s o v = (.done (), x)) (hleft : Scope.restore ⟨w.active, s⟩ x = (.done (), y)) :
    i.enclosed call op s w = (.done o, y) := by
  rw [enclosed_apply, Act.bind_of_done (Act.onPanic_of_done hop), Act.bind_of_done (leave_of_done hcon hleft)]
  rfl

theorem enclosed_eq_done (h : i.enclosed call op s w = (.done o, y)) :
    ∃ v x, i.operate call op s (w.entered s) = (.done o, v) ∧ i.conclude call s o v = (.done (), x) ∧
      Scope.restore ⟨w.active, s⟩ x = (.done (), y) := by
  rw [enclosed_apply] at h
  obtain ⟨o', v, hop, h⟩ := Act.bind_eq_done h
  obtain ⟨⟨⟩, x, hleave, h⟩ := Act.bind_eq_done h
  cases h
  obtain ⟨z, hcon, hleft⟩ := leave_eq_done hleave
  exact ⟨v, z, Act.onPanic_eq_done hop, hcon, hleft⟩

end Enclosed

/-- Nothing panics before the span is to be closed: the failures of the hooks before the call can be told,
the operation returns, its failure can be described, the failures of the hooks after it can be told, and
the scope is left in order. -/
inductive Reaches [Describable E] (op : SpanRef → Activity ν ε (Except E R)) (s : SpanRef) (w : World ν ε) :
    Except E R → World ν ε → Prop where
  | returned {n m : Nat} {r : R} {u v x y : World ν ε}
      (hpre : i.decorators.preCall call s (w.entered s) = (.done n, u)) (hop : op s u = (.done (.ok r), v))
      (hpost : i.decorators.postCall call r s v = (.done m, x))
      (hleft : Scope.restore ⟨w.active, s⟩ x = (.done (), y)) : Reaches op s w (.ok r) y
  | failed {n m : Nat} {e : E} {text : String} {u v x y z : World ν ε}
      (hpre : i.decorators.preCall call s (w.entered s) = (.done n, u)) (hop : op s u = (.done (.error e), v))
      (htext : Describable.message e = .ok text)
      (hrecord : recordFailure s ⟨Describable.typeName e, text⟩ v = (.done (), x))
      (herr : i.decorators.onError call ⟨Describable.typeName e, text⟩ s x = (.done m, y))
      (hleft : Scope.restore ⟨w.active, s⟩ y = (.done (), z)) : Reaches op s w (.error e) z

variable {i call}

theorem conclude_eq_done {s : SpanRef} {v x : World ν ε} {o : Except (E × FailureInfo) R}
    (h : i.conclude call s o v = (.done (), x)) :
    (∀ r, o = .ok r → ∃ m, i.decorators.postCall call r s v = (.done m, x)) ∧
      ∀ e f, o = .error (e, f) → ∃ m, i.decorators.onError call f s v = (.done m, x) := by
  refine ⟨?_, ?_⟩
  · rintro r rfl
    obtain ⟨m, y, hm, hy⟩ := Act.bind_eq_done h
    cases hy
    exact ⟨m, hm⟩
  · rintro e f rfl
    obtain ⟨m, y, hm, hy⟩ := Act.bind_eq_done h
    cases hy
    exact ⟨m, hm⟩

theorem describe_eq_done [Describable E] {e : E} {f : FailureInfo} {v : World ν ε} (h : describe e w = (.done f, v)) :
    ∃ text, Describable.message e = .ok text ∧ f = ⟨Describable.typeName e, text⟩ ∧ v = w := by
  cases hm : Describable.message e with
  | ok text =>
    rw [describe_of_ok hm] at h
    cases h
    exact ⟨text, rfl, rfl, rfl⟩
  | error p =>
    rw [describe, hm] at h
    cases h

section Operate

variable [Describable E] {op : SpanRef → Activity ν ε (Except E R)} {s : SpanRef} {n : Nat} {u v x : World ν ε}

theorem operate_eq_done {o : Except (E × FailureInfo) R} (h : i.operate call op s w = (.done o, x)) :
    ∃ n u, i.decorators.preCall call s w = (.done n, u) ∧
      ((∃ r, op s u = (.done (.ok r), x) ∧ o = .ok r) ∨
        ∃ e text v, op s u = (.done (.error e), v) ∧ Describable.message e = .ok text ∧
          recordFailure s ⟨Describable.typeName e, text⟩ v = (.done (), x) ∧
          o = .error (e, ⟨Describable.typeName e, text⟩)) := by
  obtain ⟨n, u, hpre, hcall⟩ := Act.bind_eq_done h
  refine ⟨n, u, hpre, ?_⟩
  obtain ⟨outcome, v, hop, hways⟩ := Act.bind_eq_done hcall
  cases outcome with
  | ok r =>
    cases hways
    exact .inl ⟨r, hop, rfl⟩
  | error e =>
    obtain ⟨f, v', hf, hwrite⟩ := Act.bind_eq_done hways
    obtain ⟨text, htext, rfl, rfl⟩ := describe_eq_done hf
    obtain ⟨⟨⟩, x', hrecord, hlast⟩ := Act.bind_eq_done hwrite
    cases hlast
    exact .inr ⟨e, text, v', hop, htext, hrecord, rfl⟩

theorem reaches_iff {r : Except E R} {y : World ν ε} :
    i.Reaches call op s w r y ↔ ∃ o, i.enclosed call op s w = (.done o, y) ∧ o.mapError (·.1) = r := by
  constructor
  · intro h
    cases h with
    | returned hpre hop hpost hleft =>
      exact ⟨.ok _, enclosed_of_done (operate_of_ok hpre hop) (Act.bind_of_done hpost) hleft, rfl⟩
    | failed hpre hop htext hrecord herr hleft =>
      have hoperate := operate_of_error hpre hop htext hrecord
      exact ⟨.error (_, _), enclosed_of_done hoperate (Act.bind_of_done herr) hleft, rfl⟩
  · rintro ⟨o, ho, rfl⟩
    obtain ⟨v, x, hoperate, hcon, hleft⟩ := enclosed_eq_done ho
    obtain ⟨n, u, hpre, ⟨r, hop, rfl⟩ | ⟨e, text, v', hop, htext, hrecord, rfl⟩⟩ := operate_eq_done hoperate
    · obtain ⟨m, hpost⟩ := (conclude_eq_done hcon).1 r rfl
      exact .returned hpre hop hpost hleft
    · obtain ⟨m, herr⟩ := (conclude_eq_done hcon).2 e _ rfl
      exact .failed hpre hop htext hrecord herr hleft

end Operate

theorem isClosed_closeUnwound {phase : CallPhase} {s : SpanRef} {t : Span} {y : World ν ε} (ht : w.span? s = some t)
    (h : closeUnwound phase s w = (.done (), y)) : y.IsClosed s := by
  obtain ⟨b, u, v, hord, hf, -, hv⟩ := closeUnwound_apply phase s w
  rw [h] at hv
  cases hv
  obtain ⟨t', ht', -⟩ := hord.kept.spans s t ht
  have hclosed := SpanRef.isClosed_finish ht'
  rwa [hf] at hclosed

theorem isClosed_unwound {phase : CallPhase} {token : ScopeToken} {s : SpanRef} {t : Span} {y : World ν ε}
    (ht : w.span? s = some t) (h : unwind phase token s w = (.done (), y)) : y.IsClosed s := by
  obtain ⟨⟨⟩, u, hu, hy⟩ := Act.bind_eq_done h
  obtain ⟨t', ht', -⟩ := (Handled.restore token).has_span ht
  rw [hu] at ht'
  exact isClosed_closeUnwound ht' hy

section Handled

variable [Describable E] {op : SpanRef → Activity ν ε (Except E R)} (call) (hd : ∀ d ∈ i.decorators, d.Handled)
  (hop : ∀ s, Handled (op s))

theorem handled_recordFailure (s : SpanRef) (f : FailureInfo) :
    Handled (recordFailure s f : Activity ν ε Unit) :=
  .bind (.setTag s _ _) fun _ => .log s _

theorem handled_advanceUnder (p q : CallPhase) : Handled (advanceUnder alarms p q : Activity ν ε Unit) := by
  unfold advanceUnder
  split
  · exact .pure ()
  · exact .panic _

theorem handled_closeUnwound (phase : CallPhase) (s : SpanRef) :
    Handled (closeUnwound phase s : Activity ν ε Unit) := by
  unfold closeUnwound recordPanic
  split
  · exact .bind (.bind (.setTag s _ _) fun _ => .log s _) fun _ => .bind (.finish s) fun _ => .pure ()
  · exact .bind (.finish s) fun _ => .pure ()

theorem handled_unwind (phase : CallPhase) (token : ScopeToken) (s : SpanRef) :
    Handled (unwind phase token s : Activity ν ε Unit) :=
  .bind (.restore token) fun _ => handled_closeUnwound phase s

include hd in
theorem handled_operate (hop : ∀ s, Handled (op s)) (s : SpanRef) : Handled (i.operate call op s) := by
  refine .bind (i.decorators.handled_run _ fun d h => (hd d h).preCall call s) fun _ => .bind (hop s) fun r => ?_
  cases r with
  | ok r => exact .bind (handled_advanceUnder _ _) fun _ => .pure _
  | error e =>
    have hdescribe : Handled (describe e : Activity ν ε FailureInfo) := .bind (.resume _) fun _ => .pure _
    exact .bind hdescribe fun f => .bind (handled_recordFailure s f) fun _ =>
      .bind (handled_advanceUnder _ _) fun _ => .pure _

omit [Describable E] in
include hd in
theorem handled_conclude (s : SpanRef) (o : Except (E × FailureInfo) R) : Handled (i.conclude call s o) := by
  cases o with
  | ok r => exact .bind (i.decorators.handled_run _ fun d h => (hd d h).postCall call r s) fun _ => .pure ()
  | error e => exact .bind (i.decorators.handled_run _ fun d h => (hd d h).onError call e.2 s) fun _ => .pure ()

omit [Describable E] in
include hd in
theorem handled_leave (s : SpanRef) (token : ScopeToken) (o : Except (E × FailureInfo) R) :
    Handled (i.leave call s token o) :=
  .bind (.onPanic (handled_conclude call hd s o) (handled_unwind _ token s)) fun _ =>
    .onPanic (.restore token) (handled_closeUnwound _ s)

include hd hop in
theorem handled_enclosed (s : SpanRef) : Handled (i.enclosed call op s) :=
  .bind (.activate s) fun token =>
    .bind (.onPanic (handled_operate call hd hop s) (handled_unwind _ token s)) fun o =>
      .bind (handled_leave call hd s token o) fun _ => .pure o

theorem handled_startSpan (choice : ParentChoice) : Handled (i.startSpan call choice) := by
  cases choice with
  | active => exact .bind (.read _) fun c => i.tracer.handled_start call.name call.kind c
  | root => exact i.tracer.handled_start call.name call.kind none
  | context c => exact i.tracer.handled_start call.name call.kind c

include hd hop in
theorem handled_closed (s : SpanRef) :
    Handled (i.enclosed call op s >>= fun o => s.finish >>= alarms.check >>= fun _ => pure (o.mapError (·.1))) := by
  refine .bind (handled_enclosed call hd hop s) fun o => .bind (.bind (.finish s) fun closed => ?_) fun _ => .pure _
  cases closed with
  | true => exact .pure ()
  | false => exact .panic _

include hd hop in
theorem handled_trace (choice : ParentChoice) : Handled (i.trace call choice op) := by
  rw [trace, traceUnder_eq]
  refine .bind (handled_startSpan call choice) fun s => ?_
  simpa only [bind_assoc] using handled_closed call hd hop s

omit [Describable E] in
include hd in
theorem isClosed_of_leave_panic {s : SpanRef} {t : Span} {token : ScopeToken} {o : Except (E × FailureInfo) R}
    {p : Payload} {y : World ν ε} (ht : w.span? s = some t) (h : i.leave call s token o w = (.panic p, y)) :
    y.IsClosed s := by
  have hhooks : Handled (i.conclude call s o) := handled_conclude call hd s o
  have hconclude := hhooks.has_span ht
  rcases Act.bind_eq_panic h with h | ⟨⟨⟩, x, hx, h⟩
  · obtain ⟨x, hx, hunwound⟩ := Act.onPanic_eq_panic h
    rw [hx] at hconclude
    obtain ⟨t', ht', -⟩ := hconclude
    exact isClosed_unwound ht' hunwound
  · rw [Act.onPanic_eq_done hx] at hconclude
    obtain ⟨t', ht', -⟩ := hconclude
    have hrestore := (Handled.restore token).has_span ht'
    obtain ⟨z, hz, hclose⟩ := Act.onPanic_eq_panic h
    rw [hz] at hrestore
    obtain ⟨t₂, ht₂, -⟩ := hrestore
    exact isClosed_closeUnwound ht₂ hclose

include hd hop in
theorem isClosed_of_enclosed_panic {s : SpanRef} {t : Span} {p : Payload} {y : World ν ε} (ht : w.span? s = some t)
    (h : i.enclosed call op s w = (.panic p, y)) : y.IsClosed s := by
  rw [enclosed_apply] at h
  have hhandled : Handled (i.operate call op s) := handled_operate call hd hop s
  have hoperate := hhandled.has_span (w := w.entered s) ht
  -- The panic comes from the operation, from the hooks after it, or from leaving the scope.
  rcases Act.bind_eq_panic h with h | ⟨o, v, hv, h⟩
  · obtain ⟨x, hx, hunwound⟩ := Act.onPanic_eq_panic h
    rw [hx] at hoperate
    obtain ⟨t', ht', -⟩ := hoperate
    exact isClosed_unwound ht' hunwound
  · rw [Act.onPanic_eq_done hv] at hoperate
    obtain ⟨t', ht', -⟩ := hoperate
    rcases Act.bind_eq_panic h with h | ⟨⟨⟩, x, -, h⟩
    · exact isClosed_of_leave_panic call hd ht' h
    · cases h

end Handled

section Once

variable [Describable E] {op : SpanRef → Activity ν ε (Except E R)} {choice : ParentChoice} {s : SpanRef}
  {u x : World ν ε} (hd : ∀ d ∈ i.decorators, d.Handled) (hop : ∀ s, Handled (op s))

theorem traceUnder_apply (a : Alarms ν ε) (hs : i.startSpan call choice w = (.done s, u)) :
    i.traceUnder a call choice op w =
      (i.enclosed call op s >>= fun o => s.finish >>= a.check >>= fun _ => pure (o.mapError (·.1))) u := by
  rw [traceUnder_eq, Act.bind_of_done hs]
  simp only [bind_assoc]

theorem traceUnder_of_closed (a : Alarms ν ε) (hs : i.startSpan call choice w = (.done s, u)) {o : Except E R}
    (hreach : i.Reaches call op s u o x) (hx : x.IsClosed s) :
    i.traceUnder a call choice op w = (a.reclosed >>= fun _ => pure o) x := by
  obtain ⟨o', ho, rfl⟩ := reaches_iff.1 hreach
  obtain ⟨t, ht, hclosed⟩ := hx
  have hfinish : s.finish x = (.done false, x) := by
    refine SpanRef.finish_of_finished fun t' ht' => ?_
    rw [ht] at ht'
    cases ht'
    exact hclosed
  rw [traceUnder_apply a hs, Act.bind_of_done ho, bind_assoc, Act.bind_of_done hfinish]
  rfl

include hd hop in
theorem traceUnder_of_open (a b : Alarms ν ε) (hs : i.startSpan call choice w = (.done s, u)) {t : Span}
    (ht : u.span? s = some t) (hx : ∀ o x, i.Reaches call op s u o x → ¬x.IsClosed s) :
    i.traceUnder a call choice op w = i.traceUnder b call choice op w := by
  rw [traceUnder_apply a hs, traceUnder_apply b hs]
  have hspan := (handled_enclosed call hd hop s).has_span ht
  rcases ho : i.enclosed call op s u with ⟨o | p, x⟩
  · rw [ho] at hspan
    obtain ⟨t', ht', -⟩ := hspan
    have hopen : t'.isFinished = false := by
      refine Bool.eq_false_iff.2 fun hc => hx _ x (reaches_iff.2 ⟨o, ho, rfl⟩) ⟨t', ht', hc⟩
    obtain ⟨y, hy, -⟩ := SpanRef.finish_of_open ht' hopen
    rw [Act.bind_of_done ho, Act.bind_of_done ho, bind_assoc, bind_assoc, Act.bind_of_done hy, Act.bind_of_done hy]
    rfl
  · rw [Act.bind_of_panic ho, Act.bind_of_panic ho]
  · rw [Act.bind_apply, Act.bind_apply, ho]

include hd hop in
theorem trace_finished (hs : i.startSpan call choice w = (.done s, u)) {t : Span} (ht : u.span? s = some t)
    (hend : (i.trace call choice op w).1 ≠ .abort) :
    ∃ t', (i.trace call choice op w).2.span? s = some t' ∧ t'.isFinished = true ∧ t.Onward t' := by
  rw [trace, traceUnder_apply _ hs] at hend ⊢
  obtain ⟨t', ht', honward⟩ := (handled_closed call hd hop s).has_span ht
  refine ⟨t', ht', ?_, honward⟩
  suffices h : World.IsClosed _ s by
    obtain ⟨t₂, ht₂, hclosed⟩ := h
    rw [ht'] at ht₂
    cases ht₂
    exact hclosed
  have hspan := (handled_enclosed call hd hop s).has_span ht
  rcases ho : i.enclosed call op s u with ⟨o | p, x⟩
  · rw [ho] at hspan
    obtain ⟨t₃, ht₃, -⟩ := hspan
    have hclosed := SpanRef.isClosed_finish ht₃
    obtain ⟨b, y, hy, -⟩ := s.finish_apply x
    rw [hy] at hclosed
    rw [Act.bind_of_done ho, bind_assoc, Act.bind_of_done hy]
    cases b <;> exact hclosed
  · rw [Act.bind_of_panic ho]
    exact isClosed_of_enclosed_panic call hd hop ht ho
  · rw [Act.bind_apply, ho] at hend
    exact absurd rfl hend

/-- However the operation and the hooks deal with the span of a guarded call: unless everything is brought
down, the span is closed when the call is over, and among the spans that were closed meanwhile, of which
the reporters got one record each, it is there once. No step is ever a misstep. That someone else closed
the span is found exactly if nothing panics before the call is to close it and it is closed by then. -/
theorem closed_exactly_once (i : Interceptor ν ε C R) (hd : ∀ d ∈ i.decorators, d.Handled) (call : Call)
    (choice : ParentChoice) (hop : ∀ s, Handled (op s)) (w : World ν ε) :
    ∃ s u, i.startSpan call choice w = (.done s, u) ∧ w.span? s = none ∧
      (∃ t, u.span? s = some t ∧ t.isFinished = false ∧ t.reporter = i.tracer.reporter) ∧
      ((i.trace call choice op w).1 ≠ .abort →
        ∃ t before after, (i.trace call choice op w).2.span? s = some t ∧ t.isFinished = true ∧
          t.reporter = i.tracer.reporter ∧ w.Closes (i.trace call choice op w).2 (before ++ s :: after) ∧
          s ∉ before ∧ s ∉ after) ∧
      (∀ misstep, i.trace call choice op = i.traceUnder ⟨misstep, alarms.reclosed⟩ call choice op) ∧
      (∀ a, (∀ o x, i.Reaches call op s u o x → ¬x.IsClosed s) →
        i.trace call choice op w = i.traceUnder a call choice op w) ∧
      ∀ o x, i.Reaches call op s u o x → x.IsClosed s →
        i.trace call choice op w = (.panic (.text alreadyFinished), x) ∧
          ∀ a, i.traceUnder a call choice op w = (a.reclosed >>= fun _ => pure o) x := by
  obtain ⟨u, t, hs, -, ht, hstarted⟩ := i.startSpan_apply call choice w
  have hnew : w.span? ⟨w.spans.size⟩ = none := by simp [World.span?]
  refine ⟨_, u, hs, hnew, ⟨t, ht, hstarted.isOpen, hstarted.reporter⟩, fun hend => ?_, fun misstep => ?_, fun a hx => ?_,
    fun o x hreach hx => ⟨?_, fun a => traceUnder_of_closed a hs hreach hx⟩⟩
  · obtain ⟨rs, hrs⟩ := (handled_trace call hd hop choice).closes w
    obtain ⟨t', ht', hclosed, honward⟩ := trace_finished hd hop hs ht hend
    have hopen : ¬w.IsClosed ⟨w.spans.size⟩ := by
      rintro ⟨t₂, ht₂, -⟩
      rw [hnew] at ht₂
      cases ht₂
    have hmem := (hrs.mem_iff _).2 ⟨⟨t', ht', hclosed⟩, hopen⟩
    obtain ⟨before, after, rfl⟩ := List.append_of_mem hmem
    have hnodup := List.perm_middle.nodup_iff.1 hrs.nodup
    rw [List.nodup_cons, List.mem_append, not_or] at hnodup
    exact ⟨t', before, after, ht', hclosed, honward.reporter.trans hstarted.reporter, hrs, hnodup.1⟩
  · rw [trace, traceUnder_eq, traceUnder_eq]
    rfl
  · rw [trace]
    exact traceUnder_of_open hd hop _ a hs ht hx
  · rw [trace]
    exact traceUnder_of_closed _ hs hreach hx

/-- An operation that closes the span itself and returns. -/
theorem closed_exactly_once_early :
    let i : Interceptor Unit Unit (KeyMap String) Unit :=
      ⟨{ Tracer.default with reporter := .memory }, [.standardTags]⟩
    let op : SpanRef → Activity Unit Unit (Except Empty Unit) := fun s => s.finish >>= fun _ => pure (.ok ())
    let call := Call.plain "early" "test" .server
    let w := World.initial .constant ()
    (∀ d ∈ i.decorators, d.Handled) ∧ (∀ s, Handled (op s)) ∧
      (i.trace call .root op w).1 = .panic (.text alreadyFinished) ∧
      ∃ s t before after, (i.trace call .root op w).2.span? s = some t ∧ t.isFinished = true ∧
        t.reporter = .memory ∧ w.Closes (i.trace call .root op w).2 (before ++ s :: after) ∧
        s ∉ before ∧ s ∉ after := by
  intro i op call w
  have hd : ∀ d ∈ i.decorators, d.Handled := by
    intro d hd
    obtain rfl : d = .standardTags := by simpa [i] using hd
    exact Decorator.handled_standardTags
  have hop (s : SpanRef) : Handled (op s) := .bind (.finish s) fun _ => .pure _
  have hexit : (i.trace call .root op w).1 = .panic (.text alreadyFinished) := by decide +kernel
  obtain ⟨s, u, -, -, -, honce, -⟩ := closed_exactly_once i hd call .root hop w
  exact ⟨hd, hop, hexit, s, honce (by rw [hexit]; nofun)⟩

end Once

end Interceptor

end SpanFlow
