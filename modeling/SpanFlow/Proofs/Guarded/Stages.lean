import SpanFlow.Proofs.Guarded.Start
import SpanFlow.Proofs.Scope.Bracket

namespace SpanFlow

variable {ν ε C R E : Type} {w : World ν ε} {Q : World ν ε → World ν ε → Prop} [IsPreorder (World ν ε) Q]

instance : Describable Empty := ⟨nofun, nofun⟩

namespace Decorator

theorem moves_tellFailure (name : Rendered) (hook : String) (error : Rendered) :
    Act.Moves World.Ordinary (tellFailure name hook error) w :=
  (Act.moves_resume name).bind fun _ _ _ _ => (Act.moves_resume error).bind fun _ _ _ _ => Activity.moves_emit _

theorem moves_tellPanic (name : Rendered) (hook : String) (p : Payload) :
    Act.Moves World.Ordinary (tellPanic name hook p) w :=
  (Act.moves_resume name).bind fun _ _ _ _ => Activity.moves_emit _

/-- A hook that fails or panics is told, which adds nothing but an event to what it did. -/
theorem moves_runHook (hq : ∀ u v, u.Ordinary v → Q u v) (hook : String) (name : Rendered)
    {x : Activity ν ε (Except Rendered Unit)} (hx : Act.Moves Q x w) : Act.Moves Q (runHook hook name x) w := by
  refine hx.attempt.bind fun r v _ _ => ?_
  match r with
  | .ok (.ok ()) => exact Act.moves_pure 0
  | .ok (.error e) => exact ((moves_tellFailure name hook e).mono (hq v)).bind fun _ _ _ _ => Act.moves_pure 1
  | .error p => exact ((moves_tellPanic name hook p).mono (hq v)).bind fun _ _ _ _ => Act.moves_pure 1

theorem moves_standardTags (call : Call) (s : SpanRef) :
    Act.Moves World.Ordinary ((standardTags : Decorator ν ε R).preCall call s) w :=
  (s.moves_setTag _ _).bind fun _ _ _ _ => (s.moves_setTag _ _).bind fun _ u _ _ => by
    have htags := Act.moves_each (R := World.Ordinary) (s := u) (fun e => s.setTag e.1 e.2) call.tags
      fun e _ x _ => s.moves_setTag (w := x) e.1 e.2
    exact htags.bind fun _ _ _ _ => Act.moves_pure _

end Decorator

theorem DecoratorChain.moves_run (hq : ∀ u v, u.Ordinary v → Q u v) (hook : String)
    (invoke : Decorator ν ε R → Activity ν ε (Except Rendered Unit)) (chain : DecoratorChain ν ε R)
    (hd : ∀ d ∈ chain, ∀ v, Q w v → Act.Moves Q (invoke d) v) : Act.Moves Q (run hook invoke chain) w := by
  induction chain generalizing w with
  | nil => exact Act.moves_pure 0
  | cons d chain ih =>
    have hfirst := Decorator.moves_runHook hq hook d.name (hd d (by simp) w (refl w))
    refine hfirst.bind fun n v _ hv => ?_
    have hrest := ih fun e he u hu => hd e (by simp [he]) u (Trans.trans hv hu)
    exact hrest.bind fun _ _ _ _ => Act.moves_pure _

namespace Interceptor

theorem moves_describe [Describable E] (e : E) : Act.Moves World.Ordinary (describe e) w :=
  (Act.moves_resume _).bind fun _ _ _ _ => Act.moves_pure _

theorem moves_recordFailure (s : SpanRef) (f : FailureInfo) : Act.Moves World.Ordinary (recordFailure s f) w :=
  (s.moves_setTag _ _).bind fun _ _ _ _ => s.moves_log _

theorem moves_recordPanic (s : SpanRef) : Act.Moves World.Ordinary (recordPanic s) w :=
  (s.moves_setTag _ _).bind fun _ _ _ _ => s.moves_log _

theorem describe_of_ok [Describable E] {e : E} {text : String} (h : Describable.message e = .ok text)
    (w : World ν ε) : describe e w = (.done ⟨Describable.typeName e, text⟩, w) := by
  rw [describe, h]
  rfl

theorem moves_settleUnder [Describable E] (s : SpanRef) (r : Except E R) (w : World ν ε) :
    Act.Moves World.Ordinary (settleUnder alarms s r) w := by
  cases r with
  | ok r => exact Act.moves_pure _
  | error e => exact (moves_describe e).bind fun f _ _ _ => (moves_recordFailure s f).bind fun _ _ _ _ => Act.moves_pure _

section Operate

variable [Describable E] {i : Interceptor ν ε C R} {call : Call} {op : SpanRef → Activity ν ε (Except E R)}
  {s : SpanRef} {n : Nat} {u v x : World ν ε}

theorem operate_of_ok {r : R} (hpre : i.decorators.preCall call s w = (.done n, u))
    (hop : op s u = (.done (.ok r), v)) : i.operate call op s w = (.done (.ok r), v) := by
  rw [operate, operateUnder, Act.bind_of_done hpre, Act.bind_of_done hop]
  rfl

theorem operate_of_error {e : E} {text : String} (hpre : i.decorators.preCall call s w = (.done n, u))
    (hop : op s u = (.done (.error e), v)) (htext : Describable.message e = .ok text)
    (hrecord : recordFailure s ⟨Describable.typeName e, text⟩ v = (.done (), x)) :
    i.operate call op s w = (.done (.error (e, ⟨Describable.typeName e, text⟩)), x) := by
  rw [operate, operateUnder, Act.bind_of_done hpre, Act.bind_of_done hop]
  exact (Act.bind_of_done (describe_of_ok htext v)).trans (Act.bind_of_done hrecord)

theorem operate_of_panic {p : Payload} (hpre : i.decorators.preCall call s w = (.done n, u))
    (hop : op s u = (.panic p, v)) : i.operate call op s w = (.panic p, v) := by
  rw [operate, operateUnder, Act.bind_of_done hpre, Act.bind_of_panic hop]

end Operate

/-- The hooks before the call and the call itself: the call is reached unless a hook cannot be told,
and what follows it is ordinary. -/
theorem operate_leaves [Describable E] (i : Interceptor ν ε C R) (call : Call)
    (op : SpanRef → Activity ν ε (Except E R)) {s : SpanRef} (hpre : (i.decorators.preCall call s w).1 ≠ .abort)
    (hop : ∀ n v, i.decorators.preCall call s w = (.done n, v) → (op s v).1 ≠ .abort) :
    (i.operate call op s w).1 ≠ .abort ∧
      ((∃ p v, i.decorators.preCall call s w = (.panic p, v) ∧ (i.operate call op s w).2 = v) ∨
        (∃ n v, i.decorators.preCall call s w = (.done n, v) ∧ (op s v).2.Ordinary (i.operate call op s w).2)) := by
  have hmoves : Act.Moves (fun _ _ => True) (i.decorators.preCall call s) w := ⟨hpre, trivial⟩
  rcases hmoves.cases with ⟨n, v, hn, -⟩ | ⟨p, v, hp, -⟩
  · have hrun : i.operate call op s w = _ := Act.bind_of_done hn
    have hmove : Act.Moves (fun _ _ => True) (op s) v := ⟨hop n v hn, trivial⟩
    rcases hmove.cases with ⟨r, x, hr, -⟩ | ⟨p, x, hp, -⟩
    · obtain ⟨hend, hord⟩ := moves_settleUnder s r x
      rw [hrun, Act.bind_of_done hr]
      exact ⟨hend, .inr ⟨n, v, hn, by rw [hr]; exact hord⟩⟩
    · rw [hrun, Act.bind_of_panic hp]
      exact ⟨by simp, .inr ⟨n, v, hn, by rw [hp]; exact .refl x⟩⟩
  · have hrun : i.operate call op s w = (.panic p, v) := Act.bind_of_panic hp
    rw [hrun]
    exact ⟨by simp, .inl ⟨p, v, hp, rfl⟩⟩

theorem moves_operate [Describable E] (hq : ∀ u v, u.Ordinary v → Q u v) (i : Interceptor ν ε C R) (call : Call)
    (op : SpanRef → Activity ν ε (Except E R)) {s : SpanRef}
    (hpre : ∀ d ∈ i.decorators, ∀ v, Q w v → Act.Moves Q (d.preCall call s) v)
    (hop : ∀ v, Q w v → Act.Moves Q (op s) v) : Act.Moves Q (i.operate call op s) w := by
  have hhooks : Act.Moves Q (i.decorators.preCall call s) w :=
    i.decorators.moves_run hq "on_pre_call" (fun d => d.preCall call s) hpre
  have hreach {n : Nat} {v : World ν ε} (hn : i.decorators.preCall call s w = (.done n, v)) : Q w v := by
    have h := hhooks.2
    rwa [hn] at h
  obtain ⟨hend, hways⟩ := i.operate_leaves call op hhooks.1 fun n v hn => (hop v (hreach hn)).1
  refine ⟨hend, ?_⟩
  rcases hways with ⟨p, v, hp, hv⟩ | ⟨n, v, hn, hord⟩
  · have h := hhooks.2
    rwa [hp, ← hv] at h
  · exact Trans.trans (Trans.trans (hreach hn) (hop v (hreach hn)).2) (hq _ _ hord)

theorem moves_conclude (hq : ∀ u v, u.Ordinary v → Q u v) (i : Interceptor ν ε C R) (call : Call) {s : SpanRef}
    (outcome : Except (E × FailureInfo) R)
    (hpost : ∀ d ∈ i.decorators, ∀ r v, Q w v → Act.Moves Q (d.postCall call r s) v)
    (herr : ∀ d ∈ i.decorators, ∀ f v, Q w v → Act.Moves Q (d.onError call f s) v) :
    Act.Moves Q (i.conclude call s outcome) w := by
  match outcome with
  | .ok r =>
    have hchain := i.decorators.moves_run hq "on_post_call" (fun d => d.postCall call r s) fun d hd => hpost d hd r
    exact hchain.bind fun _ _ _ _ => Act.moves_pure ()
  | .error (_, f) =>
    have hchain := i.decorators.moves_run hq "on_error" (fun d => d.onError call f s) fun d hd => herr d hd f
    exact hchain.bind fun _ _ _ _ => Act.moves_pure ()

def Alarms.check (a : Alarms ν ε) : Bool → Activity ν ε Unit
  | true => pure ()
  | false => a.reclosed

theorem closeUnder_phaseOf (a : Alarms ν ε) (outcome : Except (E × FailureInfo) R) (span : SpanRef) :
    closeUnder a (phaseOf outcome) span = span.finish >>= a.check := by
  have hclose : closeUnder a (phaseOf outcome) span =
      span.finish >>= fun closed => if !closed then a.reclosed else pure () := by cases outcome <;> rfl
  rw [hclose]
  exact bind_congr fun closed => by cases closed <;> rfl

theorem closeUnder_of_finish (outcome : Except (E × FailureInfo) R) {s : SpanRef} {b : Bool} {v : World ν ε}
    (hf : s.finish w = (.done b, v)) : closeUnder alarms (phaseOf outcome) s w =
      if b then (.done (), v) else (.panic (.text alreadyFinished), v) := by
  rw [closeUnder_phaseOf, Act.bind_of_done hf]
  cases b <;> rfl

/-- Closing a call that unwinds never fails: its span is annotated and then closed. -/
theorem closeUnwound_apply (phase : CallPhase) (s : SpanRef) (w : World ν ε) :
    ∃ b u v, w.Ordinary u ∧ s.finish u = (.done b, v) ∧ u.Steady v ∧ closeUnwound phase s w = (.done (), v) := by
  by_cases hphase : phase = .spanActive
  · obtain ⟨u, hu⟩ : ∃ u, recordPanic s w = (.done (), u) := ⟨_, rfl⟩
    have ho := moves_recordPanic (w := w) s
    rw [Act.Moves, hu] at ho
    obtain ⟨b, v, hv, hsteady⟩ := s.finish_apply u
    refine ⟨b, u, v, ho.2, hv, hsteady, ?_⟩
    rw [closeUnwound, if_pos hphase]
    exact (Act.bind_of_done hu).trans (Act.bind_of_done hv)
  · obtain ⟨b, v, hv, hsteady⟩ := s.finish_apply w
    refine ⟨b, w, v, .refl w, hv, hsteady, ?_⟩
    rw [closeUnwound, if_neg hphase]
    exact Act.bind_of_done hv

def SameActive (u v : World ν ε) : Prop := v.active = u.active

/-- What is left of a guarded call when its outcome is known. -/
def wayOut (i : Interceptor ν ε C R) (call : Call) (span : SpanRef) (token : ScopeToken)
    (outcome : Except (E × FailureInfo) R) : Activity ν ε (Except E R) := do
  i.leave call span token outcome
  closeUnder alarms (phaseOf outcome) span
  return outcome.mapError (·.1)

def enclosed [Describable E] (i : Interceptor ν ε C R) (call : Call) (op : SpanRef → Activity ν ε (Except E R))
    (span : SpanRef) : Activity ν ε (Except (E × FailureInfo) R) :=
  i.enclosedUnder alarms call op span

theorem enclosed_apply [Describable E] (i : Interceptor ν ε C R) (call : Call)
    (op : SpanRef → Activity ν ε (Except E R)) (s : SpanRef) (w : World ν ε) :
    i.enclosed call op s w = (Act.onPanic (i.operate call op s) (unwind .spanActive ⟨w.active, s⟩ s) >>= fun o =>
      i.leave call s ⟨w.active, s⟩ o >>= fun _ => pure o) (w.entered s) :=
  Act.bind_of_done (Scope.activate_apply s w)

theorem trace_of_started [Describable E] {i : Interceptor ν ε C R} {call : Call} {choice : ParentChoice}
    {op : SpanRef → Activity ν ε (Except E R)} {s : SpanRef} {u : World ν ε} (hs : i.startSpan call choice w = (.done s, u)) :
    i.trace call choice op w = (Act.onPanic (i.operate call op s) (unwind .spanActive ⟨u.active, s⟩ s) >>=
      i.wayOut call s ⟨u.active, s⟩) (u.entered s) := by
  have hadvance : (advanceUnder alarms .notStarted .spanActive : Activity ν ε Unit) u = (.done (), u) := rfl
  rw [trace, traceUnder, Act.bind_of_done hs, Act.bind_of_done hadvance, Act.bind_apply, ← enclosed, enclosed_apply,
    ← Act.bind_apply]
  simp only [bind_assoc, pure_bind]
  rfl

section Leave

variable {i : Interceptor ν ε C R} {call : Call} {s : SpanRef} {token : ScopeToken} {o : Except (E × FailureInfo) R}
  {u v x : World ν ε}

theorem unwind_of_done {phase : CallPhase} (hleft : Scope.restore token u = (.done (), v))
    (hclose : closeUnwound phase s v = (.done (), x)) : unwind phase token s u = (.done (), x) :=
  (Act.bind_of_done hleft).trans hclose

theorem leave_of_done (hcon : i.conclude call s o u = (.done (), v)) (hleft : Scope.restore token v = (.done (), x)) :
    i.leave call s token o u = (.done (), x) :=
  (Act.bind_of_done (Act.onPanic_of_done hcon)).trans (Act.onPanic_of_done hleft)

theorem leave_of_panic {p : Payload} (hcon : i.conclude call s o u = (.panic p, v))
    (hunwind : unwind (phaseOf o) token s v = (.done (), x)) : i.leave call s token o u = (.panic p, x) :=
  Act.bind_of_panic (Act.onPanic_of_panic hcon hunwind)

theorem leave_eq_done (h : i.leave call s token o u = (.done (), x)) :
    ∃ v, i.conclude call s o u = (.done (), v) ∧ Scope.restore token v = (.done (), x) := by
  obtain ⟨⟨⟩, v, hcon, hleft⟩ := Act.bind_eq_done h
  exact ⟨v, Act.onPanic_eq_done hcon, Act.onPanic_eq_done hleft⟩

end Leave

/-- A call whose stages leave its span active goes one of three ways: the hooks before it or the call
itself panic, or the hooks after it do, or it returns and its span is closed. -/
theorem trace_cases [Describable E] (i : Interceptor ν ε C R) (call : Call) (choice : ParentChoice)
    {op : SpanRef → Activity ν ε (Except E R)} {s : SpanRef} {u : World ν ε}
    (hs : i.startSpan call choice w = (.done s, u))
    (hop : Act.Moves SameActive (i.operate call op s) (u.entered s))
    (hcon : ∀ o v, i.operate call op s (u.entered s) = (.done o, v) → Act.Moves SameActive (i.conclude call s o) v) :
    (∃ p v x, i.operate call op s (u.entered s) = (.panic p, v) ∧
      closeUnwound .spanActive s (v.left ⟨u.active, s⟩) = (.done (), x) ∧
      i.trace call choice op w = (.panic p, x)) ∨
    (∃ o v p v' x, i.operate call op s (u.entered s) = (.done o, v) ∧ i.conclude call s o v = (.panic p, v') ∧
      closeUnwound (phaseOf o) s (v'.left ⟨u.active, s⟩) = (.done (), x) ∧
      i.trace call choice op w = (.panic p, x)) ∨
    (∃ o v v' b x, i.operate call op s (u.entered s) = (.done o, v) ∧ i.conclude call s o v = (.done (), v') ∧
      s.finish (v'.left ⟨u.active, s⟩) = (.done b, x) ∧
      i.trace call choice op w = (if b then .done (o.mapError (·.1)) else .panic (.text alreadyFinished), x)) := by
  have hrestore {v : World ν ε} (hv : v.active = some s) :
      Scope.restore ⟨u.active, s⟩ v = (.done (), v.left ⟨u.active, s⟩) := Scope.restore_of_active hv
  have hunwind (phase : CallPhase) {v : World ν ε} (hv : v.active = some s) :
      ∃ x, unwind phase ⟨u.active, s⟩ s v = (.done (), x) ∧
        closeUnwound phase s (v.left ⟨u.active, s⟩) = (.done (), x) := by
    obtain ⟨-, -, x, -, -, -, hx⟩ := closeUnwound_apply phase s (v.left ⟨u.active, s⟩)
    exact ⟨x, unwind_of_done (hrestore hv) hx, hx⟩
  rw [trace_of_started hs]
  rcases hop.cases with ⟨o, v, ho, hv⟩ | ⟨p, v, ho, hv⟩
  · refine .inr ?_
    rw [Act.bind_of_done (Act.onPanic_of_done ho)]
    rcases (hcon o v ho).cases with ⟨⟨⟩, v', hc, hv'⟩ | ⟨p, v', hc, hv'⟩
    · refine .inr ?_
      obtain ⟨b, x, hx, -⟩ := s.finish_apply (v'.left ⟨u.active, s⟩)
      refine ⟨o, v, v', b, x, ho, hc, hx, ?_⟩
      rw [wayOut, Act.bind_of_done (leave_of_done hc (hrestore (hv'.trans hv)))]
      have hclose := closeUnder_of_finish o hx
      cases b with
      | true => exact Act.bind_of_done hclose
      | false => exact Act.bind_of_panic hclose
    · refine .inl ?_
      obtain ⟨x, hx, hclose⟩ := hunwind (phaseOf o) (hv'.trans hv)
      exact ⟨o, v, p, v', x, ho, hc, hclose, Act.bind_of_panic (leave_of_panic hc hx)⟩
  · refine .inl ?_
    obtain ⟨x, hx, hclose⟩ := hunwind .spanActive hv
    exact ⟨p, v, x, ho, hclose, Act.bind_of_panic (Act.onPanic_of_panic ho hx)⟩

section Ways

variable [Describable E] {i : Interceptor ν ε C R} {call : Call} {choice : ParentChoice}
  {op : SpanRef → Activity ν ε (Except E R)} {s : SpanRef} {u v y : World ν ε}

theorem trace_unwinds (hs : i.startSpan call choice w = (.done s, u)) {p : Payload}
    (ho : i.operate call op s (u.entered s) = (.panic p, v)) (hv : v.active = some s) :
    ∃ x, closeUnwound .spanActive s (v.left ⟨u.active, s⟩) = (.done (), x) ∧
      i.trace call choice op w = (.panic p, x) := by
  have hop : Act.Moves SameActive (i.operate call op s) (u.entered s) := Act.moves_of_panic ho hv
  have hcon (o : Except (E × FailureInfo) R) (v' : World ν ε)
      (h : i.operate call op s (u.entered s) = (.done o, v')) : Act.Moves SameActive (i.conclude call s o) v' := by
    rw [ho] at h
    cases h
  rcases trace_cases i call choice hs hop hcon with
    ⟨q, v', x, ho', hx, ht⟩ | ⟨o, v', _, _, _, ho', -⟩ | ⟨o, v', _, _, _, ho', -⟩
  · rw [ho] at ho'
    cases ho'
    exact ⟨x, hx, ht⟩
  · rw [ho] at ho'
    cases ho'
  · rw [ho] at ho'
    cases ho'

theorem trace_of_panic (hs : i.startSpan call choice w = (.done s, u)) {p : Payload}
    (ho : i.operate call op s (u.entered s) = (.panic p, v)) (hv : v.active = some s) :
    ∃ z b x, (v.left ⟨u.active, s⟩).Ordinary z ∧ s.finish z = (.done b, x) ∧
      i.trace call choice op w = (.panic p, x) := by
  obtain ⟨x, hx, ht⟩ := trace_unwinds hs ho hv
  obtain ⟨b, z, x', hord, hf, -, hx'⟩ := closeUnwound_apply .spanActive s (v.left ⟨u.active, s⟩)
  rw [hx] at hx'
  cases hx'
  exact ⟨z, b, x, hord, hf, ht⟩

theorem trace_of_done (hs : i.startSpan call choice w = (.done s, u)) {o : Except (E × FailureInfo) R}
    (ho : i.operate call op s (u.entered s) = (.done o, v)) (hv : v.active = some s)
    (hc : i.conclude call s o v = (.done (), y)) (hy : y.active = v.active) :
    ∃ b x, s.finish (y.left ⟨u.active, s⟩) = (.done b, x) ∧
      i.trace call choice op w = (if b then .done (o.mapError (·.1)) else .panic (.text alreadyFinished), x) := by
  have hop : Act.Moves SameActive (i.operate call op s) (u.entered s) := Act.moves_of_done ho hv
  have hcon (o' : Except (E × FailureInfo) R) (v' : World ν ε)
      (h : i.operate call op s (u.entered s) = (.done o', v')) : Act.Moves SameActive (i.conclude call s o') v' := by
    rw [ho] at h
    cases h
    exact Act.moves_of_done hc hy
  rcases trace_cases i call choice hs hop hcon with
    ⟨_, _, _, ho', -⟩ | ⟨o', v', _, _, _, ho', hc', -⟩ | ⟨o', v', y', b, x, ho', hc', hf, ht⟩
  · rw [ho] at ho'
    cases ho'
  · rw [ho] at ho'
    cases ho'
    rw [hc] at hc'
    cases hc'
  · rw [ho] at ho'
    cases ho'
    rw [hc] at hc'
    cases hc'
    exact ⟨b, x, hf, ht⟩

end Ways

/-- However a guarded call goes: its scope is left, its span is at most annotated, and then closed. -/
theorem trace_leaves [Describable E] (hact : ∀ u v, Q u v → v.active = u.active) (i : Interceptor ν ε C R)
    (call : Call) (choice : ParentChoice) {op : SpanRef → Activity ν ε (Except E R)} {s : SpanRef} {u : World ν ε}
    (hs : i.startSpan call choice w = (.done s, u))
    (hop : Act.Moves SameActive (i.operate call op s) (u.entered s))
    (hcon : ∀ o v, i.operate call op s (u.entered s) = (.done o, v) → Act.Moves Q (i.conclude call s o) v) :
    (i.trace call choice op w).1 ≠ .abort ∧
      ∃ v x b, Q (i.operate call op s (u.entered s)).2 v ∧ (v.left ⟨u.active, s⟩).Ordinary x ∧
        s.finish x = (.done b, (i.trace call choice op w).2) := by
  rcases trace_cases i call choice hs hop (fun o v ho => (hcon o v ho).mono (hact v))
    with ⟨p, v, x, ho, hx, ht⟩ | ⟨o, v, p, v', x, ho, hc, hx, ht⟩ | ⟨o, v, v', b, x, ho, hc, hx, ht⟩
  · obtain ⟨b, y, z, hord, hf, -, hz⟩ := closeUnwound_apply .spanActive s (v.left ⟨u.active, s⟩)
    rw [hx] at hz
    cases hz
    exact ⟨by simp [ht], v, y, b, by rw [ho]; exact refl v, hord, by rw [ht]; exact hf⟩
  · obtain ⟨b, y, z, hord, hf, -, hz⟩ := closeUnwound_apply (phaseOf o) s (v'.left ⟨u.active, s⟩)
    rw [hx] at hz
    cases hz
    have hv := (hcon o v ho).2
    rw [hc] at hv
    exact ⟨by simp [ht], v', y, b, by rw [ho]; exact hv, hord, by rw [ht]; exact hf⟩
  · have hv := (hcon o v ho).2
    rw [hc] at hv
    refine ⟨?_, v', _, b, by rw [ho]; exact hv, .refl _, by rw [ht]; exact hx⟩
    rw [ht]
    cases b <;> simp

end Interceptor

end SpanFlow
