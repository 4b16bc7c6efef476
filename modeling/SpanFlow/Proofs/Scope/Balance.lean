import SpanFlow.Proofs.Guarded.Stages
import SpanFlow.Proofs.Scope.Wrapping

/-!
Balance of scopes. Programs are put together from scopes, wrapped work, guarded calls, tasks that run
where they are handed over, and code that switches no span itself. Main statement: however a program
ends, its journal tells of activations and restorations like brackets, every restoration finds the span
of its activation, and the span that was active is active again.
-/

namespace SpanFlow

variable {κ ν ε C R E α : Type}

/-- Journal entries in which activations and restorations are well nested, as seen where `a` is active.
An activation finds `a`; what is inside finds its span, and so does its restoration; what comes after
it finds `a` again. -/
inductive WellNested : Option SpanRef → List JournalEntry → Prop where
  | nil {a : Option SpanRef} : WellNested a []
  | event {a : Option SpanRef} {j : JournalEntry} {rest : List JournalEntry} (hj : j.isEvent)
      (hrest : WellNested a rest) : WellNested a (j :: rest)
  | scope {a : Option SpanRef} {s : SpanRef} {t u : Thread} {inner rest : List JournalEntry}
      (hinner : WellNested (some s) inner) (hrest : WellNested a rest) :
      WellNested a (⟨.activating s, t, a⟩ :: inner ++ ⟨.restoring s, u, some s⟩ :: rest)

namespace WellNested

theorem append {a : Option SpanRef} {es fs : List JournalEntry} (he : WellNested a es) (hf : WellNested a fs) :
    WellNested a (es ++ fs) := by
  induction he with
  | nil => exact hf
  | event hj _ ih => exact .event hj (ih hf)
  | @scope a s t u inner rest hinner _ _ ih =>
    have h := scope (t := t) (u := u) hinner (ih hf)
    simpa using h

theorem of_events {a : Option SpanRef} {es : List JournalEntry} (h : ∀ j ∈ es, j.isEvent) : WellNested a es := by
  induction es with
  | nil => exact .nil
  | cons j es ih => exact .event (h j (by simp)) (ih fun k hk => h k (by simp [hk]))

theorem restoring_active {a : Option SpanRef} {es : List JournalEntry} (h : WellNested a es) :
    ∀ j ∈ es, ∀ s, j.note = .restoring s → j.active = some s := by
  induction h with
  | nil => simp
  | @event a j rest hj _ ih =>
    intro k hk s hs
    rcases List.mem_cons.1 hk with rfl | hk
    · simp [JournalEntry.isEvent, hs] at hj
    · exact ih k hk s hs
  | @scope a r t u inner rest _ _ ihi ihr =>
    intro k hk s hs
    have hplaces : k = ⟨.activating r, t, a⟩ ∨ k ∈ inner ∨ k = ⟨.restoring r, u, some r⟩ ∨ k ∈ rest := by
      simpa [or_assoc] using hk
    rcases hplaces with rfl | hk | rfl | hk
    · cases hs
    · exact ihi k hk s hs
    · cases hs
      rfl
    · exact ihr k hk s hs

end WellNested

namespace World

/-- The same span is active, and meanwhile scopes were entered and left like brackets. -/
structure Balanced (w v : World ν ε) : Prop where
  active : v.active = w.active
  journal : ∃ es, v.journal.toList = w.journal.toList ++ es ∧ WellNested w.active es

theorem Steady.balanced {w v : World ν ε} (h : w.Steady v) : w.Balanced v := by
  obtain ⟨es, he, hes⟩ := h.journal
  exact ⟨h.active, es, he, .of_events hes⟩

theorem Ordinary.balanced {w v : World ν ε} (h : w.Ordinary v) : w.Balanced v :=
  h.steady.balanced

theorem Balanced.trans {u v w : World ν ε} (h : u.Balanced v) (g : v.Balanced w) : u.Balanced w := by
  obtain ⟨es, he, hes⟩ := h.journal
  obtain ⟨fs, hf, hfs⟩ := g.journal
  rw [h.active] at hfs
  exact ⟨g.active.trans h.active, es ++ fs, by rw [hf, he, List.append_assoc], hes.append hfs⟩

instance : IsPreorder (World ν ε) Balanced where
  refl w := (Steady.refl w).balanced
  trans _ _ _ := Balanced.trans

theorem Balanced.bracket {w v : World ν ε} {s : SpanRef} (h : (w.entered s).Balanced v) :
    w.Balanced (v.left ⟨w.active, s⟩) := by
  obtain ⟨es, he, hes⟩ := h.journal
  have hs : v.active = some s := h.active
  refine ⟨rfl, ⟨.activating s, w.thread, w.active⟩ :: es ++ [⟨.restoring s, v.thread, some s⟩], ?_, .scope hes .nil⟩
  simp [left, note, he, hs, entered]

end World

namespace Scope

theorem moves_within {s : SpanRef} {x : Activity ν ε α} {w : World ν ε}
    (h : Act.Moves World.Balanced x (w.entered s)) : Act.Moves World.Balanced (within s x) w := by
  rw [Act.Moves, within_apply (h.mono fun _ => World.Balanced.active)]
  exact ⟨h.1, h.2.bracket⟩

end Scope

namespace Captured

theorem moves_within (c : Captured) {x : Activity ν ε α} {w : World ν ε}
    (h : ∀ v, Act.Moves World.Balanced x v) : Act.Moves World.Balanced (c.within x) w := by
  unfold within
  cases c.span with
  | none => exact h w
  | some s => exact Scope.moves_within (h _)

theorem moves_withinAll (layers : List Captured) {x : Activity ν ε α} {w : World ν ε}
    (h : ∀ v, Act.Moves World.Balanced x v) : Act.Moves World.Balanced (withinAll layers x) w := by
  induction layers generalizing w with
  | nil => exact h w
  | cons c layers ih => exact c.moves_within fun v => ih

end Captured

namespace Work

def codes : Work κ → List κ
  | .idle => []
  | .code c => [c]
  | .answer _ c => [c]
  | .notify _ c _ => [c]
  | .bound _ body => body.codes
  | .after c body => c :: body.codes

def callbacks : Work κ → List (Callback κ)
  | .notify _ _ cb => [cb]
  | .bound _ body => body.callbacks
  | .after _ body => body.callbacks
  | _ => []

theorem moves_caught {x : Activity ν ε α} {w : World ν ε} (h : Act.Moves World.Balanced x w) :
    Act.Moves World.Balanced (caught x) w :=
  h.attempt.bind fun r _ _ _ => match r with
    | .ok _ => Act.moves_pure _
    | .error _ => Act.moves_pure _

theorem discard_apply (body : Work κ) (w : World ν ε) :
    ∃ v, body.discard w = (.done (), v) ∧ w.Ordinary v := by
  induction body with
  | idle => exact ⟨w, rfl, .refl w⟩
  | code c => exact ⟨w, rfl, .refl w⟩
  | answer channel c => exact ⟨_, rfl, (Activity.moves_closeChannel channel).2⟩
  | notify channel c cb => exact ⟨_, rfl, (Activity.moves_closeChannel channel).2⟩
  | bound captured body ih => exact ih
  | after c body ih => exact ih

theorem moves_inform (m : Meaning κ ν ε) (cb : Callback κ) {c : κ}
    (hc : ∀ v, Act.Moves World.Balanced (m.call c) v)
    (hs : ∀ r v, Act.Moves World.Balanced (m.succeed cb.success r) v)
    (hf : ∀ e v, Act.Moves World.Balanced (m.fail cb.failure e) v) (w : World ν ε) :
    Act.Moves World.Balanced (inform m cb c) w :=
  (moves_caught (hc w)).bind fun r _ _ _ => match r with
    | .ok r => Captured.moves_withinAll cb.layers (hs r)
    | .error e => Captured.moves_withinAll cb.layers (hf e)

theorem moves_run (m : Meaning κ ν ε) (body : Work κ)
    (hc : ∀ c ∈ body.codes, ∀ v, Act.Moves World.Balanced (m.call c) v)
    (hs : ∀ cb ∈ body.callbacks, ∀ r v, Act.Moves World.Balanced (m.succeed cb.success r) v)
    (hf : ∀ cb ∈ body.callbacks, ∀ e v, Act.Moves World.Balanced (m.fail cb.failure e) v) (w : World ν ε) :
    Act.Moves World.Balanced (body.run m) w := by
  induction body generalizing w with
  | idle => exact Act.moves_pure ()
  | code c => exact (hc c (by simp [codes]) w).bind fun _ _ _ _ => Act.moves_pure ()
  | answer channel c =>
    refine (moves_caught (hc c (by simp [codes]) w)).bind fun _ _ _ _ => ?_
    exact (Activity.moves_send channel _).mono fun _ => World.Ordinary.balanced
  | notify channel c cb =>
    have hcb : cb ∈ (notify channel c cb).callbacks := by simp [callbacks]
    have hinform := moves_inform m cb (hc c (by simp [codes])) (hs cb hcb) (hf cb hcb) w
    refine (moves_caught hinform).bind fun _ _ _ _ => ?_
    exact (Activity.moves_send channel _).mono fun _ => World.Ordinary.balanced
  | bound captured body ih => exact captured.moves_within (ih hc hs hf)
  | after c body ih =>
    have hbody := ih (fun d hd => hc d (by simp [codes, hd])) hs hf
    have hfirst : Act.Moves World.Balanced (Act.onPanic (m.call c) body.discard) w :=
      (hc c (by simp [codes]) w).onPanic fun _ t _ _ => by
        obtain ⟨u, hu, hord⟩ := body.discard_apply t
        exact ⟨u, hu, hord.balanced⟩
    exact hfirst.bind fun _ v _ _ => hbody v

end Work

theorem Task.moves_run (m : Meaning κ ν ε) (t : Task κ)
    (hc : ∀ c ∈ t.work.codes, ∀ v, Act.Moves World.Balanced (m.call c) v)
    (hs : ∀ cb ∈ t.work.callbacks, ∀ r v, Act.Moves World.Balanced (m.succeed cb.success r) v)
    (hf : ∀ cb ∈ t.work.callbacks, ∀ e v, Act.Moves World.Balanced (m.fail cb.failure e) v) (w : World ν ε) :
    Act.Moves World.Balanced (t.run m) w := by
  have hflag : Act.Moves World.Balanced t.isCancelled w := by
    unfold isCancelled
    cases t.flag with
    | none => exact Act.moves_pure false
    | some f => exact Act.moves_read _
  refine hflag.bind fun cancelled v _ _ => ?_
  cases cancelled with
  | true =>
    obtain ⟨u, hu, hord⟩ := t.work.discard_apply v
    exact (Act.moves_of_done hu hord.balanced).bind fun _ _ _ _ => Act.moves_pure false
  | false => exact (t.work.moves_run m hc hs hf v).bind fun _ _ _ _ => Act.moves_pure true

theorem Interceptor.moves_trace [Describable E] (i : Interceptor ν ε C R) (call : Call) (choice : ParentChoice)
    {op : SpanRef → Activity ν ε (Except E R)}
    (hpre : ∀ d ∈ i.decorators, ∀ s v, Act.Moves World.Balanced (d.preCall call s) v)
    (hpost : ∀ d ∈ i.decorators, ∀ r s v, Act.Moves World.Balanced (d.postCall call r s) v)
    (herr : ∀ d ∈ i.decorators, ∀ f s v, Act.Moves World.Balanced (d.onError call f s) v)
    (hop : ∀ s v, Act.Moves World.Balanced (op s) v) (w : World ν ε) :
    Act.Moves World.Balanced (i.trace call choice op) w := by
  have hq : ∀ u v : World ν ε, u.Ordinary v → u.Balanced v := fun _ _ => World.Ordinary.balanced
  obtain ⟨u, -, hs, hstart, -, -⟩ := i.startSpan_apply call choice w
  have hoperate : Act.Moves World.Balanced (i.operate call op ⟨w.spans.size⟩) (u.entered ⟨w.spans.size⟩) :=
    i.moves_operate hq call op (fun d hd v _ => hpre d hd _ v) fun v _ => hop _ v
  have hconclude (o : Except (E × FailureInfo) R) (v : World ν ε) :
      Act.Moves World.Balanced (i.conclude call ⟨w.spans.size⟩ o) v :=
    i.moves_conclude hq call o (fun d hd r v _ => hpost d hd r _ v) fun d hd f v _ => herr d hd f _ v
  obtain ⟨hend, v, x, b, hv, hx, hfinish⟩ := i.trace_leaves (Q := World.Balanced) (fun _ _ => World.Balanced.active)
    call choice hs (hoperate.mono fun _ => World.Balanced.active) fun o v _ => hconclude o v
  have hscope : u.Balanced (v.left ⟨u.active, ⟨w.spans.size⟩⟩) := (hoperate.2.trans hv).bracket
  obtain ⟨b', y, hy, hsteady⟩ := SpanRef.finish_apply ⟨w.spans.size⟩ x
  rw [hfinish] at hy
  cases hy
  exact ⟨hend, ((hstart.balanced.trans hscope).trans hx.balanced).trans hsteady.balanced⟩

/-- Programs that switch the active span only through scopes, wrapped work and guarded calls, one after
the other or one inside the other. A poll of a wrapped future is wrapped work. Panics may start in any
code and may be stopped anywhere. -/
inductive Program : {α : Type} → Activity ν ε α → Prop where
  | own {α : Type} {x : Activity ν ε α} (hx : ∀ w, Act.Moves World.Steady x w) : Program x
  | bind {α β : Type} {x : Activity ν ε α} {f : α → Activity ν ε β} (hx : Program x) (hf : ∀ a, Program (f a)) :
      Program (x >>= f)
  | attempt {α : Type} {x : Activity ν ε α} (hx : Program x) : Program (Act.attempt x)
  | scope {α : Type} {x : Activity ν ε α} (s : SpanRef) (hx : Program x) : Program (Scope.within s x)
  | wrapped {α : Type} {x : Activity ν ε α} (c : Captured) (hx : Program x) : Program (c.within x)
  | recurring {κ : Type} {m : Meaning κ ν ε} (r : Recurring κ) (hr : Program (m.turn r.code)) : Program (r.run m)
  | succeeded {κ : Type} {m : Meaning κ ν ε} (cb : Callback κ) {v : ν} (hcb : Program (m.succeed cb.success v)) :
      Program (cb.succeed m v)
  | failed {κ : Type} {m : Meaning κ ν ε} (cb : Callback κ) {e : TaskError} (hcb : Program (m.fail cb.failure e)) :
      Program (cb.fail m e)
  | guarded {C R E : Type} [Describable E] (i : Interceptor ν ε C R) (call : Call) (choice : ParentChoice)
      {op : SpanRef → Activity ν ε (Except E R)} (hpre : ∀ d ∈ i.decorators, ∀ s, Program (d.preCall call s))
      (hpost : ∀ d ∈ i.decorators, ∀ r s, Program (d.postCall call r s))
      (herr : ∀ d ∈ i.decorators, ∀ f s, Program (d.onError call f s)) (hop : ∀ s, Program (op s)) :
      Program (i.trace call choice op)
  | direct {κ : Type} {m : Meaning κ ν ε} (t : Task κ) (hc : ∀ c ∈ t.work.codes, Program (m.call c))
      (hs : ∀ cb ∈ t.work.callbacks, ∀ v, Program (m.succeed cb.success v))
      (hf : ∀ cb ∈ t.work.callbacks, ∀ e, Program (m.fail cb.failure e)) :
      Program ((Executor.direct m).execute t)

namespace Program

theorem moves {x : Activity ν ε α} (h : Program x) (w : World ν ε) : Act.Moves World.Balanced x w := by
  induction h generalizing w with
  | own hx => exact (hx w).mono fun _ => World.Steady.balanced
  | bind _ _ ihx ihf => exact (ihx w).bind fun a v _ _ => ihf a v
  | attempt _ ih => exact (ih w).attempt
  | scope s _ ih => exact Scope.moves_within (ih _)
  | wrapped c _ ih => exact c.moves_within ih
  | recurring r _ ih => exact (Captured.moves_withinAll r.layers ih).bind fun _ _ _ _ => Act.moves_pure _
  | succeeded cb _ ih => exact Captured.moves_withinAll cb.layers ih
  | failed cb _ ih => exact Captured.moves_withinAll cb.layers ih
  | guarded i call choice _ _ _ _ ihpre ihpost iherr ihop => exact i.moves_trace call choice ihpre ihpost iherr ihop w
  | direct t _ _ _ ihc ihs ihf => exact (t.moves_run _ ihc ihs ihf w).bind fun _ _ _ _ => Act.moves_pure _

section Submission

variable {m : Meaning κ ν ε}

theorem submitWork {work : ChannelRef → Work κ} (hc : ∀ r, ∀ c ∈ (work r).codes, Program (m.call c))
    (hs : ∀ r, ∀ cb ∈ (work r).callbacks, ∀ v, Program (m.succeed cb.success v))
    (hf : ∀ r, ∀ cb ∈ (work r).callbacks, ∀ e, Program (m.fail cb.failure e)) :
    Program ((Executor.direct m).submitWork work) := by
  refine .bind (.own fun _ => Activity.moves_openChannel.mono fun _ => World.Ordinary.steady) fun channel => ?_
  refine .bind (.own fun _ => (Activity.moves_newFlag false).mono fun _ => World.Ordinary.steady) fun flag => ?_
  refine .bind (.direct _ (hc channel) (hs channel) (hf channel)) fun r => ?_
  cases r with
  | ok => exact .own fun _ => Act.moves_pure _
  | error x => exact .own fun _ => Act.moves_pure _

theorem submit {c : κ} (hc : Program (m.call c)) : Program ((Executor.direct m).submit c) :=
  submitWork (fun _ => by simpa [Work.codes] using hc) (by simp [Work.callbacks]) (by simp [Work.callbacks])

theorem submitListenable {c : κ} {cb : Callback κ} (hc : Program (m.call c))
    (hs : ∀ v, Program (m.succeed cb.success v)) (hf : ∀ e, Program (m.fail cb.failure e)) :
    Program ((Executor.direct m).submitListenable c cb) :=
  submitWork (fun _ => by simpa [Work.codes] using hc) (fun _ => by simpa [Work.callbacks] using hs) fun _ => by
    simpa [Work.callbacks] using hf

theorem bound {t : Task κ} (hc : ∀ c ∈ t.work.codes, Program (m.call c))
    (hs : ∀ cb ∈ t.work.callbacks, ∀ v, Program (m.succeed cb.success v))
    (hf : ∀ cb ∈ t.work.callbacks, ∀ e, Program (m.fail cb.failure e)) :
    Program ((Executor.direct m).bound.execute t) := by
  have hbound : (Executor.direct m).bound.execute t =
      Captured.take >>= fun c => (Executor.direct m).execute { t with work := .bound c t.work } := rfl
  rw [hbound]
  exact .bind (.own fun _ => Act.moves_read _) fun c => .direct _ hc hs hf

end Submission

theorem withinAll_apply {x : Activity ν ε α} (h : Program x) (layers : List Captured) (w : World ν ε) :
    Captured.withinAll layers x w = ((x (Captured.enteredAll layers w)).1,
      Captured.leftAll layers w.active (x (Captured.enteredAll layers w)).2) := by
  induction layers generalizing w with
  | nil => rfl
  | cons c layers ih =>
    have hinner : Act.Moves World.Balanced (Captured.withinAll layers x) (c.entered w) :=
      Captured.moves_withinAll layers h.moves
    rw [Captured.withinAll, Captured.within_apply (hinner.mono fun _ => World.Balanced.active), ih, c.active_entered]
    rfl

end Program

/-- Everything that runs the activity `x` under these layers: a scope, a poll of a wrapped future, a task
that was bound, a run of recurring work, and either side of a callback. -/
inductive Wraps : {α : Type} → List Captured → Activity ν ε α → Activity ν ε α → Prop where
  | scope {α : Type} (s : SpanRef) (x : Activity ν ε α) : Wraps [⟨some s⟩] x (Scope.within s x)
  | poll {α : Type} (c : Captured) (x : Activity ν ε α) : Wraps [c] x (c.within x)
  | task {κ : Type} (m : Meaning κ ν ε) (layers : List Captured) (body : Work κ) :
    Wraps layers (body.run m) ((Work.boundAll layers body).run m)
  | recurring {κ : Type} (m : Meaning κ ν ε) (r : Recurring κ) :
    Wraps r.layers (m.turn r.code) (Recurring.code <$> r.run m)
  | succeeded {κ : Type} (m : Meaning κ ν ε) (cb : Callback κ) (v : ν) :
    Wraps cb.layers (m.succeed cb.success v) (cb.succeed m v)
  | failed {κ : Type} (m : Meaning κ ν ε) (cb : Callback κ) (e : TaskError) :
    Wraps cb.layers (m.fail cb.failure e) (cb.fail m e)

theorem Wraps.eq {layers : List Captured} {x y : Activity ν ε α} (h : Wraps layers x y) :
    y = Captured.withinAll layers x := by
  cases h with
  | scope s x => rfl
  | poll c x => rfl
  | task m layers body => exact Work.run_boundAll m layers body
  | recurring m r => exact r.code_run m
  | succeeded m cb v => rfl
  | failed m cb e => rfl

/-- However a program ends, scopes are balanced: the span that was active is active again, activations
and restorations are well nested, and each restoration finds its own span. Whatever wraps the program
runs it once, with the innermost captured span active, and is the program itself if nothing was captured;
it closes and reports no span. A task that is run where it is handed over comes to its code and to its
callback under the spans that these captured. -/
theorem scopes_balanced {x : Activity ν ε α} (h : Program x) (w : World ν ε) :
    (x w).1 ≠ .abort ∧ (x w).2.active = w.active ∧
      (∃ es, (x w).2.journal.toList = w.journal.toList ++ es ∧ WellNested w.active es ∧
        ∀ j ∈ es, ∀ s, j.note = .restoring s → j.active = some s) ∧
      (∀ layers y, Wraps layers x y → ∃ v, Captured.Enters layers w v ∧
        y w = ((x v).1, Captured.leftAll layers w.active (x v).2) ∧ (x v).2.SameSpans (y w).2 ∧
        ((∀ c ∈ layers, c.span = none) → y = x)) ∧
      ∀ {κ : Type} (m : Meaning κ ν ε) (t : Task κ), t.isCancelled w = (.done false, w) → t.Begins m w := by
  obtain ⟨hend, hactive, es, he, hes⟩ := h.moves w
  refine ⟨hend, hactive, ⟨es, he, hes, hes.restoring_active⟩, fun layers y hy => ?_, fun m t ht => t.begins m ht⟩
  have hrun : y w = _ := (congrFun hy.eq w).trans (h.withinAll_apply layers w)
  refine ⟨_, Captured.enters layers w, hrun, ?_, fun hnone => ?_⟩
  · rw [hrun]
    exact Captured.sameSpans_leftAll layers w.active _
  · rw [hy.eq, Captured.withinAll_of_none layers hnone]

/-- A task that is bound to a span and runs where it is handed over. Its code tells the journal that it
begins, and makes a guarded call that panics; its callback, bound to another span, tells that too. -/
theorem bound_task_balanced :
    let i : Interceptor Unit Unit (KeyMap String) Unit := ⟨Tracer.default, [.standardTags]⟩
    let lost : SpanRef → Activity Unit Unit (Except Empty Unit) := fun _ => Act.panic .other
    let tell (text : String) : Activity Unit Unit Unit := Activity.emit ⟨.info, text, []⟩
    let m : Meaning Unit Unit Unit :=
      ⟨fun _ => tell "code" >>= fun _ => i.trace (.plain "call" "test" .client) .active lost >>= fun _ => pure (),
        fun _ => pure (), fun _ _ => pure (), fun _ _ => tell "callback"⟩
    let x := (Executor.direct m).execute ⟨.bound ⟨some ⟨7⟩⟩ (.notify ⟨0⟩ () ⟨[⟨some ⟨8⟩⟩], (), ()⟩), none⟩
    let w := World.initial .constant ()
    Program x ∧ (x w).1 ≠ .abort ∧ (x w).2.active = none ∧
      (x w).2.journal.toList.filter JournalEntry.isEvent =
        [⟨.event ⟨.info, "code", []⟩, .main, some ⟨7⟩⟩, ⟨.event ⟨.info, "callback", []⟩, .main, some ⟨8⟩⟩] ∧
      ∃ es, (x w).2.journal.toList = w.journal.toList ++ es ∧ WellNested none es ∧
        ∀ j ∈ es, ∀ s, j.note = .restoring s → j.active = some s := by
  intro i lost tell m x w
  have htell (text : String) : Program (tell text) :=
    .own fun _ => (Activity.moves_emit _).mono fun _ => World.Ordinary.steady
  have hcall : Program (m.call ()) := by
    refine .bind (htell _) fun _ => .bind (.guarded i _ _ (fun d hd s => ?_) (fun d hd r s => ?_)
      (fun d hd f s => ?_) fun _ => ?_) fun _ => ?_
    · obtain rfl : d = .standardTags := by simpa [i] using hd
      exact .own fun _ => (Decorator.moves_standardTags _ s).mono fun _ => World.Ordinary.steady
    · obtain rfl : d = .standardTags := by simpa [i] using hd
      exact .own fun _ => Act.moves_pure _
    · obtain rfl : d = .standardTags := by simpa [i] using hd
      exact .own fun _ => Act.moves_pure _
    · exact .own fun _ => Act.moves_panic _
    · exact .own fun _ => Act.moves_pure _
  have hx : Program x :=
    .direct _ (fun _ _ => hcall) (fun _ _ _ => .own fun _ => Act.moves_pure _) fun _ _ _ => htell _
  obtain ⟨hend, hactive, hes, -⟩ := scopes_balanced hx w
  refine ⟨hx, hend, hactive, ?_, hes⟩
  decide +kernel

end SpanFlow
