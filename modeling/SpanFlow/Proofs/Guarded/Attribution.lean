import SpanFlow.Proofs.Guarded.Stages

/-!
Nested guarded calls and their reports. Main statement: however the operations and hooks of nested calls
end, every call that was made is reported once, after the calls inside it, under the innermost call
around it, and the active span is afterwards what it was before.
-/

namespace SpanFlow

variable {ν ε C R E α β : Type} {w : World ν ε}

structure World.Calm (w v : World ν ε) : Prop where
  kept : w.Kept v
  active : v.active = w.active
  reported : v.reported = w.reported

namespace World

instance : IsPreorder (World ν ε) Calm where
  refl w := ⟨.refl w, rfl, rfl⟩
  trans _ _ _ h g := ⟨h.kept.trans g.kept, g.active.trans h.active, g.reported.trans h.reported⟩

theorem Ordinary.calm {w v : World ν ε} (h : w.Ordinary v) : w.Calm v :=
  ⟨h.kept, h.steady.active, h.reported⟩

def HasActive (w : World ν ε) : Prop :=
  ∀ r, w.active = some r → ∃ s, w.span? r = some s

theorem activeContext_of_span {r : SpanRef} {s : Span} (ha : w.active = some r) (hs : w.span? r = some s) :
    w.activeContext = some s.context := by
  simp [activeContext, ha, hs]

theorem hasActive_entered {r : SpanRef} {s : Span} (hs : w.span? r = some s) : (w.entered r).HasActive := by
  rintro q ⟨⟩
  exact ⟨s, hs⟩

theorem activeContext_of_kept {v : World ν ε} (hw : w.HasActive) (hk : w.Kept v) (ha : v.active = w.active) :
    v.activeContext = w.activeContext ∧ v.HasActive := by
  cases h : w.active with
  | none =>
    rw [h] at ha
    exact ⟨by simp [activeContext, h, ha], fun r hr => by simp [ha] at hr⟩
  | some r =>
    obtain ⟨s, hs⟩ := hw r h
    obtain ⟨t, ht, hst⟩ := hk.spans r s hs
    rw [h] at ha
    refine ⟨?_, fun q hq => ?_⟩
    · rw [activeContext_of_span h hs, activeContext_of_span ha ht, hst.context]
    · rw [ha] at hq
      cases hq
      exact ⟨t, ht⟩

end World

/-- Code of the program around the calls: it may return or panic, and do what it likes but close a
span, report one, or leave another one active. -/
def Considerate (x : Activity ν ε α) : Prop :=
  ∀ w, Act.Moves World.Calm x w

structure Decorator.Considerate (d : Decorator ν ε R) : Prop where
  preCall : ∀ call s, SpanFlow.Considerate (d.preCall call s)
  postCall : ∀ call r s, SpanFlow.Considerate (d.postCall call r s)
  onError : ∀ call f s, SpanFlow.Considerate (d.onError call f s)

theorem Decorator.considerate_quiet (name : Rendered) : (quiet name : Decorator ν ε R).Considerate where
  preCall _ _ _ := Act.moves_pure _
  postCall _ _ _ _ := Act.moves_pure _
  onError _ _ _ _ := Act.moves_pure _

theorem Decorator.considerate_standardTags : (standardTags : Decorator ν ε R).Considerate where
  preCall call s _ := (moves_standardTags call s).mono fun _ => World.Ordinary.calm
  postCall _ _ _ _ := Act.moves_pure _
  onError _ _ _ _ := Act.moves_pure _

/-- Guarded calls in the order in which they are made: the first one, the calls inside it, and the calls
after it. -/
inductive CallForest where
  | none
  | call (c : Call) (inside after : CallForest)
  deriving DecidableEq

structure Lineage where
  trace : TraceId
  span : SpanId
  sampled : Bool

def Context.lineage (c : Context) : Lineage :=
  ⟨c.trace, c.span, c.sampled⟩

def SpanData.lineage (d : SpanData) : Lineage :=
  ⟨d.trace, d.span, d.sampled⟩

structure SpanData.Records (d : SpanData) (s : Span) : Prop where
  lineage : d.lineage = s.context.lineage
  parent : d.parent = s.parent
  name : d.name = s.name
  kind : d.kind = s.kind

theorem Span.Annotated.records_close {s t : Span} (h : s.Annotated t) (now : Time) : (t.close now).data.Records s := by
  have hclose : (t.close now).data.lineage = t.context.lineage ∧ (t.close now).data.parent = t.parent ∧
      (t.close now).data.name = t.name ∧ (t.close now).data.kind = t.kind := by
    unfold close
    split <;> exact ⟨rfl, rfl, rfl, rfl⟩
  obtain ⟨hlineage, hparent, hname, hkind⟩ := hclose
  exact ⟨by rw [hlineage, h.context], hparent.trans h.parent, hname.trans h.name, hkind.trans h.kind⟩

namespace CallForest

def append : CallForest → CallForest → CallForest
  | none, g => g
  | call c inside after, g => call c inside (after.append g)

/-- `f.Reported supply p n m ds`: the records `ds` are those of the calls in `f`, one of each, in the order
in which the calls end. An outermost call is a child of `p`, any other of the call around it. A call
without a parent begins a trace, with an identifier of its own from those between the `n`-th and the
`m`-th of the supply. -/
inductive Reported (supply : Supply) : Option Lineage → Nat → Nat → CallForest → List SpanData → Prop where
  | none {p : Option Lineage} {n m : Nat} (h : n ≤ m) : Reported supply p n m .none []
  | child {p : Lineage} {n m : Nat} {c : Call} {inside after : CallForest} {d : SpanData} {ds es : List SpanData}
      (name : d.name = c.name) (kind : d.kind = c.kind) (parent : d.parent = some p.span) (trace : d.trace = p.trace)
      (sampled : d.sampled = p.sampled) (hinside : Reported supply (some d.lineage) n m inside ds)
      (hafter : Reported supply (some p) n m after es) :
      Reported supply (some p) n m (.call c inside after) (ds ++ d :: es)
  | root {n k m : Nat} {c : Call} {inside after : CallForest} {d : SpanData} {ds es : List SpanData}
      (name : d.name = c.name) (kind : d.kind = c.kind) (parent : d.parent = .none) (hn : n ≤ k) (hm : k < m)
      (trace : d.trace = supply.traceIds k) (hinside : Reported supply (some d.lineage) n m inside ds)
      (hafter : Reported supply .none (k + 1) m after es) :
      Reported supply .none n m (.call c inside after) (ds ++ d :: es)

theorem append_none (f : CallForest) : f.append .none = f := by
  induction f with
  | none => rfl
  | call c inside after _ ih => rw [append, ih]

namespace Reported

variable {supply : Supply} {p : Option Lineage} {n k m j : Nat} {f g : CallForest} {ds es : List SpanData}

theorem mono (h : f.Reported supply p k m ds) (hn : n ≤ k) (hm : m ≤ j) : f.Reported supply p n j ds := by
  induction h generalizing n with
  | none h => exact .none (Nat.le_trans hn (Nat.le_trans h hm))
  | child name kind parent trace sampled _ _ ihi iha =>
    exact .child name kind parent trace sampled (ihi hn hm) (iha hn hm)
  | root name kind parent hk hl trace _ _ ihi iha =>
    exact .root name kind parent (Nat.le_trans hn hk) (Nat.lt_of_lt_of_le hl hm) trace (ihi hn hm) (iha (Nat.le_refl _) hm)

theorem append (hf : f.Reported supply p n k ds) (hg : g.Reported supply p k m es) (hkm : k ≤ m) :
    (f.append g).Reported supply p n m (ds ++ es) := by
  induction hf with
  | none h => exact hg.mono h (Nat.le_refl _)
  | child name kind parent trace sampled hinside _ _ iha =>
    rw [List.append_assoc]
    exact .child name kind parent trace sampled (hinside.mono (Nat.le_refl _) hkm) (iha hg hkm)
  | root name kind parent hn hl trace hinside _ _ iha =>
    rw [List.append_assoc]
    exact .root name kind parent hn (Nat.lt_of_lt_of_le hl hkm) trace (hinside.mono (Nat.le_refl _) hkm) (iha hg hkm)

theorem of_started {C : Type} {t : Tracer C} {c : Call} {parent : Option Context} {w u : World ν ε} {s : Span}
    {d : SpanData} {inside : CallForest} (h : t.Started c.name c.kind parent w u s) (hd : d.Records s)
    (hin : inside.Reported w.supply (some s.context.lineage) w.used.traces m ds)
    (hu : w.used.traces ≤ u.used.traces) (hm : u.used.traces ≤ m) :
    (call c inside .none).Reported w.supply (parent.map Context.lineage) w.used.traces m (ds ++ [d]) := by
  rw [← hd.lineage] at hin
  have hname : d.name = c.name := hd.name.trans h.name
  have hkind : d.kind = c.kind := hd.kind.trans h.kind
  have hparent : d.parent = parent.map Context.span := hd.parent.trans h.parentId
  cases parent with
  | some q =>
    have hcontext := h.child q rfl
    have hlineage : d.lineage = ⟨q.trace, w.supply.spanIds w.used.spans, q.sampled⟩ := by
      rw [hd.lineage, hcontext]
      simp [Context.lineage, Tracer.childContext, Context.new]
    have htrace : d.trace = q.trace := congrArg Lineage.trace hlineage
    have hsampled : d.sampled = q.sampled := congrArg Lineage.sampled hlineage
    exact .child hname hkind hparent htrace hsampled hin (.none (Nat.le_trans hu hm))
  | none =>
    obtain ⟨htrace, hlt⟩ := h.root rfl
    have hdrawn : w.used.traces + 1 ≤ m := Nat.le_trans hlt hm
    have hd' : d.trace = s.context.trace := congrArg Lineage.trace hd.lineage
    exact .root hname hkind hparent (Nat.le_refl _) hdrawn (hd'.trans htrace) hin (.none hdrawn)

end Reported

end CallForest

/-- The calls that were made between two states are reported, and nothing else happened to spans and
scopes. -/
structure CallForest.Accounted (f : CallForest) (w v : World ν ε) : Prop where
  kept : w.Kept v
  active : v.active = w.active
  reported : ∃ ds : List SpanData, v.reported.toList = w.reported.toList ++ ds ∧
    f.Reported w.supply (w.activeContext.map Context.lineage) w.used.traces v.used.traces ds

namespace CallForest.Accounted

theorem none_of_calm {w v : World ν ε} (h : w.Calm v) : CallForest.none.Accounted w v :=
  ⟨h.kept, h.active, [], by simp [h.reported], .none h.kept.traces⟩

theorem append {f g : CallForest} {u v w : World ν ε} (hu : u.HasActive) (hf : f.Accounted u v)
    (hg : g.Accounted v w) : (f.append g).Accounted u w := by
  obtain ⟨ds, hds, hfd⟩ := hf.reported
  obtain ⟨es, hes, hge⟩ := hg.reported
  rw [(World.activeContext_of_kept hu hf.kept hf.active).1, hf.kept.supply] at hge
  refine ⟨hf.kept.trans hg.kept, hg.active.trans hf.active, ds ++ es, ?_, hfd.append hge hg.kept.traces⟩
  rw [hes, hds, List.append_assoc]

theorem calm_right {f : CallForest} {u v w : World ν ε} (hu : u.HasActive) (hf : f.Accounted u v) (h : v.Calm w) :
    f.Accounted u w := by
  have happ := hf.append hu (none_of_calm h)
  rwa [append_none] at happ

theorem calm_left {f : CallForest} {u v w : World ν ε} (hu : u.HasActive) (h : u.Calm v) (hf : f.Accounted v w) :
    f.Accounted u w :=
  (none_of_calm h).append hu hf

theorem call {C : Type} {t : Tracer C} {c : Call} {inside : CallForest} {w u z x y : World ν ε} {s : SpanRef}
    {span : Span} {b : Bool} (hmemory : t.reporter = .memory) (hstart : w.Ordinary u) (hnew : w.span? s = .none)
    (hspan : u.span? s = some span) (hstarted : t.Started c.name c.kind w.activeContext w u span)
    (hin : inside.Accounted (u.entered s) z) (hx : (z.left ⟨u.active, s⟩).Ordinary x)
    (hf : s.finish x = (.done b, y)) : (CallForest.call c inside .none).Accounted w y := by
  have hux : u.Kept x :=
    (((u.kept_entered s).trans hin.kept).trans (z.kept_left ⟨u.active, s⟩)).trans hx.kept
  have hwx : w.Kept x := hstart.kept.trans hux
  obtain ⟨last, hlast, hann⟩ := hux.spans s span hspan
  have hopen : last.isFinished = false := by rw [Span.isFinished, hann.stop]; exact hstarted.isOpen
  obtain ⟨y', hy', hclosed⟩ := SpanRef.finish_of_open hlast hopen
  rw [hf] at hy'
  cases hy'
  obtain ⟨now, -, hreport⟩ := hclosed.span
  have hreported := hreport (hann.reporter.trans (hstarted.reporter.trans hmemory))
  have htraces : u.used.traces ≤ y.used.traces := by rw [hclosed.traces]; exact hux.traces
  obtain ⟨ds, hds, hinside⟩ := hin.reported
  rw [World.activeContext_of_span (w := u.entered s) rfl hspan] at hinside
  have hbetween : inside.Reported w.supply (some span.context.lineage) w.used.traces y.used.traces ds := by
    rw [← hstart.kept.supply]
    refine hinside.mono hstart.kept.traces ?_
    rw [hclosed.traces]
    exact Nat.le_trans (z.kept_left _).traces hx.kept.traces
  refine ⟨⟨by rw [hclosed.supply, hwx.supply], ?_, fun q r hr => ?_⟩, ?_, ds ++ [(last.close now).data], ?_,
    .of_started hstarted (hann.records_close now) hbetween hstart.kept.traces htraces⟩
  · rw [hclosed.traces]; exact hwx.traces
  · have hne : q ≠ s := by
      rintro rfl
      rw [hnew] at hr
      cases hr
    rw [hclosed.others q hne]
    exact hwx.spans q r hr
  · calc y.active = x.active := hclosed.steady.active
      _ = u.active := hx.steady.active
      _ = w.active := hstart.steady.active
  · rw [hreported, hx.reported, Array.toList_push, World.reported_left, hds, World.reported_entered,
      hstart.reported, List.append_assoc]

end CallForest.Accounted

theorem DecoratorChain.calm_run (hook : String) (invoke : Decorator ν ε R → Activity ν ε (Except Rendered Unit))
    (chain : DecoratorChain ν ε R) (hd : ∀ d ∈ chain, Considerate (invoke d)) : Considerate (run hook invoke chain) :=
  fun _ => chain.moves_run (fun _ _ => World.Ordinary.calm) hook invoke fun d h v _ => hd d h v

namespace Interceptor

/-- The calls inside a guarded call: those of its operation in the state in which this begins, and none if
it is not reached. -/
def inside (i : Interceptor ν ε C R) (c : Call) (f : SpanRef → World ν ε → CallForest) (w : World ν ε) : CallForest :=
  match i.startSpan c .active w with
  | (.done s, u) =>
    match i.decorators.preCall c s (u.entered s) with
    | (.done _, v) => f s v
    | _ => .none
  | _ => .none

variable [Describable E] (i : Interceptor ν ε C R) (c : Call) {op : SpanRef → Activity ν ε (Except E R)}
  {f : SpanRef → World ν ε → CallForest}

theorem accounted_operate {s : SpanRef} {u : World ν ε} (hs : i.startSpan c .active w = (.done s, u))
    (hu : (u.entered s).HasActive) (hpre : Considerate (i.decorators.preCall c s))
    (hop : ∀ v : World ν ε, v.HasActive → (op s v).1 ≠ .abort ∧ (f s v).Accounted v (op s v).2) :
    (i.operate c op s (u.entered s)).1 ≠ .abort ∧
      (i.inside c f w).Accounted (u.entered s) (i.operate c op s (u.entered s)).2 := by
  have hleaves := i.operate_leaves c op (hpre (u.entered s)).1
  rcases (hpre (u.entered s)).cases with ⟨n, v, hn, hcalm⟩ | ⟨p, v, hp, hcalm⟩
  · have hinside : i.inside c f w = f s v := by simp only [inside, hs, hn]
    obtain ⟨hend, hacc⟩ := hop v (World.activeContext_of_kept hu hcalm.kept hcalm.active).2
    obtain ⟨hdone, hways⟩ := hleaves fun m x hm => by
      rw [hn] at hm
      cases hm
      exact hend
    rw [hinside]
    refine ⟨hdone, ?_⟩
    rcases hways with ⟨p, x, hp, -⟩ | ⟨m, x, hm, hord⟩
    · rw [hn] at hp
      cases hp
    · rw [hn] at hm
      cases hm
      exact (hacc.calm_left hu hcalm).calm_right hu hord.calm
  · have hinside : i.inside c f w = .none := by simp only [inside, hs, hp]
    obtain ⟨hdone, hways⟩ := hleaves fun m x hm => by
      rw [hp] at hm
      cases hm
    rw [hinside]
    refine ⟨hdone, ?_⟩
    rcases hways with ⟨q, x, hq, hx⟩ | ⟨m, x, hm, -⟩
    · rw [hp] at hq
      cases hq
      rw [hx]
      exact .none_of_calm hcalm
    · rw [hp] at hm
      cases hm

theorem accounted_trace (hr : i.tracer.reporter = .memory) (hd : ∀ d ∈ i.decorators, d.Considerate)
    (hop : ∀ (s : SpanRef) (v : World ν ε), v.HasActive → (op s v).1 ≠ .abort ∧ (f s v).Accounted v (op s v).2)
    (w : World ν ε) :
    (i.trace c .active op w).1 ≠ .abort ∧
      (CallForest.call c (i.inside c f w) .none).Accounted w (i.trace c .active op w).2 := by
  obtain ⟨u, span, hs, hstart, hspan, hstarted⟩ := i.startSpan_apply c .active w
  have hu := World.hasActive_entered hspan
  have hpre : Considerate (i.decorators.preCall c ⟨w.spans.size⟩) :=
    i.decorators.calm_run "on_pre_call" (fun d => d.preCall c ⟨w.spans.size⟩) fun d h => (hd d h).preCall c _
  have hcon (o : Except (E × FailureInfo) R) (v : World ν ε) :
      Act.Moves World.Calm (i.conclude c ⟨w.spans.size⟩ o) v :=
    i.moves_conclude (fun _ _ => World.Ordinary.calm) c o (fun d h r v _ => (hd d h).postCall c r _ v)
      fun d h f v _ => (hd d h).onError c f _ v
  obtain ⟨hend, hacc⟩ := i.accounted_operate c hs hu hpre (hop _)
  obtain ⟨hdone, z, x, b, hz, hx, hf⟩ := i.trace_leaves (fun _ _ => World.Calm.active) c .active hs
    ⟨hend, hacc.active⟩ fun o v _ => hcon o v
  have hnew : w.span? ⟨w.spans.size⟩ = none := by simp [World.span?]
  exact ⟨hdone, .call hr hstart hnew hspan hstarted (hacc.calm_right hu hz) hx hf⟩

end Interceptor

/-- Programs of guarded calls under the active span, and of other code, which is considerate: one after the
other or one inside the other, with panics that are caught or not. -/
inductive Nested (ν ε : Type) : Type → Type 1 where
  | own {α : Type} (x : Activity ν ε α) (hx : Considerate x) : Nested ν ε α
  | bind {α β : Type} (x : Nested ν ε α) (f : α → Nested ν ε β) : Nested ν ε β
  | attempt {α : Type} (x : Nested ν ε α) : Nested ν ε (Except Payload α)
  | call {C R E : Type} [Describable E] (i : Interceptor ν ε C R) (hr : i.tracer.reporter = .memory)
      (hd : ∀ d ∈ i.decorators, d.Considerate) (c : Call) (op : SpanRef → Nested ν ε (Except E R)) :
      Nested ν ε (Except E R)

namespace Nested

def run : {α : Type} → Nested ν ε α → Activity ν ε α
  | _, .own x _ => x
  | _, .bind x f => x.run >>= fun a => (f a).run
  | _, .attempt x => Act.attempt x.run
  | _, @call _ _ _ _ _ _ i _ _ c op => i.trace c .active fun s => (op s).run

/-- The guarded calls that a run from this state on makes. -/
def calls : {α : Type} → Nested ν ε α → World ν ε → CallForest
  | _, .own _ _, _ => .none
  | _, .bind x f, w =>
    match x.run w with
    | (.done a, v) => (x.calls w).append ((f a).calls v)
    | _ => x.calls w
  | _, .attempt x, w => x.calls w
  | _, @call _ _ _ _ _ _ i _ _ c op, w => .call c (i.inside c (fun s => (op s).calls) w) .none

theorem accounted (x : Nested ν ε α) (w : World ν ε) (hw : w.HasActive) :
    (x.run w).1 ≠ .abort ∧ (x.calls w).Accounted w (x.run w).2 := by
  induction x generalizing w with
  | own x hx => exact ⟨(hx w).1, .none_of_calm (hx w).2⟩
  | bind x f ihx ihf =>
    have hmoves : Act.Moves (fun _ v => (x.calls w).Accounted w v) x.run w := ihx w hw
    rcases hmoves.cases with ⟨a, v, ha, hv⟩ | ⟨p, v, hp, hv⟩
    · obtain ⟨hend, hacc⟩ := ihf a v (World.activeContext_of_kept hw hv.kept hv.active).2
      rw [run, calls, Act.bind_of_done ha, ha]
      exact ⟨hend, hv.append hw hacc⟩
    · rw [run, calls, Act.bind_of_panic hp, hp]
      exact ⟨by simp, hv⟩
  | attempt x ih =>
    have hmoves : Act.Moves (fun _ v => (x.calls w).Accounted w v) x.run w := ih w hw
    exact Act.Moves.attempt hmoves
  | call i hr hd c op ih => exact i.accounted_trace c hr hd ih w

end Nested

/-- Every guarded call that a run makes is reported exactly once, in the order in which the calls end, with
the innermost call around it as its parent, or the active span of the start, or none; and whether the run
returns or unwinds, the span that was active is active again. -/
theorem nested_calls_reported (x : Nested ν ε α) (w : World ν ε) (hw : w.HasActive) :
    (x.run w).1 ≠ .abort ∧ (x.run w).2.active = w.active ∧
      ∃ ds : List SpanData, (x.run w).2.reported.toList = w.reported.toList ++ ds ∧
        (x.calls w).Reported w.supply (w.activeContext.map Context.lineage) w.used.traces
          (x.run w).2.used.traces ds := by
  obtain ⟨hend, hacc⟩ := x.accounted w hw
  exact ⟨hend, hacc.active, hacc.reported⟩

def nameless : Interceptor Unit Unit (KeyMap String) Unit :=
  ⟨{ Tracer.default with reporter := .memory }, [.standardTags, .quiet (.error .other)]⟩

theorem considerate_nameless : ∀ d ∈ nameless.decorators, d.Considerate := by
  intro d hd
  obtain rfl | rfl : d = .standardTags ∨ d = .quiet (.error .other) := by simpa [nameless] using hd
  · exact Decorator.considerate_standardTags
  · exact Decorator.considerate_quiet _

def rescue (outer inner : Call) : Nested Unit Unit (Except Empty Unit) :=
  .call nameless rfl considerate_nameless outer fun _ =>
    .bind
      (.attempt (.call (E := Empty) nameless rfl considerate_nameless inner fun _ =>
        .own (Act.panic .other) fun _ => Act.moves_panic _))
      fun _ => .own (pure (.ok ())) fun _ => Act.moves_pure _

/-- Two calls have two reports, that of the inner call first. -/
theorem rescue_reported :
    let supply := { Supply.constant with
      spanIds := fun n => if n = 0 then 1 else 2, span_ne_zero := fun n => by split <;> decide }
    let w := World.initial supply ()
    let outer := Call.plain "outer" "test" .server
    let inner := Call.plain "inner" "test" .client
    let x := rescue outer inner
    w.HasActive ∧ x.calls w = .call outer (.call inner .none .none) .none ∧
      ∃ d e : SpanData, (x.run w).2.reported.toList = [d, e] ∧
        d.name = "inner" ∧ d.span = 2 ∧ d.parent = some 1 ∧ d.trace = e.trace ∧ d.sampled = e.sampled ∧
        e.name = "outer" ∧ e.span = 1 ∧ e.parent = none := by
  intro supply w outer inner x
  have hw : w.HasActive := fun _ h => by cases h
  have hcalls : x.calls w = .call outer (.call inner .none .none) .none := by decide +kernel
  have hspans : (x.run w).2.reported.toList.map SpanData.span = [2, 1] := by decide +kernel
  obtain ⟨-, -, ds, hds, hreported⟩ := nested_calls_reported x w hw
  have hambient : w.activeContext.map Context.lineage = none := rfl
  rw [hcalls, hambient] at hreported
  refine ⟨hw, hcalls, ?_⟩
  cases hreported with
  | @root _ _ _ _ _ _ e _ _ hname _ hparent hn hm htrace hinside hafter =>
    cases hafter
    cases hinside with
    | @child _ _ _ _ _ _ d _ _ hname' _ hparent' htrace' hsampled' hinside' hafter' =>
      cases hafter'
      cases hinside'
      have hrecords : (x.run w).2.reported.toList = [d, e] := hds
      rw [hrecords] at hspans
      obtain ⟨hd, he⟩ : d.span = 2 ∧ e.span = 1 := by simpa using hspans
      exact ⟨d, e, hrecords, hname', hd, hparent'.trans (congrArg some he), htrace', hsampled', hname, he, hparent⟩

end SpanFlow
