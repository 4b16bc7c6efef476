import SpanFlow.Strategy
import SpanFlow.Proofs.Scope.Bracket
import Mathlib.Logic.Relation

/-!
Layers of tracing over strategies. Strategies go from hand to hand: what a registry gives back or holds
can be registered elsewhere, and tracing can be added to it again. All wrappers switch the active span
of the running thread, so that a layer is the same whichever one it was made with. Main statement: if all
that there was at the beginning is free of tracing, nothing ever gets a second layer, and a command that
was prepared passes the strategy at the bottom and at most one activation.
-/

namespace SpanFlow

variable {β κ ν ε : Type} {sort : StrategySort β κ ν ε} {w : World ν ε}

namespace Strategy

variable {bases : List (Strategy β)} {s : Strategy β}

def layers : Strategy β → Nat
  | .passthrough => 0
  | .custom _ => 0
  | .tracing d => d.layers + 1

def bottom : Strategy β → Strategy β
  | .passthrough => .passthrough
  | .custom b => .custom b
  | .tracing d => d.bottom

structure Plain (sort : StrategySort β κ ν ε) (s : Strategy β) : Prop where
  layers : s.layers = 0
  isTracing : s.isTracing sort = false

theorem bottom_of_layers (h : s.layers = 0) : s.bottom = s := by
  cases s with
  | passthrough => rfl
  | custom b => rfl
  | tracing d => simp [layers] at h

def Over (bases : List (Strategy β)) (s : Strategy β) : Prop :=
  ∃ b ∈ bases, s = b ∨ s = .tracing b

def traced (sort : StrategySort β κ ν ε) (s : Strategy β) : Strategy β :=
  if s.isTracing sort then s else .tracing s

@[simp] theorem isTracing_traced (s : Strategy β) : (s.traced sort).isTracing sort = true := by
  unfold traced
  split
  · assumption
  · rfl

theorem layered_apply (sort : StrategySort β κ ν ε) (s : Strategy β) (w : World ν ε) :
    ∃ v, s.layered sort w = (.done (s.traced sort), v) := by
  unfold layered traced
  split
  · exact ⟨_, rfl⟩
  · exact ⟨_, rfl⟩

theorem Over.traced (hb : ∀ b ∈ bases, b.Plain sort) (h : s.Over bases) : (s.traced sort).Over bases := by
  obtain ⟨b, hmem, rfl | rfl⟩ := h
  · -- What was there at the beginning does not trace: this is its first layer.
    have hno : ¬s.isTracing sort = true := by simp [(hb s hmem).isTracing]
    exact ⟨s, hmem, .inr (if_neg hno)⟩
  · exact ⟨b, hmem, .inr rfl⟩

/-- At most one layer, which is all the tracing that there is, and below it one of the strategies. -/
structure Single (sort : StrategySort β κ ν ε) (bases : List (Strategy β)) (s : Strategy β) : Prop where
  layers : s.layers ≤ 1
  isTracing : s.isTracing sort = decide (s.layers = 1)
  bottom : s.bottom ∈ bases
  eq : s = if s.isTracing sort then .tracing s.bottom else s.bottom

theorem Over.single (hb : ∀ b ∈ bases, b.Plain sort) (h : s.Over bases) : s.Single sort bases := by
  obtain ⟨b, hmem, rfl | rfl⟩ := h
  · obtain ⟨hl, ht⟩ := hb s hmem
    have hbottom := bottom_of_layers hl
    exact ⟨by omega, by simp [hl, ht], by rwa [hbottom], by simp [ht, hbottom]⟩
  · obtain ⟨hl, -⟩ := hb b hmem
    have hbottom : (tracing b).bottom = b := bottom_of_layers hl
    exact ⟨by simp [Strategy.layers, hl], by simp [Strategy.layers, isTracing, hl], by rwa [hbottom], by
      simp [isTracing, hbottom]⟩

end Strategy

namespace StrategyRegistry

def installed (sort : StrategySort β κ ν ε) (r : StrategyRegistry β) : Bool × StrategyRegistry β :=
  if r.current.isTracing sort then (false, r) else (true, ⟨.tracing r.current⟩)

theorem installed_of_tracing {r : StrategyRegistry β} (h : r.current.isTracing sort = true) :
    r.installed sort = (false, r) :=
  if_pos h

theorem current_installed (r : StrategyRegistry β) : (r.installed sort).2.current = r.current.traced sort := by
  unfold installed Strategy.traced
  split
  · rfl
  · rfl

theorem installTracing_apply (sort : StrategySort β κ ν ε) (r : StrategyRegistry β) (w : World ν ε) :
    ∃ v, r.installTracing sort w = (.done (r.installed sort), v) := by
  unfold installTracing installed
  by_cases h : r.current.isTracing sort = true
  · rw [if_pos h, if_pos h]
    exact ⟨_, rfl⟩
  · obtain ⟨v, hv⟩ := r.current.layered_apply sort w
    rw [if_neg h, if_neg h]
    rw [Strategy.traced, if_neg h] at hv
    exact ⟨v, Act.bind_of_done hv⟩

theorem installGlobally_apply (sort : StrategySort β κ ν ε) (r : StrategyRegistry β) (w : World ν ε) :
    ∃ v, r.installGlobally sort w = (.done (r.installed sort), v) := by
  obtain ⟨v, hv⟩ := r.installTracing_apply sort w
  rw [installGlobally, Act.bind_of_done hv, installed]
  cases r.current.isTracing sort with
  | true => exact ⟨_, rfl⟩
  | false => exact ⟨_, rfl⟩

theorem current_of_done {r r' : StrategyRegistry β} {answer : Bool} {u v : World ν ε}
    {x : Exit (Bool × StrategyRegistry β) × World ν ε} (hx : x = (.done (answer, r'), v))
    (h : x = (.done (r.installed sort), u)) : r'.current = r.current.traced sort := by
  have hout := hx.symm.trans h
  simp only [Prod.mk.injEq, Exit.done.injEq] at hout
  rw [← current_installed, ← hout.1]

def installTimes (sort : StrategySort β κ ν ε) :
    Nat → StrategyRegistry β → Activity ν ε (List Bool × StrategyRegistry β)
  | 0, r => pure ([], r)
  | n + 1, r => do
    let (installed, r) ← r.installTracing sort
    let (answers, r) ← installTimes sort n r
    return (installed :: answers, r)

theorem installTimes_cons {r r' r'' : StrategyRegistry β} {installed : Bool} {answers : List Bool} {n : Nat}
    {u v : World ν ε} (h : r.installTracing sort w = (.done (installed, r'), v))
    (hn : r'.installTimes sort n v = (.done (answers, r''), u)) :
    r.installTimes sort (n + 1) w = (.done (installed :: answers, r''), u) :=
  (Act.bind_of_done h).trans (Act.bind_of_done hn)

theorem installTimes_of_tracing {r : StrategyRegistry β} (h : r.current.isTracing sort = true) (n : Nat)
    (w : World ν ε) : ∃ v, r.installTimes sort n w = (.done (List.replicate n false, r), v) := by
  induction n generalizing w with
  | zero => exact ⟨w, rfl⟩
  | succ n ih =>
    obtain ⟨v, hv⟩ := r.installTracing_apply sort w
    rw [installed_of_tracing h] at hv
    obtain ⟨u, hu⟩ := ih v
    exact ⟨u, installTimes_cons hv hu⟩

theorem installTimes_succ (sort : StrategySort β κ ν ε) (r : StrategyRegistry β) (n : Nat) (w : World ν ε) :
    ∃ v, r.installTimes sort (n + 1) w =
      (.done ((r.installed sort).1 :: List.replicate n false, (r.installed sort).2), v) := by
  obtain ⟨v, hv⟩ := r.installTracing_apply sort w
  have htraces : (r.installed sort).2.current.isTracing sort = true := by
    rw [current_installed, Strategy.isTracing_traced]
  obtain ⟨u, hu⟩ := installTimes_of_tracing htraces n v
  exact ⟨u, installTimes_cons hv hu⟩

end StrategyRegistry

structure Assembly (β : Type) where
  strategies : List (Strategy β)
  registries : List (StrategyRegistry β)

namespace Assembly

variable {a b start : Assembly β}

def all (a : Assembly β) : List (Strategy β) :=
  a.strategies ++ a.registries.map StrategyRegistry.current

/-- One call, whatever else happened since the last one. -/
inductive Step (sort : StrategySort β κ ν ε) (a : Assembly β) : Assembly β → Prop where
  | current {r : StrategyRegistry β} (hr : r ∈ a.registries) :
    Step sort a { a with strategies := r.current :: a.strategies }
  | register {i : Nat} {r : StrategyRegistry β} {s : Strategy β} (hr : a.registries[i]? = some r) (hs : s ∈ a.all) :
    Step sort a ⟨(r.register s).1 :: a.strategies, a.registries.set i (r.register s).2⟩
  | install {i : Nat} {r r' : StrategyRegistry β} {answer : Bool} {w v : World ν ε} (hr : a.registries[i]? = some r)
    (h : r.installTracing sort w = (.done (answer, r'), v)) : Step sort a { a with registries := a.registries.set i r' }
  | installGlobally {i : Nat} {r r' : StrategyRegistry β} {answer : Bool} {w v : World ν ε}
    (hr : a.registries[i]? = some r) (h : r.installGlobally sort w = (.done (answer, r'), v)) :
    Step sort a { a with registries := a.registries.set i r' }
  | layer {s s' : Strategy β} {w v : World ν ε} (hs : s ∈ a.all) (h : s.layered sort w = (.done s', v)) :
    Step sort a { a with strategies := s' :: a.strategies }

def Reaches (sort : StrategySort β κ ν ε) : Assembly β → Assembly β → Prop :=
  Relation.ReflTransGen (Step sort)

theorem mem_all {s : Strategy β} : s ∈ a.all ↔ s ∈ a.strategies ∨ ∃ r ∈ a.registries, r.current = s := by
  simp [all]

theorem mem_all_of_get? {i : Nat} {r : StrategyRegistry β} (h : a.registries[i]? = some r) : r.current ∈ a.all :=
  mem_all.2 (.inr ⟨r, List.mem_of_getElem? h, rfl⟩)

theorem mem_all_cons {s t : Strategy β} (h : s ∈ ({ a with strategies := t :: a.strategies } : Assembly β).all) :
    s = t ∨ s ∈ a.all := by
  rcases mem_all.1 h with h | h
  · rcases List.mem_cons.1 h with rfl | h
    · exact .inl rfl
    · exact .inr (mem_all.2 (.inl h))
  · exact .inr (mem_all.2 (.inr h))

theorem mem_all_set {i : Nat} {r : StrategyRegistry β} {s : Strategy β}
    (h : s ∈ ({ a with registries := a.registries.set i r } : Assembly β).all) : s = r.current ∨ s ∈ a.all := by
  rcases mem_all.1 h with h | ⟨x, hx, rfl⟩
  · exact .inr (mem_all.2 (.inl h))
  · rcases List.mem_or_eq_of_mem_set hx with hx | rfl
    · exact .inr (mem_all.2 (.inr ⟨x, hx, rfl⟩))
    · exact .inl rfl

theorem mem_all_of_installed {i : Nat} {r r' : StrategyRegistry β} {s : Strategy β}
    (hr : a.registries[i]? = some r) (h : r'.current = r.current.traced sort)
    (hs : s ∈ ({ a with registries := a.registries.set i r' } : Assembly β).all) :
    s ∈ a.all ∨ ∃ t ∈ a.all, s = t.traced sort := by
  rcases mem_all_set hs with rfl | hs
  · exact .inr ⟨r.current, mem_all_of_get? hr, h⟩
  · exact .inl hs

theorem Step.mem (h : Step sort a b) {s : Strategy β} (hs : s ∈ b.all) :
    s ∈ a.all ∨ ∃ t ∈ a.all, s = t.traced sort := by
  cases h with
  | @current r hr =>
    rcases mem_all_cons hs with rfl | hs
    · exact .inl (mem_all.2 (.inr ⟨r, hr, rfl⟩))
    · exact .inl hs
  | @register i r t hr ht =>
    rcases mem_all_cons (a := { a with registries := a.registries.set i ⟨t⟩ }) hs with rfl | hs
    · exact .inl (mem_all_of_get? hr)
    · rcases mem_all_set hs with rfl | hs
      · exact .inl ht
      · exact .inl hs
  | @install i r r' answer w v hr h =>
    obtain ⟨u, hu⟩ := r.installTracing_apply sort w
    exact mem_all_of_installed hr (StrategyRegistry.current_of_done h hu) hs
  | @installGlobally i r r' answer w v hr h =>
    obtain ⟨u, hu⟩ := r.installGlobally_apply sort w
    exact mem_all_of_installed hr (StrategyRegistry.current_of_done h hu) hs
  | @layer t t' w v ht h =>
    obtain ⟨u, hu⟩ := t.layered_apply sort w
    cases h.symm.trans hu
    rcases mem_all_cons hs with rfl | hs
    · exact .inr ⟨t, ht, rfl⟩
    · exact .inl hs

theorem Reaches.over (hstart : ∀ s ∈ start.all, s.Plain sort) (h : Reaches sort start a) :
    ∀ s ∈ a.all, s.Over start.all := by
  induction h with
  | refl => exact fun s hs => ⟨s, hs, .inl rfl⟩
  | tail _ hstep ih =>
    intro s hs
    rcases hstep.mem hs with hs | ⟨t, ht, rfl⟩
    · exact ih s hs
    · exact (ih t ht).traced hstart

end Assembly

def Task.stopped (t : Task κ) (w : World ν ε) : Bool :=
  match t.flag with
  | some f => w.flag f
  | none => false

/-- The outer task is the inner one between entering and leaving what was captured: one activation for a
captured span, none without one. -/
structure Task.RunsUnder (m : Meaning κ ν ε) (c : Captured) (inner outer : Task κ) (w : World ν ε) : Prop where
  run : outer.run m w = (c.within (inner.work.run m) >>= fun _ => pure true) w
  active : (c.entered w).active = c.span.or w.active
  entered : (c.entered w).activations = w.activations ++ c.span.toList
  activations : (outer.run m w).2.activations = (inner.run m (c.entered w)).2.activations
  brackets : Act.Moves (fun u v => v.active = u.active) (inner.run m) (c.entered w) →
    outer.run m w = ((inner.run m (c.entered w)).1, c.left w.active (inner.run m (c.entered w)).2)

namespace Task

variable {m : Meaning κ ν ε} {t : Task κ}

theorem isCancelled_apply (t : Task κ) (w : World ν ε) : t.isCancelled w = (.done (t.stopped w), w) := by
  unfold isCancelled stopped
  cases t.flag with
  | none => rfl
  | some f => rfl

theorem run_of_stopped (h : t.stopped w = true) : t.run m w = (t.work.discard >>= fun _ => pure false) w := by
  rw [run, Act.bind_of_done (t.isCancelled_apply w), h]
  rfl

theorem run_of_not_stopped (h : t.stopped w = false) : t.run m w = (t.work.run m >>= fun _ => pure true) w := by
  rw [run, Act.bind_of_done (t.isCancelled_apply w), h]
  rfl

theorem stopped_entered (t : Task κ) (c : Captured) (w : World ν ε) : t.stopped (c.entered w) = t.stopped w := by
  unfold Captured.entered stopped
  cases c.span with
  | none => rfl
  | some s => rfl

theorem run_bound_of_stopped (c : Captured) (h : t.stopped w = true) :
    ({ t with work := .bound c t.work } : Task κ).run m w = t.run m w :=
  (run_of_stopped (t := { t with work := .bound c t.work }) h).trans (run_of_stopped h).symm

theorem runsUnder_bound (m : Meaning κ ν ε) (c : Captured) (h : t.stopped w = false) :
    RunsUnder m c t { t with work := .bound c t.work } w := by
  have hinner : t.run m (c.entered w) = (t.work.run m >>= fun _ => pure true) (c.entered w) :=
    run_of_not_stopped (by rwa [stopped_entered])
  have houter : ({ t with work := .bound c t.work } : Task κ).run m w =
      (c.within (t.work.run m) >>= fun _ => pure true) w :=
    run_of_not_stopped (t := { t with work := .bound c t.work }) h
  refine ⟨houter, c.active_entered w, c.activations_entered w, ?_, fun hmoves => ?_⟩
  · rw [houter, hinner, Act.bind_pure_state, Act.bind_pure_state, Captured.activations_within]
  · -- The answer at the end of the run does not touch the state.
    have hbody : Act.Moves (fun u v => v.active = u.active) (t.work.run m) (c.entered w) := by
      rw [Act.Moves, hinner] at hmoves
      exact Act.Moves.of_bind_pure hmoves
    rw [houter, hinner, Act.bind_apply, Captured.within_apply hbody, Act.bind_apply]
    rcases hbody.cases with ⟨u, v, hx, -⟩ | ⟨p, v, hx, -⟩
    · rw [hx]
      rfl
    · rw [hx]

theorem runsUnder_self (m : Meaning κ ν ε) {c : Captured} (hc : c.span = none) (h : t.stopped w = false) :
    RunsUnder m c t t w := by
  obtain ⟨span⟩ := c
  obtain rfl : span = none := hc
  exact ⟨run_of_not_stopped h, rfl, by simp [Captured.entered], rfl, fun _ => rfl⟩

end Task

/-- The strategy at the bottom has its turn once, and panics go on. A layer then binds the command that it
made to the span that is active after that. If the command is cancelled, nothing is activated for it. -/
structure Strategy.Prepares (sort : StrategySort β κ ν ε) (s : Strategy β) (t : Task κ) (w : World ν ε) : Prop where
  failed : (∀ t', (s.bottom.wrapCallable sort t w).1 ≠ .done t') →
    s.wrapCallable sort t w = s.bottom.wrapCallable sort t w
  done : ∀ {t' : Task κ} {v : World ν ε}, s.bottom.wrapCallable sort t w = (.done t', v) →
    ∃ t'', s.wrapCallable sort t w = (.done t'', v) ∧ ∀ (m : Meaning κ ν ε) (u : World ν ε),
      (t'.stopped u = true → t''.run m u = t'.run m u) ∧
      (t'.stopped u = false → t'.RunsUnder m ⟨if s.isTracing sort then v.active else none⟩ t'' u)

namespace Strategy

variable {s : Strategy β}

theorem prepares_tracing {d : Strategy β} (hd : d.bottom = d) (t : Task κ) (w : World ν ε) :
    (tracing d).Prepares sort t w where
  failed h := by
    rw [bottom, hd] at h ⊢
    -- The layer is reached only where the strategy below returns.
    rw [wrapCallable, Act.bind_apply]
    rcases hx : d.wrapCallable sort t w with ⟨e, v⟩
    cases e with
    | done t' => exact absurd (congrArg Prod.fst hx) (h t')
    | panic p => rfl
    | abort => rfl
  done := by
    intro t' v h
    rw [bottom, hd] at h
    refine ⟨{ t' with work := .bound ⟨v.active⟩ t'.work }, Act.bind_of_done h, fun m u => ⟨?_, ?_⟩⟩
    · exact Task.run_bound_of_stopped _
    · exact Task.runsUnder_bound m _

theorem prepares_self (hs : s.bottom = s) (ht : s.isTracing sort = false) (t : Task κ) (w : World ν ε) :
    s.Prepares sort t w where
  failed _ := by rw [hs]
  done := by
    intro t' v h
    rw [hs] at h
    exact ⟨t', h, fun m u => ⟨fun _ => rfl, Task.runsUnder_self m (by rw [ht]; rfl)⟩⟩

theorem bottom_bottom (s : Strategy β) : s.bottom.bottom = s.bottom := by
  induction s with
  | passthrough => rfl
  | custom b => rfl
  | tracing d ih => exact ih

theorem Single.prepares {bases : List (Strategy β)} (h : s.Single sort bases) (t : Task κ) (w : World ν ε) :
    s.Prepares sort t w := by
  have heq := h.eq
  cases hs : s.isTracing sort with
  | true =>
    rw [hs, if_pos rfl] at heq
    rw [heq]
    exact prepares_tracing s.bottom_bottom t w
  | false =>
    rw [hs, if_neg Bool.false_ne_true] at heq
    exact prepares_self heq.symm hs t w

end Strategy

/-- Strategies and registries that begin without tracing never get a second layer, whatever is registered
where and however often tracing is added. -/
theorem Assembly.layers_never_stack {start a : Assembly β} (hstart : ∀ s ∈ start.all, s.Plain sort)
    (h : start.Reaches sort a) :
    (∀ s ∈ a.all, s.Single sort start.all ∧
      ∀ w, ∃ v, s.layered sort w = (.done (if s.isTracing sort then s else .tracing s), v)) ∧
    ∀ r ∈ a.registries,
      (∀ s, r.register s = (r.current, ⟨s⟩)) ∧
      (∀ w, ∃ v, r.installTracing sort w = (.done (r.installed sort), v)) ∧
      (∀ w, ∃ v, r.installGlobally sort w = (.done (r.installed sort), v)) ∧
      (∀ n w, ∃ v, r.installTimes sort (n + 1) w =
        (.done ((r.installed sort).1 :: List.replicate n false, (r.installed sort).2), v)) ∧
      ∀ t w, r.current.Prepares sort t w := by
  have hsingle : ∀ s ∈ a.all, s.Single sort start.all := fun s hs => (h.over hstart s hs).single hstart
  refine ⟨fun s hs => ⟨hsingle s hs, s.layered_apply sort⟩, fun r hr => ?_⟩
  have hr : r.current.Single sort start.all := hsingle _ (Assembly.mem_all.2 (.inr ⟨r, hr, rfl⟩))
  exact ⟨fun _ => rfl, r.installTracing_apply sort, r.installGlobally_apply sort, r.installTimes_succ sort, hr.prepares⟩

/-- One registry's traced strategy is registered in another, where tracing is asked for three times; the
command is prepared while the span 5 is active, and counted once. -/
theorem Assembly.layers_never_stack_shared :
    let sort : StrategySort Unit Unit Unit Nat :=
      ⟨fun _ => "counting", fun _ => false, fun _ t w => (.done t, { w with extra := w.extra + 1 })⟩
    let start : Assembly Unit := ⟨[], [⟨.custom ()⟩, .initial]⟩
    let a : Assembly Unit := ⟨[.passthrough], [⟨.tracing (.custom ())⟩, ⟨.tracing (.custom ())⟩]⟩
    let r : StrategyRegistry Unit := ⟨.tracing (.custom ())⟩
    let w : World Unit Nat := { World.initial .constant 0 with active := some ⟨5⟩ }
    start.Reaches sort a ∧ (∀ s ∈ a.all, s.layers ≤ 1) ∧
      (∃ v, r.installTimes sort 3 w = (.done ([false, false, false], r), v)) ∧
      ∃ t v, r.current.wrapCallable sort ⟨.code (), none⟩ w = (.done t, v) ∧ v.extra = 1 ∧
        ∀ (m : Meaning Unit Unit Nat) u, Task.RunsUnder m ⟨some ⟨5⟩⟩ ⟨.code (), none⟩ t u := by
  intro sort start a r w
  have hstart : ∀ s ∈ start.all, s.Plain sort := by
    intro s hs
    have hs : s = .custom () ∨ s = .passthrough := by simpa [start, all, StrategyRegistry.initial] using hs
    rcases hs with rfl | rfl
    · exact ⟨rfl, rfl⟩
    · exact ⟨rfl, rfl⟩
  have hinstall : start.Step sort ⟨[], [r, .initial]⟩ := .install (i := 0) (w := w) rfl rfl
  have hregister : Step sort ⟨[], [r, .initial]⟩ a :=
    .register (i := 1) (r := .initial) (s := r.current) rfl (by simp [all])
  have hreach : start.Reaches sort a := (Relation.ReflTransGen.single hinstall).tail hregister
  obtain ⟨hall, hregistries⟩ := layers_never_stack hstart hreach
  obtain ⟨-, -, -, htimes, hprepares⟩ := hregistries r (by simp [a, r])
  refine ⟨hreach, fun s hs => (hall s hs).1.layers, htimes 2 w, ?_⟩
  obtain ⟨t, ht, hrun⟩ := (hprepares ⟨.code (), none⟩ w).done rfl
  exact ⟨t, _, ht, rfl, fun m u => (hrun m u).2 rfl⟩

end SpanFlow
