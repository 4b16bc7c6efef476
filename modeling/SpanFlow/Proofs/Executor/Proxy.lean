import SpanFlow.Proxy
import SpanFlow.Proofs.Scope.Wrapping
import Mathlib.Data.List.Forall2

/-!
A wrapped target next to the target itself. The work that a proxy hands on is the work it was given, in a
frame that is fixed at that moment: wherever it is run later, it comes to the given work once, with the
span that was captured. Main statement: every row of calls on a proxy is a row of calls on its target, one
for one, with the same methods, times and replies.
-/

namespace SpanFlow

variable {κ ν ε α : Type} {w u v : World ν ε}

section Frames

/-- A frame for activities, made by what was captured. Wherever a framed activity is run, it is come to once,
with the captured span active and on the same thread; a bracket is closed behind it. If nothing was captured,
there is no frame at all. -/
structure Captured.Frame (c : Captured) (f : Activity ν ε α → Activity ν ε α) : Prop where
  begins (w : World ν ε) : ∃ v, Invokes (fun x : Unit → Activity ν ε α => f (x ())) w () v ∧
    v.active = c.span.or w.active ∧ v.thread = w.thread ∧
    ∀ x, Act.Moves (fun u z => z.active = u.active) x v → (f x w).1 = (x v).1 ∧ (f x w).2.active = w.active
  idle : c.span = none → f = id

theorem Captured.thread_entered (c : Captured) (w : World ν ε) : (c.entered w).thread = w.thread :=
  c.entered_ignored (fun _ _ _ => rfl) w

theorem Captured.frame_within (c : Captured) : c.Frame (c.within : Activity ν ε α → Activity ν ε α) where
  begins w := by
    refine ⟨c.entered w, c.invokes_within w, c.active_entered w, c.thread_entered w, fun x hx => ?_⟩
    rw [within_apply hx]
    exact ⟨rfl, c.active_left (hx.2.trans (c.active_entered w))⟩
  idle h := by
    funext x
    simp only [within, h, id]

end Frames

section Carried

/-- A task with the same flag, given up as before, and with its body in a frame. -/
structure Task.Carries (c : Captured) (t t' : Task κ) : Prop where
  flag : t'.flag = t.flag
  discard (ν ε : Type) : (t'.discard : Activity ν ε Unit) = t.discard
  run {ν ε : Type} (m : Meaning κ ν ε) : ∃ f, c.Frame f ∧ t'.work.run m = f (t.work.run m)

inductive Recurring.Later (m : Meaning κ ν ε) (r : Recurring κ) : Recurring κ → Prop where
  | start : Later m r r
  | next {q p : Recurring κ} (h : Later m r q) {w v : World ν ε} (hrun : q.run m w = (.done p, v)) : Later m r p

structure Recurring.Carries (c : Captured) (r r' : Recurring κ) : Prop where
  code : r'.code = r.code
  run {ν ε : Type} {m : Meaning κ ν ε} {q : Recurring κ} (h : r'.Later m q) :
    ∃ f, c.Frame f ∧ Recurring.code <$> q.run m = f (Recurring.code <$> ({ r with code := q.code } : Recurring κ).run m)

theorem Task.carries_bound (c : Captured) (t : Task κ) : t.Carries c { t with work := .bound c t.work } :=
  ⟨rfl, fun _ _ => rfl, fun _ => ⟨c.within, c.frame_within, rfl⟩⟩

theorem Recurring.layers_run {m : Meaning κ ν ε} {r q : Recurring κ} (h : r.run m w = (.done q, v)) :
    q.layers = r.layers := by
  obtain ⟨code, u, -, hq⟩ := Act.bind_eq_done h
  cases hq
  rfl

theorem Recurring.Later.layers_eq {m : Meaning κ ν ε} {r q : Recurring κ} (h : r.Later m q) : q.layers = r.layers := by
  induction h with
  | start => rfl
  | next _ hrun ih => exact (layers_run hrun).trans ih

theorem Recurring.carries_bound (c : Captured) (r : Recurring κ) : r.Carries c { r with layers := c :: r.layers } := by
  -- A run replaces the code only; the layers, and with them what was captured, are those of the first run.
  refine ⟨rfl, fun h => ⟨c.within, c.frame_within, ?_⟩⟩
  rw [code_run, code_run, h.layers_eq]
  rfl

end Carried

inductive Request (κ : Type) where
  | execute (t : Task κ)
  | schedule (t : Task κ) (delay : Millis)
  | fixedRate (r : Recurring κ) (initial period : Millis)

namespace Request

def isTimed : Request κ → Bool
  | .execute _ => false
  | .schedule _ _ => true
  | .fixedRate _ _ _ => true

def bound (c : Captured) : Request κ → Request κ
  | .execute t => .execute { t with work := .bound c t.work }
  | .schedule t delay => .schedule { t with work := .bound c t.work } delay
  | .fixedRate r initial period => .fixedRate { r with layers := c :: r.layers } initial period

inductive Carries (c : Captured) : Request κ → Request κ → Prop where
  | execute {t t' : Task κ} (h : t.Carries c t') : Carries c (.execute t) (.execute t')
  | schedule {t t' : Task κ} (h : t.Carries c t') (delay : Millis) : Carries c (.schedule t delay) (.schedule t' delay)
  | fixedRate {r r' : Recurring κ} (h : r.Carries c r') (initial period : Millis) :
    Carries c (.fixedRate r initial period) (.fixedRate r' initial period)

theorem carries_bound (c : Captured) (r : Request κ) : r.Carries c (r.bound c) := by
  cases r with
  | execute t => exact .execute (t.carries_bound c)
  | schedule t delay => exact .schedule (t.carries_bound c) delay
  | fixedRate r initial period => exact .fixedRate (r.carries_bound c) initial period

end Request

inductive Reply where
  | executed (r : Except ExecutorError Unit)
  | scheduled (r : Except ExecutorError ScheduledHandle)

inductive Target (κ ν ε : Type) where
  | plain (e : Executor κ ν ε)
  | timed (s : Scheduler κ ν ε)

structure Exchange (κ ν ε : Type) where
  request : Request κ
  before : World ν ε
  reply : Exit Reply
  after : World ν ε

namespace Target

def call? : Target κ ν ε → Request κ → Option (Activity ν ε Reply)
  | .plain e, .execute t => some (.executed <$> e.execute t)
  | .plain _, .schedule _ _ => none
  | .plain _, .fixedRate _ _ _ => none
  | .timed s, .execute t => some (.executed <$> s.execute t)
  | .timed s, .schedule t delay => some (.scheduled <$> s.schedule t delay)
  | .timed s, .fixedRate r initial period => some (.scheduled <$> s.fixedRate r initial period)

def proxied (p : ExecutorProxy) : Target κ ν ε → Target κ ν ε
  | .plain e => .plain (p.executor e)
  | .timed s => .timed (p.scheduler s)

/-- A row of calls on a target. Between them, anything may happen. -/
inductive Exchanges (target : Target κ ν ε) : World ν ε → List (Exchange κ ν ε) → World ν ε → Prop where
  | nil (w : World ν ε) : Exchanges target w [] w
  | aside {w u v : World ν ε} {l : List (Exchange κ ν ε)} (h : Exchanges target u l v) : Exchanges target w l v
  | call {w u v : World ν ε} {r : Request κ} {x : Activity ν ε Reply} {e : Exit Reply} {l : List (Exchange κ ν ε)}
    (hcall : target.call? r = some x) (hx : x w = (e, u)) (h : Exchanges target u l v) :
    Exchanges target w (⟨r, w, e, u⟩ :: l) v

end Target

namespace ExecutorProxy

/-- What a proxy hands on where `a` is active: what it was given, in a frame if the proxy is wrapped. -/
def Passes (p : ExecutorProxy) (a : Option SpanRef) (r r' : Request κ) : Prop :=
  if p.isWrapped then r.Carries ⟨a⟩ r' else r' = r

/-- A call on a proxy, and the one that it makes on its target. Where the capability hides the timer of the
target, the journal first tells that it is gone around. -/
structure Relays (p : ExecutorProxy) (e e' : Exchange κ ν ε) : Prop where
  request : p.Passes e.before.active e.request e'.request
  before : if p.kind = .interface .plain ∧ e.request.isTimed then p.tellPlain e.before = (.done (), e'.before)
    else e'.before = e.before
  reply : e'.reply = e.reply
  after : e'.after = e.after

/-- Whatever is asked of a proxy, its target is asked in its place, and answers. -/
structure Refines (p : ExecutorProxy) (target : Target κ ν ε) : Prop where
  supports (r : Request κ) : ((target.proxied p).call? r).isSome = (target.call? r).isSome
  relays {w v : World ν ε} {l : List (Exchange κ ν ε)} (h : (target.proxied p).Exchanges w l v) :
    ∃ l', target.Exchanges w l' v ∧ List.Forall₂ p.Relays l l'

def strategyOf : ProxyKind → Option ProxyStrategy
  | .subclass => some .subclass
  | .interface _ => some .interface
  | .unwrapped => none

structure Fits (p : ExecutorProxy) (t : TargetFacts) : Prop where
  descriptor : p.descriptor = { ProxyDescriptor.inspect t with strategy := strategyOf p.kind }
  capability (c : Capability) : p.kind = .interface c → t.capability = some c

end ExecutorProxy

namespace Target

variable {p : ExecutorProxy} {target : Target κ ν ε} {r : Request κ} {x : Activity ν ε Reply}

def bound : Target κ ν ε → Target κ ν ε
  | .plain e => .plain e.bound
  | .timed s => .timed s.bound

theorem call_bound (h : target.bound.call? r = some x) (w : World ν ε) :
    ∃ y, target.call? (r.bound ⟨w.active⟩) = some y ∧ x w = y w := by
  cases target <;> cases r <;> cases h <;> exact ⟨_, rfl, rfl⟩

theorem proxied_of_unwrapped (hp : p.kind = .unwrapped) (target : Target κ ν ε) : target.proxied p = target := by
  cases target <;> simp only [proxied, ExecutorProxy.executor, ExecutorProxy.scheduler, hp]

theorem proxied_of_subclass (hp : p.kind = .subclass) (target : Target κ ν ε) : target.proxied p = target.bound := by
  cases target <;> simp only [proxied, ExecutorProxy.executor, ExecutorProxy.scheduler, hp, bound]

theorem proxied_of_scheduled (hp : p.kind = .interface .scheduled) (target : Target κ ν ε) :
    target.proxied p = target.bound := by
  cases target <;> simp only [proxied, ExecutorProxy.executor, ExecutorProxy.scheduler, hp, bound, Capability.bound]

theorem call_proxied_of_plain (hp : p.kind = .interface .plain) (target : Target κ ν ε) (r : Request κ) :
    (target.proxied p).call? r = (target.bound.call? r).map fun x => if r.isTimed then p.tellPlain >>= fun _ => x else x := by
  cases target <;> cases r <;>
    simp [proxied, call?, ExecutorProxy.executor, ExecutorProxy.scheduler, hp, bound, Request.isTimed, Capability.bound,
      Executor.withoutTimer, Scheduler.bound]

theorem isSome_call_bound (target : Target κ ν ε) (r : Request κ) :
    (target.bound.call? r).isSome = (target.call? r).isSome := by
  cases target <;> cases r <;> rfl

end Target

namespace ExecutorProxy

variable {target : Target κ ν ε}

theorem passes_bound {p : ExecutorProxy} (hp : p.isWrapped) (a : Option SpanRef) (r : Request κ) :
    p.Passes a r (r.bound ⟨a⟩) := by
  rw [Passes, if_pos hp]
  exact r.carries_bound ⟨a⟩

theorem supports_proxied (p : ExecutorProxy) (target : Target κ ν ε) (r : Request κ) :
    ((target.proxied p).call? r).isSome = (target.call? r).isSome := by
  cases hk : p.kind with
  | subclass => rw [Target.proxied_of_subclass hk, Target.isSome_call_bound]
  | unwrapped => rw [Target.proxied_of_unwrapped hk]
  | interface c =>
    cases c with
    | scheduled => rw [Target.proxied_of_scheduled hk, Target.isSome_call_bound]
    | plain => rw [Target.call_proxied_of_plain hk, Option.isSome_map, Target.isSome_call_bound]

section Call

variable {p : ExecutorProxy} {r : Request κ} {x : Activity ν ε Reply} {e : Exit Reply}

theorem relays_bound (hp : p.isWrapped) (hdirect : ¬ (p.kind = .interface .plain ∧ r.isTimed))
    (hcall : target.bound.call? r = some x) (hx : x w = (e, u)) :
    ∃ r' y w', target.call? r' = some y ∧ y w' = (e, u) ∧ p.Relays ⟨r, w, e, u⟩ (⟨r', w', e, u⟩ : Exchange κ ν ε) := by
  obtain ⟨y, hy, hxy⟩ := Target.call_bound hcall w
  refine ⟨_, y, w, hy, hxy.symm.trans hx, passes_bound hp w.active r, ?_, rfl, rfl⟩
  rw [if_neg hdirect]

/-- The timer of a target is gone to directly where the capability hides it. -/
theorem relays_hidden (hk : p.kind = .interface .plain) (ht : r.isTimed = true) (hcall : target.bound.call? r = some x)
    (hx : (p.tellPlain >>= fun _ => x) w = (e, u)) :
    ∃ r' y w', target.call? r' = some y ∧ y w' = (e, u) ∧ p.Relays ⟨r, w, e, u⟩ (⟨r', w', e, u⟩ : Exchange κ ν ε) := by
  -- Telling of the detour does not switch the active span, so it is the same span that is captured.
  obtain ⟨v, htell, hactive⟩ : ∃ v, p.tellPlain w = (.done (), v) ∧ v.active = w.active := ⟨_, rfl, rfl⟩
  obtain ⟨y, hy, hxy⟩ := Target.call_bound hcall v
  rw [Act.bind_of_done htell, hxy] at hx
  rw [hactive] at hy
  refine ⟨_, y, v, hy, hx, passes_bound (by simp [isWrapped, hk]) w.active r, ?_, rfl, rfl⟩
  rw [if_pos ⟨hk, ht⟩]
  exact htell

theorem relays_call (p : ExecutorProxy) (hcall : (target.proxied p).call? r = some x) (hx : x w = (e, u)) :
    ∃ r' y w', target.call? r' = some y ∧ y w' = (e, u) ∧ p.Relays ⟨r, w, e, u⟩ (⟨r', w', e, u⟩ : Exchange κ ν ε) := by
  cases hk : p.kind with
  | unwrapped =>
    rw [Target.proxied_of_unwrapped hk] at hcall
    refine ⟨r, x, w, hcall, hx, ?_, ?_, rfl, rfl⟩
    · simp [Passes, isWrapped, hk]
    · simp [hk]
  | subclass =>
    rw [Target.proxied_of_subclass hk] at hcall
    exact relays_bound (by simp [isWrapped, hk]) (by simp [hk]) hcall hx
  | interface c =>
    have hwrapped : p.isWrapped := by simp [isWrapped, hk]
    cases c with
    | scheduled =>
      rw [Target.proxied_of_scheduled hk] at hcall
      exact relays_bound hwrapped (by simp [hk]) hcall hx
    | plain =>
      rw [Target.call_proxied_of_plain hk, Option.map_eq_some_iff] at hcall
      obtain ⟨z, hz, rfl⟩ := hcall
      cases ht : r.isTimed with
      | false =>
        simp only [ht, Bool.false_eq_true, if_false] at hx
        exact relays_bound hwrapped (by simp [ht]) hz hx
      | true =>
        simp only [ht, if_true] at hx
        exact relays_hidden hk ht hz hx

end Call

theorem refines_proxied (p : ExecutorProxy) (target : Target κ ν ε) : p.Refines target where
  supports := supports_proxied p target
  relays h := by
    induction h with
    | nil w => exact ⟨[], .nil w, .nil⟩
    | aside _ ih =>
      obtain ⟨l', hl', hall⟩ := ih
      exact ⟨l', .aside hl', hall⟩
    | call hcall hx _ ih =>
      obtain ⟨l', hl', hall⟩ := ih
      obtain ⟨r', y, w', hy, hyw, hrelays⟩ := p.relays_call hcall hx
      exact ⟨_, .aside (.call hy hyw hl'), .cons hrelays hall⟩

end ExecutorProxy

namespace ProxyFactory

variable {f : ProxyFactory ν ε} {t : TargetFacts} {p : ExecutorProxy}

theorem fits_unwrapped (t : TargetFacts) : (unwrapped t).Fits t :=
  ⟨rfl, fun _ h => nomatch h⟩

theorem fits_build {s : ProxyStrategy} {k : ProxyKind} (h : f.build t s w = (.done (.ok k), v)) : (wrapped t s k).Fits t := by
  obtain ⟨permitted, u, -, hbuild⟩ := Act.bind_eq_done h
  cases permitted with
  | error e => exact nomatch hbuild
  | ok _ =>
    cases s with
    | subclass =>
      cases hbuild
      exact ⟨rfl, fun _ h => nomatch h⟩
    | interface =>
      cases hc : t.capability with
      | none =>
        simp only [hc] at hbuild
        exact nomatch hbuild
      | some c =>
        simp only [hc] at hbuild
        cases hbuild
        refine ⟨rfl, fun d hd => ?_⟩
        cases hd
        exact hc

theorem fits_giveUp {e : ProxyError} (h : f.giveUp t e w = (.done (.ok p), v)) : p.Fits t := by
  unfold giveUp at h
  cases hpolicy : f.config.policy with
  | require =>
    rw [hpolicy] at h
    exact nomatch h
  | degrade =>
    rw [hpolicy] at h
    obtain ⟨_, u, -, hend⟩ := Act.bind_eq_done h
    cases hend
    exact fits_unwrapped t

theorem fits_wrap (h : f.wrap t w = (.done (.ok p), v)) : p.Fits t := by
  obtain ⟨first, u, hfirst, h⟩ := Act.bind_eq_done h
  cases first with
  | ok k =>
    cases h
    exact fits_build hfirst
  | error e =>
    obtain ⟨_, u, -, h⟩ := Act.bind_eq_done h
    obtain ⟨second, u, hsecond, h⟩ := Act.bind_eq_done h
    cases second with
    | ok k =>
      obtain ⟨_, u, -, h⟩ := Act.bind_eq_done h
      cases h
      exact fits_build hsecond
    | error e' =>
      obtain ⟨_, u, -, h⟩ := Act.bind_eq_done h
      exact fits_giveUp h

theorem fits_wrapNamed {name : String} (h : f.wrapNamed name t w = (.done (.ok p), v)) : p.Fits t := by
  unfold wrapNamed at h
  split at h
  · exact fits_wrap h
  · obtain ⟨_, u, -, hend⟩ := Act.bind_eq_done h
    cases hend
    exact fits_unwrapped t

/-- Whatever a factory wraps, the proxy fits the target and does what the target does. -/
theorem proxy_refines_target (h : f.wrap t w = (.done (.ok p), v) ∨ ∃ name, f.wrapNamed name t w = (.done (.ok p), v)) :
    p.Fits t ∧ ∀ target : Target κ ν ε, p.Refines target := by
  refine ⟨?_, fun target => p.refines_proxied target⟩
  rcases h with h | ⟨name, h⟩
  · exact fits_wrap h
  · exact fits_wrapNamed h

/-- A sealed pool that shows a plain capability, with one task for now and one for later. -/
theorem proxy_refines_target_sealed :
    let f : ProxyFactory Unit Unit := ⟨.standard, .default⟩
    let t : TargetFacts := ⟨0, "Pool", true, false, some .plain⟩
    let p : ExecutorProxy := ⟨⟨0, "Pool", true, false, some .interface⟩, .interface .plain⟩
    let w : World Unit Unit := { World.initial .constant () with active := some ⟨0⟩ }
    let later : Activity Unit Unit (Except ExecutorError ScheduledHandle) := do return .ok (← ScheduledHandle.new)
    let pool : Target Unit Unit Unit := .timed ⟨⟨fun _ => pure (.ok ())⟩, fun _ _ => later, fun _ _ _ => later⟩
    f.wrapNamed "pool" t w = (.done (.ok p), w) ∧
      (∃ l v, (pool.proxied p).Exchanges w l v ∧
        l.map (·.request) = [.execute ⟨.code (), none⟩, .schedule ⟨.code (), none⟩ 5] ∧
        l.map (·.reply) = [.done (.executed (.ok ())), .done (.scheduled (.ok ⟨⟨0⟩⟩))]) ∧
      p.Fits t ∧ ∀ target : Target Unit Unit Unit, p.Refines target := by
  intro f t p w later pool
  have hwrap : f.wrapNamed "pool" t w = (.done (.ok p), w) := rfl
  have hnow : (pool.proxied p).call? (.execute ⟨.code (), none⟩) = some (pure (.executed (.ok ()))) := rfl
  have hlater : (pool.proxied p).call? (.schedule ⟨.code (), none⟩ 5) =
      some (do p.tellPlain; return .scheduled (.ok (← ScheduledHandle.new))) := rfl
  refine ⟨hwrap, ⟨_, _, .call hnow rfl (.call hlater rfl (.nil _)), rfl, rfl⟩, ?_⟩
  exact proxy_refines_target (.inr ⟨"pool", hwrap⟩)

end ProxyFactory

end SpanFlow
