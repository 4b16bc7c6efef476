import SpanFlow.Executor
import SpanFlow.Proofs.Scope.Bracket

namespace SpanFlow

variable {κ ν ε α β γ δ : Type} {w u v : World ν ε}

namespace Invokes

variable {x : (α → Activity ν ε β) → Activity ν ε γ} {y : (α → Activity ν ε β) → Activity ν ε δ} {a : α}

theorem self (a : α) (v : World ν ε) : Invokes (fun op : α → Activity ν ε β => op a) v a v :=
  ⟨id, fun _ => rfl, fun _ => rfl⟩

/-- How an operation is come to depends neither on what was done before nor on what is made of it. -/
theorem around (h : Invokes x u a v) {l : Exit γ × World ν ε → Exit δ × World ν ε} (hl : ∀ z, l (.abort, z) = (.abort, z))
    (hy : ∀ op, y op w = l (x op u)) : Invokes y w a v := by
  obtain ⟨k, hk, hx⟩ := h
  exact ⟨fun z => l (k z), fun z => (congrArg l (hk z)).trans (hl z), fun op => by rw [hy, hx]⟩

theorem bind (h : Invokes x w a v) (f : γ → Activity ν ε δ) : Invokes (fun op => x op >>= f) w a v :=
  h.around (l := fun z => ((fun _ => z : Activity ν ε γ) >>= f) w) (fun _ => rfl) fun _ => rfl

theorem caught (h : Invokes x w a v) : Invokes (fun op => Work.caught (x op)) w a v :=
  h.around (l := fun z => Work.caught (fun _ => z) w) (fun _ => rfl) fun _ => rfl

theorem within {c : Captured} (h : Invokes x (c.entered w) a v) : Invokes (fun op => c.within (x op)) w a v := by
  obtain ⟨k, hk, hx⟩ := c.invokes_within w
  exact h.around hk fun op => hx fun _ => x op

theorem withinAll {layers : List Captured} (h : Invokes x (Captured.enteredAll layers w) a v) :
    Invokes (fun op => Captured.withinAll layers (x op)) w a v := by
  induction layers generalizing w with
  | nil => exact h
  | cons c layers ih => exact (ih h).within

end Invokes

def told (r : Except Payload α) : Except TaskError α :=
  r.mapError fun p => .panicked p.message

theorem Recurring.code_run (m : Meaning κ ν ε) (r : Recurring κ) :
    Recurring.code <$> r.run m = Captured.withinAll r.layers (m.turn r.code) := by
  simp [run]

theorem Recurring.invokes_run (m : Meaning κ ν ε) (r : Recurring κ) (w : World ν ε) :
    Invokes (fun f => r.run { m with turn := f }) w r.code (Captured.enteredAll r.layers w) :=
  ((Invokes.self r.code _).withinAll).bind _

def Meaning.answering (m : Meaning κ ν ε) (f : κ × Except TaskError ν → Activity ν ε Unit) : Meaning κ ν ε :=
  { m with succeed := fun c v => f (c, .ok v), fail := fun c e => f (c, .error e) }

namespace Callback

def tell (m : Meaning κ ν ε) (cb : Callback κ) : Except TaskError ν → Activity ν ε Unit
  | .ok v => cb.succeed m v
  | .error e => cb.fail m e

def side (cb : Callback κ) : Except TaskError ν → κ
  | .ok _ => cb.success
  | .error _ => cb.failure

theorem invokes_tell (m : Meaning κ ν ε) (cb : Callback κ) (given : Except TaskError ν) (w : World ν ε) :
    Invokes (fun f => cb.tell (m.answering f) given) w (cb.side given, given) (Captured.enteredAll cb.layers w) := by
  cases given with
  | ok x => exact (Invokes.self (cb.success, Except.ok x) _).withinAll
  | error e => exact (Invokes.self (cb.failure, Except.error e) _).withinAll

end Callback

namespace Work

def boundAll : List Captured → Work κ → Work κ
  | [], body => body
  | c :: r, body => .bound c (boundAll r body)

theorem run_boundAll (m : Meaning κ ν ε) (cs : List Captured) (body : Work κ) :
    (boundAll cs body).run m = Captured.withinAll cs (body.run m) := by
  induction cs with
  | nil => rfl
  | cons c cs ih => rw [boundAll, run, ih, Captured.withinAll]

theorem discard_boundAll (cs : List Captured) (body : Work κ) :
    ((boundAll cs body).discard : Activity ν ε Unit) = body.discard := by
  induction cs with
  | nil => rfl
  | cons c cs ih => rw [boundAll, discard, ih]

theorem boundAll_snoc (cs : List Captured) (c : Captured) (body : Work κ) :
    boundAll (cs ++ [c]) body = boundAll cs (.bound c body) := by
  induction cs with
  | nil => rfl
  | cons d cs ih => rw [List.cons_append, boundAll, ih, boundAll]

def layers : Work κ → List Captured
  | .bound c body => c :: body.layers
  | _ => []

/-- The only code that is run for a value or for its effect. -/
def code? : Work κ → Option κ
  | .code c => some c
  | .answer _ c => some c
  | .notify _ c _ => some c
  | .bound _ body => body.code?
  | .idle | .after _ _ => none

def callback? : Work κ → Option (Callback κ)
  | .notify _ _ cb => some cb
  | .bound _ body => body.callback?
  | _ => none

theorem caught_of_attempt {x : Activity ν ε α} {r : Except Payload α} (h : Act.attempt x w = (.done r, u)) :
    caught x w = (.done (told r), u) := by
  rw [caught, Act.bind_of_done h]
  cases r <;> rfl

variable {body : Work κ} {c : κ} {cb : Callback κ}

theorem inform_eq (m : Meaning κ ν ε) (cb : Callback κ) (c : κ) : inform m cb c = caught (m.call c) >>= cb.tell m :=
  bind_congr fun r => by cases r <;> rfl

theorem inform_of_attempt {m : Meaning κ ν ε} {r : Except Payload ν} (h : Act.attempt (m.call c) w = (.done r, u)) :
    inform m cb c w = cb.tell m (told r) u := by
  rw [inform_eq, Act.bind_of_done (caught_of_attempt h)]

theorem invokes_run (m : Meaning κ ν ε) (hc : body.code? = some c) (w : World ν ε) :
    Invokes (fun f => body.run { m with call := f }) w c (Captured.enteredAll body.layers w) := by
  induction body generalizing w with
  | code d =>
    cases hc
    exact (Invokes.self c w).bind _
  | answer channel d =>
    cases hc
    exact (Invokes.self c w).caught.bind _
  | notify channel d cb =>
    cases hc
    have hinform : Invokes (fun f => inform { m with call := f } cb c) w c w := by
      simp only [inform_eq]
      exact (Invokes.self c w).caught.bind (cb.tell m)
    exact hinform.caught.bind fun outcome => Activity.send channel (outcome.map fun _ => none)
  | bound captured body ih => exact (ih hc _).within
  | idle => cases hc
  | after d body => cases hc

/-- A body comes to its callback where its code ended, with what became of the code. -/
theorem invokes_callback {m : Meaning κ ν ε} {r : Except Payload ν} (hc : body.code? = some c) (hcb : body.callback? = some cb)
    (hr : Act.attempt (m.call c) (Captured.enteredAll body.layers w) = (.done r, u)) :
    Invokes (fun f => body.run (m.answering f)) w (cb.side (told r), told r) (Captured.enteredAll cb.layers u) := by
  induction body generalizing w with
  | notify channel d cb' =>
    cases hc
    cases hcb
    let rest (z : Exit Unit × World ν ε) : Exit Unit × World ν ε :=
      (caught (fun _ => z : Activity ν ε Unit) >>= fun outcome => Activity.send channel (outcome.map fun _ => none)) w
    refine (cb.invokes_tell m (told r) u).around (l := rest) (fun _ => rfl) fun f => ?_
    exact congrArg rest (inform_of_attempt (m := m.answering f) hr)
  | bound captured body ih => exact (ih hc hcb hr).within
  | idle => cases hcb
  | code d => cases hcb
  | answer channel d => cases hcb
  | after d body => cases hcb

end Work

/-- In `v` starts what is run under these layers in `w`: with the span of the innermost layer that captured
one, and in `w` itself if none did. -/
structure Captured.Enters (layers : List Captured) (w v : World ν ε) : Prop where
  state : v = enteredAll layers w
  active : v.active = (innermost layers).or w.active
  bare : (∀ c ∈ layers, c.span = none) → v = w
  spans : w.SameSpans v

theorem Captured.enters (layers : List Captured) (w : World ν ε) : Enters layers w (enteredAll layers w) :=
  ⟨rfl, active_enteredAll layers w, enteredAll_of_none layers w, sameSpans_enteredAll layers w⟩

namespace Task

/-- Where a task that is run at once in `w` comes to its code, and from there to its callback. -/
structure Begins (m : Meaning κ ν ε) (t : Task κ) (w : World ν ε) : Prop where
  code : ∀ c, t.work.code? = some c → ∃ v, Captured.Enters t.work.layers w v ∧
    Invokes (fun f => (Executor.direct { m with call := f }).execute t) w c v
  callback : ∀ c cb v r u, t.work.code? = some c → t.work.callback? = some cb → Captured.Enters t.work.layers w v →
    Act.attempt (m.call c) v = (.done r, u) → ∃ z, Captured.Enters cb.layers u z ∧
      Invokes (fun f => (Executor.direct (m.answering f)).execute t) w (cb.side (told r), told r) z

variable {t : Task κ}

theorem run_of_pass (m : Meaning κ ν ε) (ht : t.isCancelled w = (.done false, w)) :
    t.run m w = (t.work.run m >>= fun _ => pure true) w := by
  rw [run, Act.bind_of_done ht]
  rfl

theorem invokes_execute {f : (α → Activity ν ε β) → Meaning κ ν ε} {a : α} (ht : t.isCancelled w = (.done false, w))
    (h : Invokes (fun op => t.work.run (f op)) w a v) : Invokes (fun op => (Executor.direct (f op)).execute t) w a v := by
  have hrun : Invokes (fun op => t.run (f op)) w a v :=
    (h.bind fun _ => pure true).around (l := id) (fun _ => rfl) fun op => run_of_pass (f op) ht
  exact hrun.bind fun _ => (pure (.ok ()) : Activity ν ε (Except ExecutorError Unit))

theorem begins (m : Meaning κ ν ε) (ht : t.isCancelled w = (.done false, w)) : t.Begins m w where
  code c hc := ⟨_, Captured.enters _ w, invokes_execute ht (t.work.invokes_run m hc w)⟩
  callback c cb v r u hc hcb hv hr := by
    rw [hv.state] at hr
    exact ⟨_, Captured.enters _ u, invokes_execute ht (Work.invokes_callback hc hcb hr)⟩

end Task

end SpanFlow
