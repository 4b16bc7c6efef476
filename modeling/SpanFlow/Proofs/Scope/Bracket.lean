import SpanFlow.Task
import SpanFlow.Proofs.World.Frame

/-!
Scopes as brackets around an activity: the state in which it starts, and the state that the scope
leaves. Main statements: an activity that ends with the span of its scope active is put into exact
brackets, whether it returns or panics; a captured span does the same, its absence nothing at all, and
layers of captured spans do so one inside the other.
-/

namespace SpanFlow

variable {ν ε α β : Type} {w : World ν ε}

/-- `Invokes x w a v`: made in `w`, the call `x` comes to its operation, on `a` and in `v`, once. What it
comes to is all that it depends on, and what is brought down there is brought down. -/
def Invokes {α β γ : Type} (x : (α → Activity ν ε β) → Activity ν ε γ) (w : World ν ε) (a : α) (v : World ν ε) : Prop :=
  ∃ k : Exit β × World ν ε → Exit γ × World ν ε, (∀ z, k (.abort, z) = (.abort, z)) ∧ ∀ op, x op w = k (op a v)

/-- There is one way only in which a call comes to its operation. -/
theorem Invokes.unique {α β γ : Type} {x : (α → Activity ν ε β) → Activity ν ε γ} {u v : World ν ε} {a b : α}
    (h : Invokes x w a v) (g : Invokes x w b u) : a = b ∧ v = u := by
  obtain ⟨k, hk, hx⟩ := h
  obtain ⟨l, hl, hy⟩ := g
  have hstate : v = u := by
    have h := (hx fun _ => Act.abort).symm.trans (hy fun _ => Act.abort)
    exact congrArg Prod.snd ((hk v).symm.trans (h.trans (hl u)))
  refine ⟨Classical.byContradiction fun hne => ?_, hstate⟩
  classical
  -- An operation that leaves different states behind on `a` and on anything else.
  let op (c : α) : Activity ν ε β := fun z => (.abort, if c = a then z else z.note (.event ⟨.warn, "", []⟩))
  have ha : op a v = (.abort, v) := by simp [op]
  have hb : op b u = (.abort, u.note (.event ⟨.warn, "", []⟩)) := by simp [op, Ne.symm hne]
  have h := (hx op).symm.trans (hy op)
  rw [ha, hb, hk, hl, ← hstate] at h
  have hsize := congrArg (fun r => r.2.journal.size) h
  simp [World.note] at hsize

namespace World

def entered (w : World ν ε) (s : SpanRef) : World ν ε :=
  { w.note (.activating s) with active := some s }

def left (w : World ν ε) (t : ScopeToken) : World ν ε :=
  { w.note (.restoring t.activated) with active := t.previous }

@[simp] theorem active_entered (w : World ν ε) (s : SpanRef) : (w.entered s).active = some s := rfl

@[simp] theorem reported_entered (w : World ν ε) (s : SpanRef) : (w.entered s).reported = w.reported := rfl

@[simp] theorem reported_left (w : World ν ε) (t : ScopeToken) : (w.left t).reported = w.reported := rfl

structure SameSpans (w v : World ν ε) : Prop where
  spans : v.spans = w.spans
  reported : v.reported = w.reported

theorem SameSpans.trans {u v w : World ν ε} (h : u.SameSpans v) (g : v.SameSpans w) : u.SameSpans w :=
  ⟨g.spans.trans h.spans, g.reported.trans h.reported⟩

theorem kept_entered (w : World ν ε) (s : SpanRef) : w.Kept (w.entered s) :=
  ⟨rfl, Nat.le_refl _, fun _ r hr => ⟨r, hr, .refl r⟩⟩

theorem kept_left (w : World ν ε) (t : ScopeToken) : w.Kept (w.left t) :=
  ⟨rfl, Nat.le_refl _, fun _ r hr => ⟨r, hr, .refl r⟩⟩

/-- Something that no switch of the active span changes. -/
def IgnoresSwitches (f : World ν ε → β) : Prop :=
  ∀ w n a, f { w.note n with active := a } = f w

def activations (w : World ν ε) : List SpanRef :=
  w.journal.toList.filterMap fun e =>
    match e.note with
    | .activating s => some s
    | .restoring _ => none
    | .event _ => none

theorem activations_entered (w : World ν ε) (s : SpanRef) : (w.entered s).activations = w.activations ++ [s] := by
  simp [activations, entered, note]

theorem activations_left (w : World ν ε) (t : ScopeToken) : (w.left t).activations = w.activations := by
  simp [activations, left, note]

end World

namespace Scope

theorem activate_apply (s : SpanRef) (w : World ν ε) : activate s w = (.done ⟨w.active, s⟩, w.entered s) := rfl

theorem restore_of_active {t : ScopeToken} (h : w.active = some t.activated) :
    restore t w = (.done (), w.left t) :=
  if_pos h

theorem restore_of_not_active {t : ScopeToken} (h : w.active ≠ some t.activated) :
    restore t w = (.panic (.text outOfOrder), w.note (.restoring t.activated)) :=
  if_neg h

theorem within_apply {s : SpanRef} {x : Activity ν ε α}
    (h : Act.Moves (fun u v => v.active = u.active) x (w.entered s)) :
    within s x w = ((x (w.entered s)).1, (x (w.entered s)).2.left ⟨w.active, s⟩) := by
  rw [within, Act.bind_of_done (activate_apply s w), Act.ensuring]
  rcases h.cases with ⟨a, v, hx, ha⟩ | ⟨p, v, hx, ha⟩
  · have hr : restore ⟨w.active, s⟩ v = (.done (), v.left ⟨w.active, s⟩) := restore_of_active ha
    rw [Act.bind_of_done (Act.onPanic_of_done hx), Act.bind_of_done hr, hx]
    rfl
  · have hr : restore ⟨w.active, s⟩ v = (.done (), v.left ⟨w.active, s⟩) := restore_of_active ha
    rw [Act.bind_of_panic (Act.onPanic_of_panic hx hr), hx]

theorem invokes_within (s : SpanRef) (w : World ν ε) :
    Invokes (fun x : Unit → Activity ν ε α => within s (x ())) w () (w.entered s) := by
  refine ⟨fun z => Act.ensuring (fun _ => z) (restore ⟨w.active, s⟩) w, fun z => rfl, fun x => ?_⟩
  change within s (x ()) w = _
  rw [within, Act.bind_of_done (activate_apply s w)]
  rfl

section Ignored

variable {f : World ν ε → β}

theorem restore_ignored (hf : World.IgnoresSwitches f) (t : ScopeToken) (w : World ν ε) : f (restore t w).2 = f w := by
  simp only [restore]
  split
  · exact hf w _ _
  · exact hf w _ w.active

theorem within_ignored (hf : World.IgnoresSwitches f) (s : SpanRef) (x : Activity ν ε α) (w : World ν ε) :
    f (within s x w).2 = f (x (w.entered s)).2 := by
  rw [within, Act.bind_of_done (activate_apply s w)]
  rcases Act.ensuring_state x (restore ⟨w.active, s⟩) (w.entered s) with h | h
  · rw [h]
  · rw [h, restore_ignored hf]

end Ignored

theorem activations_restore (t : ScopeToken) (w : World ν ε) : (restore t w).2.activations = w.activations := by
  simp only [restore]
  split
  · exact w.activations_left t
  · exact w.activations_left t

theorem activations_within (s : SpanRef) (x : Activity ν ε α) (w : World ν ε) :
    (within s x w).2.activations = (x (w.entered s)).2.activations := by
  rw [within, Act.bind_of_done (activate_apply s w)]
  rcases Act.ensuring_state x (restore ⟨w.active, s⟩) (w.entered s) with h | h
  · rw [h]
  · rw [h, activations_restore]

end Scope

namespace Captured

def inside (c : Captured) (a : Option SpanRef) : Option SpanRef :=
  c.span.or a

def entered (c : Captured) (w : World ν ε) : World ν ε :=
  match c.span with
  | some s => w.entered s
  | none => w

def left (c : Captured) (a : Option SpanRef) (w : World ν ε) : World ν ε :=
  match c.span with
  | some s => w.left ⟨a, s⟩
  | none => w

/-- The state in which the activity starts inside of several layers, the first one outermost. -/
def enteredAll : List Captured → World ν ε → World ν ε
  | [], w => w
  | c :: r, w => enteredAll r (c.entered w)

def leftAll : List Captured → Option SpanRef → World ν ε → World ν ε
  | [], _, w => w
  | c :: r, a, w => c.left a (leftAll r (c.inside a) w)

/-- The span that was captured by the innermost layer that captured one. -/
def innermost : List Captured → Option SpanRef
  | [] => none
  | c :: r => (innermost r).or c.span

theorem active_entered (c : Captured) (w : World ν ε) : (c.entered w).active = c.inside w.active := by
  unfold entered inside
  cases c.span <;> rfl

/-- A captured span puts the activity in brackets; without one nothing is done. -/
theorem within_apply {c : Captured} {x : Activity ν ε α}
    (h : Act.Moves (fun u v => v.active = u.active) x (c.entered w)) :
    c.within x w = ((x (c.entered w)).1, c.left w.active (x (c.entered w)).2) := by
  unfold within entered left at *
  cases hc : c.span with
  | none => rfl
  | some s =>
    rw [hc] at h
    exact Scope.within_apply h

theorem invokes_within (c : Captured) (w : World ν ε) :
    Invokes (fun x : Unit → Activity ν ε α => c.within (x ())) w () (c.entered w) := by
  cases hc : c.span with
  | none =>
    refine ⟨id, fun z => rfl, fun x => ?_⟩
    simp only [within, entered, hc, id]
  | some s =>
    simp only [within, entered, hc]
    exact Scope.invokes_within s w

theorem activations_entered (c : Captured) (w : World ν ε) :
    (c.entered w).activations = w.activations ++ c.span.toList := by
  unfold entered
  cases c.span with
  | none => simp
  | some s => exact w.activations_entered s

theorem activations_within (c : Captured) (x : Activity ν ε α) (w : World ν ε) :
    (c.within x w).2.activations = (x (c.entered w)).2.activations := by
  unfold within entered
  cases c.span with
  | none => rfl
  | some s => exact Scope.activations_within s x w

theorem active_enteredAll (layers : List Captured) (w : World ν ε) :
    (enteredAll layers w).active = (innermost layers).or w.active := by
  induction layers generalizing w with
  | nil => rfl
  | cons c layers ih => rw [enteredAll, ih, active_entered, inside, innermost, Option.or_assoc]

theorem active_left (c : Captured) {a : Option SpanRef} {v : World ν ε} (h : v.active = c.inside a) :
    (c.left a v).active = a := by
  unfold left inside at *
  cases hc : c.span with
  | none =>
    rw [hc] at h
    exact h
  | some s => rfl

theorem moves_withinAll_active {layers : List Captured} {x : Activity ν ε α}
    (h : Act.Moves (fun u v => v.active = u.active) x (enteredAll layers w)) :
    Act.Moves (fun u v => v.active = u.active) (withinAll layers x) w := by
  induction layers generalizing w with
  | nil => exact h
  | cons c layers ih =>
    have hinner := ih h
    rw [Act.Moves, withinAll, within_apply hinner]
    exact ⟨hinner.1, c.active_left (hinner.2.trans (c.active_entered w))⟩

theorem abort_withinAll {layers : List Captured} {x : Activity ν ε α} (h : (x (enteredAll layers w)).1 = .abort) :
    (withinAll layers x w).1 = .abort := by
  induction layers generalizing w with
  | nil => exact h
  | cons c layers ih =>
    have hinner := ih h
    rw [withinAll, within]
    unfold entered at hinner
    cases hc : c.span with
    | none =>
      rw [hc] at hinner
      exact hinner
    | some s =>
      rw [hc] at hinner
      rcases hx : withinAll layers x (w.entered s) with ⟨e, v⟩
      simp only [hx] at hinner
      subst hinner
      simp only [Scope.within, Act.bind_apply, Scope.activate_apply, Act.ensuring, Act.onPanic, hx]

section Ignored

variable {f : World ν ε → β}

theorem entered_ignored (hf : World.IgnoresSwitches f) (c : Captured) (w : World ν ε) : f (c.entered w) = f w := by
  unfold entered
  cases c.span with
  | none => rfl
  | some s => exact hf w _ _

theorem enteredAll_ignored (hf : World.IgnoresSwitches f) (layers : List Captured) (w : World ν ε) :
    f (enteredAll layers w) = f w := by
  induction layers generalizing w with
  | nil => rfl
  | cons c layers ih => rw [enteredAll, ih, c.entered_ignored hf]

theorem within_ignored (hf : World.IgnoresSwitches f) (c : Captured) (x : Activity ν ε α) (w : World ν ε) :
    f (c.within x w).2 = f (x (c.entered w)).2 := by
  unfold within entered
  cases c.span with
  | none => rfl
  | some s => exact Scope.within_ignored hf s x w

theorem withinAll_ignored (hf : World.IgnoresSwitches f) (layers : List Captured) (x : Activity ν ε α) (w : World ν ε) :
    f (withinAll layers x w).2 = f (x (enteredAll layers w)).2 := by
  induction layers generalizing w with
  | nil => rfl
  | cons c layers ih => rw [withinAll, c.within_ignored hf, ih, enteredAll]

end Ignored

theorem sameSpans_entered (c : Captured) (w : World ν ε) : w.SameSpans (c.entered w) := by
  unfold entered
  cases c.span with
  | none => exact ⟨rfl, rfl⟩
  | some s => exact ⟨rfl, rfl⟩

theorem sameSpans_left (c : Captured) (a : Option SpanRef) (w : World ν ε) : w.SameSpans (c.left a w) := by
  unfold left
  cases c.span with
  | none => exact ⟨rfl, rfl⟩
  | some s => exact ⟨rfl, rfl⟩

theorem sameSpans_enteredAll (layers : List Captured) (w : World ν ε) : w.SameSpans (enteredAll layers w) := by
  induction layers generalizing w with
  | nil => exact ⟨rfl, rfl⟩
  | cons c layers ih => exact (c.sameSpans_entered w).trans (ih _)

theorem sameSpans_leftAll (layers : List Captured) (a : Option SpanRef) (w : World ν ε) :
    w.SameSpans (leftAll layers a w) := by
  induction layers generalizing a with
  | nil => exact ⟨rfl, rfl⟩
  | cons c layers ih => exact (ih _).trans (c.sameSpans_left a _)

theorem enteredAll_of_none (layers : List Captured) (w : World ν ε) (h : ∀ c ∈ layers, c.span = none) :
    enteredAll layers w = w := by
  induction layers with
  | nil => rfl
  | cons c layers ih =>
    have hc : c.entered w = w := by rw [entered, h c (by simp)]
    rw [enteredAll, hc, ih fun d hd => h d (by simp [hd])]

theorem withinAll_of_none (layers : List Captured) (h : ∀ c ∈ layers, c.span = none) (x : Activity ν ε α) :
    withinAll layers x = x := by
  induction layers with
  | nil => rfl
  | cons c layers ih => rw [withinAll, ih fun d hd => h d (by simp [hd]), within, h c (by simp)]

end Captured

end SpanFlow
