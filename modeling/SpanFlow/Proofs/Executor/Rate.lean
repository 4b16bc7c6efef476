import SpanFlow.Proofs.Executor.Submission

/-!
Schedules at a fixed rate, from their start on. The loop of a schedule waits for a tick, then looks at the flag of
its handle, and then makes a run with the work that it holds; the work comes back from a run that returns, and a
run that panics ends the schedule. A cancellation may come between any two of these steps. Main statement: each
run has a tick of its own and works on what the run before left behind, none follows a cancellation or a panic,
and work that is bound to a span runs under that span, on a worker whose active span stays as it was.
-/

namespace SpanFlow

variable {κ ν ε α : Type} {w u v : World ν ε}

section Flags

structure World.FlagsKept (w v : World ν ε) : Prop where
  size : w.flags.size ≤ v.flags.size
  set : ∀ f, w.flag f = true → v.flag f = true

theorem World.FlagsKept.of_eq (h : v.flags = w.flags) : w.FlagsKept v :=
  ⟨Nat.le_of_eq (by rw [h]), fun f hf => by rwa [World.flag, h]⟩

theorem World.FlagsKept.trans (h : u.FlagsKept v) (g : v.FlagsKept w) : u.FlagsKept w :=
  ⟨Nat.le_trans h.size g.size, fun f hf => g.set f (h.set f hf)⟩

def Meaning.KeepsFlags (m : Meaning κ ν ε) : Prop :=
  ∀ c (w : World ν ε), w.FlagsKept (m.turn c w).2

namespace ScheduledHandle

variable {h : ScheduledHandle}

theorem isCancelled_apply (h : ScheduledHandle) (w : World ν ε) : h.isCancelled w = (.done (w.flag h.flag), w) := rfl

theorem flag_cancel (hbound : h.flag.index < w.flags.size) : (h.cancel w).2.flag h.flag = true := by
  simp [cancel, Activity.setFlag, Act.modify, World.flag, hbound]

theorem flagsKept_cancel (h : ScheduledHandle) (w : World ν ε) : w.FlagsKept (h.cancel w).2 := by
  refine ⟨by simp [cancel, Activity.setFlag, Act.modify], fun f hf => ?_⟩
  by_cases heq : h.flag = f
  · subst heq
    refine flag_cancel (Nat.lt_of_not_le fun hout => ?_)
    simp [World.flag, Array.getElem?_eq_none hout] at hf
  · have hne : h.flag.index ≠ f.index := fun hindex => heq (by cases f; cases hindex; rfl)
    simpa [cancel, Activity.setFlag, Act.modify, World.flag, Array.getElem?_setIfInBounds_ne hne] using hf

end ScheduledHandle

end Flags

namespace Pool

section Turns

def onWorker (a : Option SpanRef) (w : World ν ε) : World ν ε :=
  { w with thread := .worker, active := a }

/-- The state that a worker has left, seen from where `w` was. -/
def backTo (w u : World ν ε) : World ν ε :=
  { u with thread := w.thread, active := w.active }

/-- A run of recurring work on a worker: the work, what came of it, and the span that was active on the worker
before, where the code began, where the code ended, and after. -/
structure Turn (κ : Type) where
  job : Recurring κ
  outcome : Except Payload (Recurring κ)
  before : Option SpanRef
  found : Option SpanRef
  left : Option SpanRef
  after : Option SpanRef

structure Turn.Made (m : Meaning κ ν ε) (t : Turn κ) (w v : World ν ε) : Prop where
  run : ∃ u, Act.attempt (t.job.run m) (onWorker t.before w) = (.done t.outcome, u) ∧ t.after = u.active ∧ v = backTo w u
  code : ∃ u, Invokes (fun f => t.job.run { m with turn := f }) (onWorker t.before w) t.job.code u ∧
    t.found = u.active ∧ t.left = (m.turn t.job.code u).2.active

variable {m : Meaning κ ν ε} {r : Recurring κ} {x : Except Payload (Recurring κ)} {t : Turn κ}

theorem attempt_run (h : Act.attempt (r.run m) w = (.done x, u)) :
    (Captured.withinAll r.layers (m.turn r.code) w).1 ≠ .abort ∧ u = (Captured.withinAll r.layers (m.turn r.code) w).2 ∧
      ∀ next, x = .ok next → next.layers = r.layers := by
  rw [Act.attempt, Recurring.run, Act.bind_apply] at h
  rcases hx : Captured.withinAll r.layers (m.turn r.code) w with ⟨e, z⟩
  rw [hx] at h
  cases e with
  | done c =>
    obtain ⟨hx, rfl⟩ := Prod.mk.inj h
    obtain rfl := Exit.done.inj hx
    refine ⟨by simp, rfl, fun next hnext => ?_⟩
    cases hnext
    rfl
  | panic p =>
    obtain ⟨hx, rfl⟩ := Prod.mk.inj h
    obtain rfl := Exit.done.inj hx
    exact ⟨by simp, rfl, by simp⟩
  | abort => cases h

namespace Turn

theorem Made.of_attempt (hrun : Act.attempt (t.job.run m) (onWorker t.before w) = (.done t.outcome, u))
    (hfound : t.found = (Captured.enteredAll t.job.layers (onWorker t.before w)).active)
    (hleft : t.left = (m.turn t.job.code (Captured.enteredAll t.job.layers (onWorker t.before w))).2.active)
    (hafter : t.after = u.active) : t.Made m w (backTo w u) :=
  ⟨⟨u, hrun, hafter, rfl⟩, _, t.job.invokes_run m _, hfound, hleft⟩

theorem Made.begins (h : t.Made m w v) :
    t.found = (Captured.enteredAll t.job.layers (onWorker t.before w)).active ∧
      t.left = (m.turn t.job.code (Captured.enteredAll t.job.layers (onWorker t.before w))).2.active := by
  obtain ⟨u, hcode, hfound, hleft⟩ := h.code
  obtain ⟨-, rfl⟩ := hcode.unique (Recurring.invokes_run m t.job _)
  exact ⟨hfound, hleft⟩

theorem Made.found_eq (h : t.Made m w v) : t.found = (Captured.innermost t.job.layers).or t.before := by
  rw [h.begins.1, Captured.active_enteredAll]
  rfl

theorem Made.after_eq (h : t.Made m w v) (hleft : t.left = t.found) : t.after = t.before := by
  obtain ⟨u, hrun, hafter, -⟩ := h.run
  obtain ⟨hend, rfl, -⟩ := attempt_run hrun
  have hcode : Act.Moves (fun u v => v.active = u.active) (m.turn t.job.code)
      (Captured.enteredAll t.job.layers (onWorker t.before w)) :=
    ⟨fun habort => hend (Captured.abort_withinAll habort), h.begins.2.symm.trans (hleft.trans h.begins.1)⟩
  rw [hafter]
  exact (Captured.moves_withinAll_active hcode).2

theorem Made.layers_eq (h : t.Made m w v) {next : Recurring κ} (hnext : t.outcome = .ok next) :
    next.layers = t.job.layers := by
  obtain ⟨u, hrun, -⟩ := h.run
  exact (attempt_run hrun).2.2 next hnext

theorem Made.flagsKept (h : t.Made m w v) (hm : m.KeepsFlags) : w.FlagsKept v := by
  obtain ⟨u, hrun, -, rfl⟩ := h.run
  obtain ⟨-, rfl, -⟩ := attempt_run hrun
  let inside := Captured.enteredAll t.job.layers (onWorker t.before w)
  have hentered : w.FlagsKept inside := .of_eq (Captured.sameHandles_enteredAll t.job.layers (onWorker t.before w)).flags
  have hcode : inside.FlagsKept (m.turn t.job.code inside).2 := hm t.job.code inside
  have hleft := (Captured.sameHandles_withinAll t.job.layers (m.turn t.job.code) (onWorker t.before w)).flags
  exact (hentered.trans hcode).trans (.of_eq hleft)

end Turn

end Turns

namespace Schedule

inductive Happening (κ : Type) where
  | cancel
  | tick
  | run (t : Turn κ)

/-- Where the loop of a schedule is: before the next tick, between a tick and its run, or left. -/
inductive Stage (κ : Type) where
  | waiting (job : Recurring κ)
  | due (job : Recurring κ)
  | ended

def stage (s : Schedule κ) : Stage κ :=
  match s.job with
  | some job => .waiting job
  | none => .ended

/-- The course of a schedule. Others go on meanwhile, on other threads and in the code that is run; they may do
anything but unset a flag. A cancellation also stops the loop where it waits. If that comes while a run is made,
the run goes to its end, but its work does not come back. -/
inductive Course (m : Meaning κ ν ε) (h : ScheduledHandle) :
    Stage κ → World ν ε → List (Happening κ) → Stage κ → World ν ε → Prop where
  | aside {s : Stage κ} {w v : World ν ε} (hkept : w.FlagsKept v) : Course m h s w [] s v
  | cancel {s : Stage κ} {w v : World ν ε} (hcancel : h.cancel w = (.done (), v)) : Course m h s w [.cancel] s v
  | tick {job : Recurring κ} {w v : World ν ε} (hcheck : h.isCancelled w = (.done false, v)) :
    Course m h (.waiting job) w [.tick] (.due job) v
  | stop {job : Recurring κ} {w v : World ν ε} (hcheck : h.isCancelled w = (.done true, v)) :
    Course m h (.waiting job) w [.tick] .ended v
  | abort {job : Recurring κ} {w : World ν ε} (hset : w.flag h.flag = true) : Course m h (.waiting job) w [] .ended w
  | late {w : World ν ε} : Course m h .ended w [.tick] .ended w
  | run {t : Turn κ} {next : Recurring κ} {w v : World ν ε} (hmade : t.Made m w v) (hreturned : t.outcome = .ok next) :
    Course m h (.due t.job) w [.run t] (.waiting next) v
  | fail {t : Turn κ} {p : Payload} {w u v : World ν ε} (error : String) (hmade : t.Made m w u)
    (hpanicked : t.outcome = .error p) (htell : tellPanic error u = (.done (), v)) :
    Course m h (.due t.job) w [.run t] .ended v
  | lose {t : Turn κ} {w v : World ν ε} (hmade : t.Made m w v) (hset : v.flag h.flag = true) :
    Course m h (.due t.job) w [.run t] .ended v
  | trans {s s' s'' : Stage κ} {w u v : World ν ε} {es fs : List (Happening κ)} (hes : Course m h s w es s' u)
    (hfs : Course m h s' u fs s'' v) : Course m h s w (es ++ fs) s'' v

namespace Happening

def latest (r : Recurring κ) : List (Happening κ) → Recurring κ
  | [] => r
  | .run t :: es => latest (t.outcome.toOption.getD r) es
  | .cancel :: es => latest r es
  | .tick :: es => latest r es

def AllReturned (es : List (Happening κ)) : Prop :=
  ∀ t, .run t ∈ es → ∃ next, t.outcome = .ok next

/-- A run of this work is due: a tick has come, and but for cancellations nothing since. It has come when the
schedule was not cancelled and all runs had returned; the last one, if any, left this work. -/
def Due (r : Recurring κ) (es : List (Happening κ)) (job : Recurring κ) : Prop :=
  ∃ earlier since, es = earlier ++ .tick :: since ∧ (∀ e ∈ since, e = .cancel) ∧
    .cancel ∉ earlier ∧ AllReturned earlier ∧ job = latest r earlier

end Happening

open Happening

def Stage.Agrees (r : Recurring κ) : Stage κ → List (Happening κ) → Prop
  | .waiting job, es => AllReturned es ∧ job = latest r es ∧ job.layers = r.layers
  | .due job, es => Due r es job ∧ job.layers = r.layers
  | .ended, _ => True

structure Right (r : Recurring κ) (before : List (Happening κ)) (t : Turn κ) : Prop where
  due : Due r before t.job
  found : t.found = (Captured.innermost r.layers).or t.before
  restored : t.left = t.found → t.after = t.before

structure Tracks (r : Recurring κ) (h : ScheduledHandle) (s : Stage κ) (es : List (Happening κ)) (w : World ν ε) : Prop where
  bound : h.flag.index < w.flags.size
  flag : .cancel ∈ es → w.flag h.flag = true
  stage : s.Agrees r es
  right : ∀ before t after, es = before ++ .run t :: after → Right r before t

section Histories

variable {r job : Recurring κ} {es fs : List (Happening κ)} {e : Happening κ}

theorem latest_append (r : Recurring κ) (es fs : List (Happening κ)) : latest r (es ++ fs) = latest (latest r es) fs := by
  induction es generalizing r with
  | nil => rfl
  | cons e es ih =>
    cases e with
    | cancel => exact ih r
    | tick => exact ih r
    | run t => exact ih _

theorem AllReturned.snoc (h : AllReturned es) (he : ∀ t, e = .run t → ∃ next, t.outcome = .ok next) :
    AllReturned (es ++ [e]) := by
  intro t ht
  rcases List.mem_append.1 ht with ht | ht
  · exact h t ht
  · exact he t (List.mem_singleton.1 ht).symm

theorem Due.snoc (h : Due r es job) : Due r (es ++ [.cancel]) job := by
  obtain ⟨earlier, since, rfl, hsince, hrest⟩ := h
  refine ⟨earlier, since ++ [.cancel], by simp, fun e he => ?_, hrest⟩
  rcases List.mem_append.1 he with he | he
  · exact hsince e he
  · exact List.mem_singleton.1 he

end Histories

namespace Tracks

variable {m : Meaning κ ν ε} {r : Recurring κ} {h : ScheduledHandle} {s s' : Stage κ} {es fs : List (Happening κ)}

theorem aside (ht : Tracks r h s es w) (hkept : w.FlagsKept v) : Tracks r h s es v :=
  ⟨Nat.lt_of_lt_of_le ht.bound hkept.size, fun he => hkept.set _ (ht.flag he), ht.stage, ht.right⟩

theorem right_snoc (ht : Tracks r h s es w) {e : Happening κ} (he : ∀ t, e ≠ .run t) :
    ∀ before t after, es ++ [e] = before ++ .run t :: after → Right r before t := by
  intro before t after hsplit
  rcases split_snoc hsplit with ⟨-, rfl⟩ | ⟨rest, hrest⟩
  · exact absurd rfl (he t)
  · exact ht.right before t rest hrest

theorem cancel (ht : Tracks r h s es w) (hcancel : h.cancel w = (.done (), v)) : Tracks r h s (es ++ [.cancel]) v := by
  have hkept := h.flagsKept_cancel w
  have hset := ScheduledHandle.flag_cancel ht.bound
  rw [hcancel] at hkept hset
  refine ⟨Nat.lt_of_lt_of_le ht.bound hkept.size, fun _ => hset, ?_, ht.right_snoc nofun⟩
  have hstage := ht.stage
  cases s with
  | waiting job =>
    refine ⟨AllReturned.snoc hstage.1 nofun, ?_, hstage.2.2⟩
    rw [latest_append]
    exact hstage.2.1
  | due job => exact ⟨Due.snoc hstage.1, hstage.2⟩
  | ended => trivial

theorem tick {job : Recurring κ} (ht : Tracks r h (.waiting job) es w) (hcheck : h.isCancelled w = (.done false, v)) :
    Tracks r h (.due job) (es ++ [.tick]) v := by
  rw [h.isCancelled_apply, Prod.mk.injEq, Exit.done.injEq] at hcheck
  obtain ⟨hunset, rfl⟩ := hcheck
  have hno : .cancel ∉ es := fun he => Bool.noConfusion (hunset.symm.trans (ht.flag he))
  refine ⟨ht.bound, fun he => ?_, ?_, ht.right_snoc nofun⟩
  · exact ht.flag (by simpa using he)
  · obtain ⟨hreturned, hjob, hlayers⟩ := ht.stage
    exact ⟨⟨es, [], rfl, nofun, hno, hreturned, hjob⟩, hlayers⟩

theorem leave (ht : Tracks r h s es w) : Tracks r h .ended (es ++ [.tick]) w := by
  refine ⟨ht.bound, fun he => ?_, trivial, ht.right_snoc nofun⟩
  exact ht.flag (by simpa using he)

theorem made {t : Turn κ} (ht : Tracks r h (.due t.job) es w) (hm : m.KeepsFlags) (hmade : t.Made m w v)
    (hstage : s'.Agrees r (es ++ [.run t])) : Tracks r h s' (es ++ [.run t]) v := by
  have hkept := hmade.flagsKept hm
  refine ⟨Nat.lt_of_lt_of_le ht.bound hkept.size, fun he => hkept.set _ (ht.flag (by simpa using he)), hstage, ?_⟩
  intro before t' after hsplit
  rcases split_snoc hsplit with ⟨rfl, heq⟩ | ⟨rest, hrest⟩
  · cases heq
    refine ⟨ht.stage.1, ?_, hmade.after_eq⟩
    rw [hmade.found_eq, ht.stage.2]
  · exact ht.right before t' rest hrest

theorem run {t : Turn κ} {next : Recurring κ} (ht : Tracks r h (.due t.job) es w) (hm : m.KeepsFlags)
    (hmade : t.Made m w v) (hreturned : t.outcome = .ok next) : Tracks r h (.waiting next) (es ++ [.run t]) v := by
  obtain ⟨⟨earlier, since, rfl, hsince, -, hearlier, -⟩, hlayers⟩ := ht.stage
  refine ht.made hm hmade ⟨?_, ?_, (hmade.layers_eq hreturned).trans hlayers⟩
  · intro t' ht'
    rcases List.mem_append.1 ht' with ht' | ht'
    · rcases List.mem_append.1 ht' with ht' | ht'
      · exact hearlier t' ht'
      · rcases List.mem_cons.1 ht' with ht' | ht'
        · cases ht'
        · exact nomatch hsince _ ht'
    · cases List.mem_singleton.1 ht'
      exact ⟨next, hreturned⟩
  · rw [latest_append, latest, hreturned]
    rfl

theorem course (hm : m.KeepsFlags) (ht : Tracks r h s es w) (hfs : Course m h s w fs s' v) : Tracks r h s' (es ++ fs) v := by
  -- What a run works on depends on all that happened before it, so the past is kept general.
  induction hfs generalizing es with
  | aside hkept =>
    rw [List.append_nil]
    exact ht.aside hkept
  | cancel hcancel => exact ht.cancel hcancel
  | tick hcheck => exact ht.tick hcheck
  | stop hcheck =>
    obtain ⟨-, rfl⟩ := Prod.mk.inj hcheck
    exact ht.leave
  | abort _ =>
    rw [List.append_nil]
    exact ⟨ht.bound, ht.flag, trivial, ht.right⟩
  | late => exact ht.leave
  | run hmade hreturned => exact ht.run hm hmade hreturned
  | fail _ hmade _ htell =>
    cases htell
    have hended : Tracks r h .ended (es ++ [.run _]) _ := ht.made hm hmade trivial
    exact hended.aside (.of_eq rfl)
  | lose hmade _ => exact ht.made hm hmade trivial
  | trans _ _ ih ih' =>
    rw [← List.append_assoc]
    exact ih' (ih ht)

end Tracks

/-- The loop will make no run any more. -/
def Barred (h : ScheduledHandle) : Stage κ → World ν ε → Prop
  | .waiting _, w => w.flag h.flag = true
  | .due _, _ => False
  | .ended, _ => True

section Loop

variable {m : Meaning κ ν ε} {h : ScheduledHandle} {s s' : Stage κ} {es : List (Happening κ)} {t : Turn κ} {job : Recurring κ}

theorem Barred.course (hs : Barred h s w) (hes : Course m h s w es s' v) : Barred h s' v ∧ ∀ t, .run t ∉ es := by
  have later {s : Stage κ} {w v : World ν ε} (hs : Barred h s w) (hkept : w.FlagsKept v) : Barred h s v := by
    cases s with
    | waiting job => exact hkept.set _ hs
    | due job => exact hs
    | ended => trivial
  induction hes with
  | aside hkept => exact ⟨later hs hkept, nofun⟩
  | @cancel _ w v hcancel =>
    have hkept := h.flagsKept_cancel w
    rw [hcancel] at hkept
    exact ⟨later hs hkept, by simp⟩
  | tick hcheck =>
    rw [h.isCancelled_apply, Prod.mk.injEq, Exit.done.injEq] at hcheck
    exact Bool.noConfusion (hs.symm.trans hcheck.1)
  | stop _ => exact ⟨trivial, by simp⟩
  | abort _ => exact ⟨trivial, nofun⟩
  | late => exact ⟨trivial, by simp⟩
  | run => exact hs.elim
  | fail => exact hs.elim
  | lose => exact hs.elim
  | trans _ _ ih ih' =>
    obtain ⟨hu, hnone⟩ := ih hs
    obtain ⟨hv, hnone'⟩ := ih' hu
    exact ⟨hv, fun t ht => (List.mem_append.1 ht).elim (hnone t) (hnone' t)⟩

theorem made_of_onThread {x : Except Payload (Recurring κ)}
    (hrun : Activity.onThread (Act.attempt (job.run m)) w = (.done x, v)) :
    ∃ t : Turn κ, t.job = job ∧ t.outcome = x ∧ t.Made m w v := by
  rcases hx : Act.attempt (job.run m) (onWorker none w) with ⟨e, u⟩
  have hthread : Activity.onThread (Act.attempt (job.run m)) w = (e, backTo w u) := by
    rw [Activity.onThread, show Act.attempt (job.run m) { w with thread := .worker, active := none } = (e, u) from hx]
    rfl
  rw [hthread] at hrun
  cases hrun
  let inside := Captured.enteredAll job.layers (onWorker none w)
  let t : Turn κ := ⟨job, x, none, inside.active, (m.turn job.code inside).2.active, u.active⟩
  exact ⟨t, rfl, rfl, .of_attempt hx rfl rfl rfl⟩

/-- What a tick of the timer does is a part of the course of the schedule: the tick, and then a run if there is work
left and the schedule was not cancelled. -/
theorem course_tick {a b : Schedule κ} {ran : Bool} {error : Payload → String}
    (htick : tick m error a w = (.done (ran, b), v)) :
    b.handle = a.handle ∧
      ((ran = false ∧ Course m a.handle a.stage w [.tick] b.stage v) ∨
        ∃ t : Turn κ, Course m a.handle a.stage w [.tick, .run t] b.stage v ∧
          (ran = true ↔ ∃ next, t.outcome = .ok next)) := by
  obtain ⟨h, job⟩ := a
  cases job with
  | none =>
    cases htick
    exact ⟨rfl, .inl ⟨rfl, .late⟩⟩
  | some job =>
    have hcheck := h.isCancelled_apply w
    rw [tick] at htick
    dsimp only at htick
    rw [Act.bind_of_done hcheck] at htick
    cases hflag : w.flag h.flag with
    | true =>
      rw [hflag] at hcheck htick
      cases htick
      exact ⟨rfl, .inl ⟨rfl, .stop hcheck⟩⟩
    | false =>
      rw [hflag] at hcheck htick
      have hdue : Course m h (.waiting job) w [.tick] (.due job) w := .tick hcheck
      obtain ⟨x, u, hrun, hend⟩ := Act.bind_eq_done htick
      obtain ⟨t, rfl, rfl, hmade⟩ := made_of_onThread hrun
      cases hx : t.outcome with
      | ok next =>
        rw [hx] at hend
        cases hend
        exact ⟨rfl, .inr ⟨t, hdue.trans (.run hmade hx), by simp [hx]⟩⟩
      | error p =>
        rw [hx] at hend
        cases hend
        exact ⟨rfl, .inr ⟨t, hdue.trans (.fail _ hmade hx rfl), by simp [hx]⟩⟩

end Loop

theorem begin_accepted {period : Millis} (hperiod : 0 < period) (r : Recurring κ) (w : World ν ε) :
    begin false r period w = (.done (.ok ⟨⟨⟨w.flags.size⟩⟩, some r⟩), { w with flags := w.flags.push false }) := by
  have hcheck : checkRate false period = .ok () := by
    rw [checkRate, check, if_neg nofun]
    exact if_neg (Nat.ne_of_gt hperiod)
  rw [begin, hcheck]
  rfl

theorem tracks_begin (r : Recurring κ) (w : World ν ε) :
    Tracks r ⟨⟨w.flags.size⟩⟩ (.waiting r) [] { w with flags := w.flags.push false } := by
  refine ⟨by simp, nofun, ⟨nofun, rfl, rfl⟩, ?_⟩
  intro before t after hsplit
  simp at hsplit

/-- What the history `es` of a schedule says that started with the work `r` and has come to the stage `s`. -/
structure Account (m : Meaning κ ν ε) (r : Recurring κ) (h : ScheduledHandle) (es : List (Happening κ)) (s : Stage κ)
    (w : World ν ε) : Prop where
  right : ∀ before t after, es = before ++ .run t :: after → Right r before t
  stopped : Barred h s w → ∀ fs s' v, Course m h s w fs s' v → ∀ t, .run t ∉ fs
  captured : ∀ (plain : Recurring κ) (u : World ν ε), plain.bound u = (.done r, u) → ∀ t, .run t ∈ es →
    t.found = ((Captured.innermost plain.layers).or u.active).or t.before
  ticked : ∀ a b ran v error, a.handle = h → a.stage = s → tick m error a w = (.done (ran, b), v) →
    (ran = false ∧ Course m h s w [.tick] b.stage v) ∨
      ∃ t : Turn κ, Course m h s w [.tick, .run t] b.stage v ∧ (ran = true ↔ ∃ next, t.outcome = .ok next)

theorem Tracks.account {m : Meaning κ ν ε} {r : Recurring κ} {h : ScheduledHandle} {s : Stage κ} {es : List (Happening κ)}
    (ht : Tracks r h s es w) : Account m r h es s w where
  right := ht.right
  stopped hs fs s' v hfs := (hs.course hfs).2
  captured plain u hbound t hrun := by
    cases hbound
    obtain ⟨before, after, hsplit⟩ := List.append_of_mem hrun
    exact (ht.right before t after hsplit).found
  ticked a b ran v error := by
    rintro rfl rfl htick
    exact (course_tick htick).2

/-- **A schedule at a fixed rate makes no run after it should have stopped.** -/
theorem schedule_stops {m : Meaning κ ν ε} (hm : m.KeepsFlags) (r : Recurring κ) (w : World ν ε) :
    (∀ period, begin true r period w = (.done (.error .shutDown), w)) ∧
    begin false r 0 w = (.done (.error (.rejected "period must be non-zero")), w) ∧
    ∀ period, 0 < period → ∃ h v, begin false r period w = (.done (.ok ⟨h, some r⟩), v) ∧
      v = { w with flags := w.flags.push false } ∧
      ∀ es s x, Course m h (.waiting r) v es s x → Account m r h es s x := by
  refine ⟨fun _ => rfl, rfl, fun period hperiod => ⟨_, _, begin_accepted hperiod r w, rfl, fun es s x hes => ?_⟩⟩
  exact ((tracks_begin r w).course hm hes).account

/-- Work that is bound to a span, returns once, and panics in its second run; the next tick finds no work left. -/
theorem schedule_stops_panicking :
    let m : Meaning Nat Nat Unit :=
      ⟨fun c => pure c, fun c => if c = 1 then Act.panic .other else pure (c + 1), fun _ _ => pure (), fun _ _ => pure ()⟩
    let r : Recurring Nat := ⟨[⟨some ⟨0⟩⟩], 0⟩
    let w : World Nat Unit := { World.initial .constant () with active := some ⟨0⟩ }
    let t (c : Nat) (x : Except Payload (Recurring Nat)) : Turn Nat := ⟨⟨r.layers, c⟩, x, none, some ⟨0⟩, some ⟨0⟩, none⟩
    let es : List (Happening Nat) := [.tick, .run (t 0 (.ok ⟨r.layers, 1⟩)), .tick, .run (t 1 (.error .other)), .tick]
    m.KeepsFlags ∧ 0 < 250 ∧ Recurring.bound ⟨[], 0⟩ w = (.done r, w) ∧
      (∃ v, Course m ⟨⟨0⟩⟩ (.waiting r) { w with flags := #[false] } es .ended v) ∧
      (∀ period, begin true r period w = (.done (.error .shutDown), w)) ∧
      begin false r 0 w = (.done (.error (.rejected "period must be non-zero")), w) ∧
      ∃ h v, begin false r 250 w = (.done (.ok ⟨h, some r⟩), v) ∧ v = { w with flags := w.flags.push false } ∧
        ∀ es s x, Course m h (.waiting r) v es s x → Account m r h es s x := by
  intro m r w t es
  have hm : m.KeepsFlags := by
    intro c w
    by_cases hc : c = 1
    · simp only [m, if_pos hc]
      exact .of_eq rfl
    · simp only [m, if_neg hc]
      exact .of_eq rfl
  obtain ⟨hshut, hzero, hbegin⟩ := schedule_stops hm r w
  refine ⟨hm, by decide, rfl, ?_, hshut, hzero, hbegin 250 (by decide)⟩
  let v : World Nat Unit := { w with flags := #[false] }
  let u := backTo v (r.run m (onWorker none v)).2
  have hfirst : (t 0 (.ok ⟨r.layers, 1⟩)).Made m v u := .of_attempt rfl rfl rfl rfl
  have hsecond : (t 1 (.error .other)).Made m u _ := .of_attempt rfl rfl rfl rfl
  have hreturns : Course m ⟨⟨0⟩⟩ (.waiting r) v [.tick, .run _] (.waiting ⟨r.layers, 1⟩) u :=
    (Course.tick rfl).trans (.run hfirst rfl)
  have hpanics : Course m ⟨⟨0⟩⟩ (.waiting ⟨r.layers, 1⟩) u [.tick, .run _] .ended _ :=
    (Course.tick rfl).trans (.fail "task 2 panicked" hsecond rfl rfl)
  exact ⟨_, hreturns.trans (hpanics.trans .late)⟩

/-- Code that leaves another span active has its scope undone out of order: the worker keeps that span. -/
theorem schedule_leaks :
    let m : Meaning Nat Nat Unit :=
      ⟨fun c => pure c, fun c => do let _ ← Scope.activate ⟨1⟩; return c, fun _ _ => pure (), fun _ _ => pure ()⟩
    let w : World Nat Unit := { World.initial .constant () with active := some ⟨0⟩ }
    let r : Recurring Nat := ⟨[⟨some ⟨0⟩⟩], 0⟩
    let t : Turn Nat := ⟨r, .error (.text Scope.outOfOrder), none, some ⟨0⟩, some ⟨1⟩, some ⟨1⟩⟩
    m.KeepsFlags ∧ Recurring.bound ⟨[], 0⟩ w = (.done r, w) ∧
      (∃ v, Course m ⟨⟨0⟩⟩ (.waiting r) { w with flags := #[false] } [.tick, .run t] .ended v) ∧
      ¬ ∀ es s v, Course m ⟨⟨0⟩⟩ (.waiting r) { w with flags := #[false] } es s v → ∀ t, .run t ∈ es → t.after = t.before := by
  intro m w r t
  have hm : m.KeepsFlags := fun c w => .of_eq rfl
  have hmade : t.Made m { w with flags := #[false] } _ := .of_attempt rfl rfl rfl rfl
  have hcourse : Course m ⟨⟨0⟩⟩ (.waiting r) { w with flags := #[false] } [.tick, .run t] .ended _ :=
    (Course.tick rfl).trans (.fail "task 1 panicked" hmade rfl rfl)
  refine ⟨hm, rfl, ⟨_, hcourse⟩, fun hall => ?_⟩
  exact nomatch hall _ _ _ hcourse t (by simp)

end Schedule

end Pool

end SpanFlow
