import SpanFlow.Executor.Pool
import SpanFlow.Proxy
import SpanFlow.Strategy
import SpanFlow.Proofs.Scope.Wrapping

/-!
Submitted tasks, from the submission until the handle shows an outcome. A task waits, is checked for a
cancellation, and is then run or given up; in the meantime, and while its code runs, it may be cancelled
and its handle may be looked at, any number of times. Main statement: whichever layers of tracing a
submission went through and in whichever order these events come, the history of the events alone decides
whether the code runs, what each cancellation answers and what each look at the handle shows.
-/

namespace SpanFlow

variable {β κ ν ε α : Type} {w u v : World ν ε}

section Handles

structure World.SameHandles (w v : World ν ε) : Prop where
  flags : v.flags = w.flags
  channels : v.channels = w.channels

namespace Captured

theorem sameHandles_enteredAll (cs : List Captured) (w : World ν ε) : w.SameHandles (enteredAll cs w) :=
  ⟨enteredAll_ignored (fun _ _ _ => rfl) cs w, enteredAll_ignored (fun _ _ _ => rfl) cs w⟩

theorem sameHandles_withinAll (cs : List Captured) (x : Activity ν ε α) (w : World ν ε) :
    (x (enteredAll cs w)).2.SameHandles (withinAll cs x w).2 :=
  ⟨withinAll_ignored (fun _ _ _ => rfl) cs x w, withinAll_ignored (fun _ _ _ => rfl) cs x w⟩

end Captured

theorem Activity.send_of_waiting {r : ChannelRef} (hr : w.channels[r.index]? = some .waiting)
    (result : Except TaskError (Option ν)) : Activity.send r result w =
      (.done (), { w with channels := w.channels.setIfInBounds r.index (.answered result) }) := by
  have hchannel : w.channel r = .waiting := by rw [World.channel, hr, Option.getD_some]
  rw [Activity.send, Act.modify, hchannel]

theorem Activity.closeChannel_of_waiting {r : ChannelRef} (hr : w.channels[r.index]? = some .waiting) :
    Activity.closeChannel r w = (.done (), { w with channels := w.channels.setIfInBounds r.index .closed }) := by
  have hchannel : w.channel r = .waiting := by rw [World.channel, hr, Option.getD_some]
  rw [Activity.closeChannel, Act.modify, hchannel]

theorem getElem?_set_of_some {a : Array α} {i : Nat} {x : α} (hx : a[i]? = some x) (y : α) :
    (a.setIfInBounds i y)[i]? = some y := by
  obtain ⟨hsize, -⟩ := Array.getElem?_eq_some_iff.1 hx
  simp [hsize]

section Flagged

variable {t : Task κ} {f : FlagRef}

theorem Task.isCancelled_of_flag (ht : t.flag = some f) (w : World ν ε) : t.isCancelled w = (.done (w.flag f), w) := by
  rw [isCancelled, ht]
  rfl

theorem Task.run_of_set {m : Meaning κ ν ε} (ht : t.flag = some f) (hw : w.flag f = true)
    (hv : t.discard w = (.done (), v)) : t.run m w = (.done false, v) := by
  rw [run, Act.bind_of_done (isCancelled_of_flag ht w), hw]
  exact Act.bind_of_done hv

theorem Task.run_of_unset {m : Meaning κ ν ε} (ht : t.flag = some f) (hw : w.flag f = false) :
    t.run m w = (t.work.run m >>= fun _ => pure true) w := by
  rw [run, Act.bind_of_done (isCancelled_of_flag ht w), hw]
  rfl

end Flagged

end Handles

section Layers

/-- An executor under any number of layers of tracing: its own traced twin, a traced capability, a proxy,
or a strategy that prepares what is handed over. -/
inductive Layered (base : Executor κ ν ε) : Executor κ ν ε → Prop where
  | base : Layered base base
  | traced {e : Executor κ ν ε} (h : Layered base e) : Layered base e.bound
  | capability (c : Capability) {s : Scheduler κ ν ε} (h : Layered base s.toExecutor) :
    Layered base (c.bound s).toExecutor
  | proxy (p : ExecutorProxy) {e : Executor κ ν ε} (h : Layered base e) : Layered base (p.executor e)
  | timedProxy (p : ExecutorProxy) {s : Scheduler κ ν ε} (h : Layered base s.toExecutor) :
    Layered base (p.scheduler s).toExecutor
  | strategy {β : Type} (sort : StrategySort β κ ν ε) {e : Executor κ ν ε} (h : Layered base e) :
    Layered base ⟨fun t => do e.execute (← (Strategy.tracing .passthrough).wrapCallable sort t)⟩

/-- A task handed to `e` is handed to `base`, at once, under spans that were captured then. -/
def Executor.Binds (base e : Executor κ ν ε) : Prop :=
  ∀ t w, ∃ cs, (∀ c ∈ cs, c.span = w.active) ∧ e.execute t w = base.execute { t with work := .boundAll cs t.work } w

theorem Executor.Binds.execute_bound {base e : Executor κ ν ε} (h : base.Binds e) (t : Task κ) (w : World ν ε) :
    ∃ cs, (∀ c ∈ cs, c.span = w.active) ∧ cs ≠ [] ∧
      e.bound.execute t w = base.execute { t with work := .boundAll cs t.work } w := by
  obtain ⟨cs, hcs, he⟩ := h { t with work := .bound ⟨w.active⟩ t.work } w
  refine ⟨cs ++ [⟨w.active⟩], ?_, by simp, ?_⟩
  · simp only [List.mem_append, List.mem_singleton]
    rintro c (hc | rfl)
    · exact hcs c hc
    · rfl
  · rw [Work.boundAll_snoc]
    exact he

theorem Executor.Binds.bound {base e : Executor κ ν ε} (h : base.Binds e) : base.Binds e.bound := by
  intro t w
  obtain ⟨cs, hcs, -, he⟩ := h.execute_bound t w
  exact ⟨cs, hcs, he⟩

theorem Layered.binds {base e : Executor κ ν ε} (h : Layered base e) : base.Binds e := by
  induction h with
  | base => exact fun t w => ⟨[], by simp, rfl⟩
  | traced _ ih => exact ih.bound
  | capability c _ ih =>
    cases c with
    | plain => exact ih.bound
    | scheduled => exact ih.bound
  | proxy p _ ih =>
    unfold ExecutorProxy.executor
    cases p.kind with
    | subclass => exact ih.bound
    | interface c => exact ih.bound
    | unwrapped => exact ih
  | timedProxy p _ ih =>
    unfold ExecutorProxy.scheduler
    cases p.kind with
    | subclass => exact ih.bound
    | unwrapped => exact ih
    | interface c =>
      cases c with
      | plain => exact ih.bound
      | scheduled => exact ih.bound
  | strategy sort _ ih => exact ih.bound

end Layers

theorem split_snoc {es before after : List α} {e x : α} (h : es ++ [e] = before ++ x :: after) :
    (es = before ∧ e = x) ∨ ∃ rest, es = before ++ x :: rest := by
  rcases List.eq_nil_or_concat after with rfl | ⟨rest, y, rfl⟩
  · obtain ⟨hes, he⟩ := List.append_inj' h rfl
    exact .inl ⟨hes, by simpa using he⟩
  · rw [List.concat_eq_append, ← List.cons_append, ← List.append_assoc] at h
    exact .inr ⟨rest, (List.append_inj' h rfl).1⟩

/-- What happens to a submitted task: a cancellation with its answer, a look at its handle with what was
shown, the check for a cancellation, a run of its code with the outcome, or that it is given up. -/
inductive TaskEvent (ν : Type) where
  | cancel (first : Bool)
  | poll (shown : Option (Except TaskError (Option ν)))
  | check
  | ran (outcome : Except Payload ν)
  | givenUp

namespace TaskEvent

@[simp]
def isCancel : TaskEvent ν → Bool
  | .cancel _ => true
  | _ => false

@[simp]
def isGivenUp : TaskEvent ν → Bool
  | .givenUp => true
  | _ => false

@[simp]
def outcome? : TaskEvent ν → Option (Except Payload ν)
  | .ran r => some r
  | _ => none

def cancelled (es : List (TaskEvent ν)) : Bool :=
  es.any isCancel

def abandoned (es : List (TaskEvent ν)) : Bool :=
  es.any isGivenUp

def outcomes (es : List (TaskEvent ν)) : List (Except Payload ν) :=
  es.filterMap outcome?

def shown : Except Payload ν → Except TaskError (Option ν)
  | .ok x => .ok (some x)
  | .error p => .error (.panicked p.message)

def verdict (es : List (TaskEvent ν)) : Option (Except TaskError (Option ν)) :=
  match outcomes es with
  | r :: _ => some (shown r)
  | [] => if abandoned es then some (.error (if cancelled es then .cancelled else .dropped)) else none

def Passed (es : List (TaskEvent ν)) : Prop :=
  ∃ before after, es = before ++ .check :: after ∧ cancelled before = false

/-- A cancellation answers whether it is the first one; the handle shows the verdict. -/
def Right (before : List (TaskEvent ν)) : TaskEvent ν → Prop
  | .cancel first => first = !cancelled before
  | .poll shown => shown = verdict before
  | .check => True
  | .ran _ => True
  | .givenUp => True

section Histories

variable {es fs before after : List (TaskEvent ν)} {e : TaskEvent ν}

@[simp] theorem cancelled_snoc (es : List (TaskEvent ν)) (e : TaskEvent ν) :
    cancelled (es ++ [e]) = (cancelled es || e.isCancel) := by
  simp [cancelled]

@[simp] theorem abandoned_snoc (es : List (TaskEvent ν)) (e : TaskEvent ν) :
    abandoned (es ++ [e]) = (abandoned es || e.isGivenUp) := by
  simp [abandoned]

@[simp] theorem outcomes_snoc (es : List (TaskEvent ν)) (e : TaskEvent ν) :
    outcomes (es ++ [e]) = outcomes es ++ e.outcome?.toList := by
  cases e <;> simp [outcomes]

theorem passed_snoc : Passed (es ++ [e]) ↔ Passed es ∨ e = .check ∧ cancelled es = false := by
  constructor
  · rintro ⟨before, after, hsplit, hc⟩
    rcases split_snoc hsplit with ⟨rfl, rfl⟩ | ⟨rest, rfl⟩
    · exact .inr ⟨rfl, hc⟩
    · exact .inl ⟨before, rest, rfl, hc⟩
  · rintro (⟨before, after, rfl, hc⟩ | ⟨rfl, hc⟩)
    · exact ⟨before, after ++ [e], by simp, hc⟩
    · exact ⟨es, [], rfl, hc⟩

theorem right_snoc (h : ∀ before x after, es = before ++ x :: after → x.Right before) (he : e.Right es) :
    ∀ before x after, es ++ [e] = before ++ x :: after → x.Right before := by
  intro before x after hsplit
  rcases split_snoc hsplit with ⟨rfl, rfl⟩ | ⟨rest, hrest⟩
  · exact he
  · exact h before x rest hrest

end Histories

end TaskEvent

inductive TaskStage where
  | waiting
  | skipped
  | started
  | ended

def submitted (cs : List Captured) (c : κ) (h : TaskHandle) : Task κ :=
  ⟨.boundAll cs (.answer h.channel c), some h.flag⟩

theorem discard_submitted (cs : List Captured) (c : κ) (h : TaskHandle) :
    ((submitted cs c h).discard : Activity ν ε Unit) = Activity.closeChannel h.channel := by
  rw [Task.discard, submitted, Work.discard_boundAll, Work.discard]

/-- What others do, besides the executor. Some of it concerns the task of the handle. -/
inductive Beside (h : TaskHandle) : World ν ε → List (TaskEvent ν) → World ν ε → Prop where
  | elsewhere {w v : World ν ε} (hflag : v.flags[h.flag.index]? = w.flags[h.flag.index]?)
    (hchannel : v.channels[h.channel.index]? = w.channels[h.channel.index]?) : Beside h w [] v
  | cancel {w v : World ν ε} {first : Bool} (hcancel : h.cancel w = (.done first, v)) : Beside h w [.cancel first] v
  | poll {w v : World ν ε} {shown : Option (Except TaskError (Option ν))} (hpoll : h.poll w = (.done shown, v)) :
    Beside h w [.poll shown] v
  | trans {w u v : World ν ε} {es fs : List (TaskEvent ν)} (hes : Beside h w es u) (hfs : Beside h u fs v) :
    Beside h w (es ++ fs) v

/-- The course of a submitted task. Its run has two parts, the check for a cancellation and what follows
from it, and anything may happen between them; others also act while the code itself runs. -/
inductive Course (m : Meaning κ ν ε) (cs : List Captured) (c : κ) (h : TaskHandle) :
    TaskStage → World ν ε → List (TaskEvent ν) → TaskStage → World ν ε → Prop where
  | beside {s : TaskStage} {w v : World ν ε} {es : List (TaskEvent ν)} (hes : Beside h w es v) : Course m cs c h s w es s v
  | check {w v : World ν ε} {b : Bool} (hcheck : (submitted cs c h).isCancelled w = (.done b, v)) :
    Course m cs c h .waiting w [.check] (if b then .skipped else .started) v
  | skip {w v : World ν ε} (hskip : (submitted cs c h).discard w = (.done (), v)) :
    Course m cs c h .skipped w [.givenUp] .ended v
  | drop {w v : World ν ε} (hdrop : (submitted cs c h).discard w = (.done (), v)) :
    Course m cs c h .waiting w [.givenUp] .ended v
  | run {w u v : World ν ε} {r : Except Payload ν} {es : List (TaskEvent ν)} {x : Exit Unit}
    (hcode : Act.attempt (m.call c) (Captured.enteredAll cs w) = (.done r, u))
    (hes : Beside h (Captured.enteredAll cs w) es u) (hrun : (submitted cs c h).work.run m w = (x, v)) :
    Course m cs c h .started w (es ++ [.ran r]) .ended v
  | trans {s s' s'' : TaskStage} {w u v : World ν ε} {es fs : List (TaskEvent ν)} (hes : Course m cs c h s w es s' u)
    (hfs : Course m cs c h s' u fs s'' v) : Course m cs c h s w (es ++ fs) s'' v

open TaskEvent

def TaskStage.Agrees : TaskStage → List (TaskEvent ν) → Prop
  | .waiting, es | .skipped, es => ¬ Passed es ∧ outcomes es = [] ∧ abandoned es = false
  | .started, es => Passed es ∧ outcomes es = [] ∧ abandoned es = false
  | .ended, es => (Passed es ∧ ∃ r, outcomes es = [r]) ∨ (¬ Passed es ∧ outcomes es = [] ∧ abandoned es = true)

theorem TaskStage.Agrees.snoc {s : TaskStage} {es : List (TaskEvent ν)} {e : TaskEvent ν} (h : s.Agrees es)
    (hrun : e.outcome? = none) (hgive : e.isGivenUp = false) (hcheck : e ≠ .check) : s.Agrees (es ++ [e]) := by
  cases s <;> simpa [Agrees, passed_snoc, hrun, hgive, hcheck, -outcome?, -isGivenUp] using h

def TaskEvent.held (es : List (TaskEvent ν)) : Channel ν :=
  match outcomes es with
  | r :: _ => .answered (shown r)
  | [] => if abandoned es then .closed else .waiting

structure Tracks (h : TaskHandle) (s : TaskStage) (es : List (TaskEvent ν)) (w : World ν ε) : Prop where
  flag : w.flags[h.flag.index]? = some (cancelled es)
  channel : w.channels[h.channel.index]? = some (held es)
  stage : s.Agrees es
  right : ∀ before e after, es = before ++ e :: after → e.Right before

namespace Tracks

variable {h : TaskHandle} {s : TaskStage} {es fs : List (TaskEvent ν)}

theorem flag_eq (ht : Tracks h s es w) : w.flag h.flag = cancelled es := by
  rw [World.flag, ht.flag, Option.getD_some]

theorem channel_eq (ht : Tracks h s es w) : w.channel h.channel = held es := by
  rw [World.channel, ht.channel, Option.getD_some]

theorem poll_eq (ht : Tracks h s es w) : h.poll w = (.done (verdict es), w) := by
  simp only [TaskHandle.poll, Act.read, ht.channel_eq, ht.flag_eq, held, verdict]
  cases outcomes es with
  | cons r _ => rfl
  | nil => cases abandoned es <;> rfl

theorem of_eq (ht : Tracks h s es w) (hflag : v.flags[h.flag.index]? = w.flags[h.flag.index]?)
    (hchannel : v.channels[h.channel.index]? = w.channels[h.channel.index]?) : Tracks h s es v :=
  ⟨hflag.trans ht.flag, hchannel.trans ht.channel, ht.stage, ht.right⟩

theorem of_sameHandles (ht : Tracks h s es w) (hv : w.SameHandles v) : Tracks h s es v :=
  ht.of_eq (by rw [hv.flags]) (by rw [hv.channels])

theorem cancel {first : Bool} (ht : Tracks h s es w) (hcancel : h.cancel w = (.done first, v)) :
    Tracks h s (es ++ [.cancel first]) v := by
  cases hcancel
  obtain ⟨hsize, -⟩ := Array.getElem?_eq_some_iff.1 ht.flag
  refine ⟨?_, ?_, ?_, right_snoc ht.right ?_⟩
  · simp [hsize]
  · simpa [held] using ht.channel
  · exact ht.stage.snoc rfl rfl (nomatch ·)
  · exact congrArg (! ·) ht.flag_eq

theorem poll {shown : Option (Except TaskError (Option ν))} (ht : Tracks h s es w)
    (hpoll : h.poll w = (.done shown, v)) : Tracks h s (es ++ [.poll shown]) v := by
  rw [ht.poll_eq] at hpoll
  cases hpoll
  refine ⟨?_, ?_, ?_, right_snoc ht.right rfl⟩
  · simpa using ht.flag
  · simpa [held] using ht.channel
  · exact ht.stage.snoc rfl rfl (nomatch ·)

theorem beside (ht : Tracks h s es w) (hfs : Beside h w fs v) : Tracks h s (es ++ fs) v := by
  induction hfs generalizing es with
  | elsewhere hflag hchannel =>
    rw [List.append_nil]
    exact ht.of_eq hflag hchannel
  | cancel hcancel => exact ht.cancel hcancel
  | poll hpoll => exact ht.poll hpoll
  | trans _ _ ih ih' =>
    rw [← List.append_assoc]
    exact ih' (ih ht)

variable {m : Meaning κ ν ε} {cs : List Captured} {c : κ}

theorem check {b : Bool} (ht : Tracks h .waiting es w)
    (hcheck : (submitted cs c h).isCancelled w = (.done b, v)) :
    Tracks h (if b then .skipped else .started) (es ++ [.check]) v := by
  obtain ⟨hpassed, houtcomes, habandoned⟩ := ht.stage
  have hread : (submitted cs c h).isCancelled w = (.done (cancelled es), w) := by
    rw [← ht.flag_eq]
    rfl
  rw [hread] at hcheck
  cases hcheck
  refine ⟨?_, ?_, ?_, right_snoc ht.right trivial⟩
  · simpa using ht.flag
  · simpa [held] using ht.channel
  · cases hc : cancelled es <;> simp [TaskStage.Agrees, passed_snoc, hpassed, houtcomes, habandoned, hc]

theorem giveUp (ht : Tracks h s es w) (hstage : ¬ Passed es ∧ outcomes es = [] ∧ abandoned es = false)
    (hgive : (submitted cs c h).discard w = (.done (), v)) : Tracks h .ended (es ++ [.givenUp]) v := by
  obtain ⟨hpassed, houtcomes, habandoned⟩ := hstage
  have hwaiting : w.channels[h.channel.index]? = some .waiting := by simp [ht.channel, held, houtcomes, habandoned]
  rw [discard_submitted, Activity.closeChannel_of_waiting hwaiting] at hgive
  cases hgive
  refine ⟨?_, ?_, ?_, right_snoc ht.right trivial⟩
  · simpa using ht.flag
  · simpa [held, houtcomes] using getElem?_set_of_some hwaiting .closed
  · right
    simp [passed_snoc, hpassed, houtcomes]

theorem answered {r : Except Payload ν} (ht : Tracks h .started es w) :
    ∃ u, Activity.send h.channel (shown r) w = (.done (), u) ∧ Tracks h .ended (es ++ [.ran r]) u := by
  obtain ⟨hpassed, houtcomes, habandoned⟩ := ht.stage
  have hwaiting : w.channels[h.channel.index]? = some .waiting := by simp [ht.channel, held, houtcomes, habandoned]
  refine ⟨_, Activity.send_of_waiting hwaiting (shown r), ?_, ?_, ?_, ?_⟩
  · simpa using ht.flag
  · simpa [held, houtcomes] using getElem?_set_of_some hwaiting (.answered (shown r))
  · left
    simp [passed_snoc, hpassed, houtcomes]
  · exact right_snoc ht.right trivial

theorem run_answer {r : Except Payload ν} (hcode : Act.attempt (m.call c) w = (.done r, u)) (channel : ChannelRef) :
    (Work.answer channel c).run m w = Activity.send channel (shown r) u := by
  have hshown : shown r = (told r).map some := by cases r <;> rfl
  rw [hshown]
  exact Act.bind_of_done (Work.caught_of_attempt hcode)

theorem run {r : Except Payload ν} {x : Exit Unit} (ht : Tracks h .started es w)
    (hcode : Act.attempt (m.call c) (Captured.enteredAll cs w) = (.done r, u))
    (hfs : Beside h (Captured.enteredAll cs w) fs u) (hrun : (submitted cs c h).work.run m w = (x, v)) :
    Tracks h .ended (es ++ (fs ++ [.ran r])) v := by
  -- The brackets of the layers touch neither flag nor channel, so it is enough to follow the body inside.
  have hentered : Tracks h .started es (Captured.enteredAll cs w) :=
    ht.of_sameHandles (Captured.sameHandles_enteredAll cs w)
  obtain ⟨z, hsend, hz⟩ := (hentered.beside hfs).answered (r := r)
  have hbody : (Work.answer h.channel c).run m (Captured.enteredAll cs w) = (.done (), z) :=
    (run_answer hcode h.channel).trans hsend
  have hbrackets := Captured.sameHandles_withinAll cs ((Work.answer h.channel c).run m) w
  rw [hbody, ← Work.run_boundAll] at hbrackets
  rw [submitted] at hrun
  rw [hrun] at hbrackets
  rw [← List.append_assoc]
  exact hz.of_sameHandles hbrackets

theorem course {s' : TaskStage} (ht : Tracks h s es w) (hfs : Course m cs c h s w fs s' v) :
    Tracks h s' (es ++ fs) v := by
  -- What a step means depends on all that happened before it, so the past is kept general.
  induction hfs generalizing es with
  | beside hes => exact ht.beside hes
  | check hcheck => exact ht.check hcheck
  | skip hskip => exact ht.giveUp ht.stage hskip
  | drop hdrop => exact ht.giveUp ht.stage hdrop
  | run hcode hes hrun => exact ht.run hcode hes hrun
  | trans _ _ ih ih' =>
    rw [← List.append_assoc]
    exact ih' (ih ht)

end Tracks

structure TaskEvent.Account (s : TaskStage) (es : List (TaskEvent ν)) : Prop where
  right : ∀ before e after, es = before ++ e :: after → e.Right before
  runs : s = .ended → Passed es → ∃ r, outcomes es = [r]
  rests : ¬ (s = .ended ∧ Passed es) → outcomes es = []
  settles : s = .ended → (verdict es).isSome

theorem Tracks.account {h : TaskHandle} {s : TaskStage} {es : List (TaskEvent ν)} (ht : Tracks h s es w) :
    Account s es := by
  have hstage := ht.stage
  cases s with
  | ended =>
    rcases hstage with ⟨hpassed, r, hr⟩ | ⟨hpassed, hnone, habandoned⟩
    · exact ⟨ht.right, fun _ _ => ⟨r, hr⟩, fun hn => absurd ⟨rfl, hpassed⟩ hn, fun _ => by simp [verdict, hr]⟩
    · exact ⟨ht.right, fun _ hp => absurd hp hpassed, fun _ => hnone, fun _ => by simp [verdict, hnone, habandoned]⟩
  | waiting => exact ⟨ht.right, (nomatch ·), fun _ => hstage.2.1, (nomatch ·)⟩
  | skipped => exact ⟨ht.right, (nomatch ·), fun _ => hstage.2.1, (nomatch ·)⟩
  | started => exact ⟨ht.right, (nomatch ·), fun _ => hstage.2.1, (nomatch ·)⟩

section Runs

variable {m : Meaning κ ν ε} {cs : List Captured} {c : κ} {h : TaskHandle}

theorem closeChannel_apply (r : ChannelRef) (w : World ν ε) :
    ∃ channels, Activity.closeChannel r w = (.done (), { w with channels := channels }) := by
  rw [Activity.closeChannel, Act.modify]
  cases w.channel r with
  | waiting => exact ⟨_, rfl⟩
  | answered result => exact ⟨w.channels, rfl⟩
  | closed => exact ⟨w.channels, rfl⟩

theorem isCancelled_submitted (cs : List Captured) (c : κ) (h : TaskHandle) (w : World ν ε) :
    (submitted cs c h).isCancelled w = (.done (w.flag h.flag), w) := rfl

theorem run_of_cancelled (hw : w.flag h.flag = true) (hv : (submitted cs c h).discard w = (.done (), v)) :
    (submitted cs c h).run m w = (.done false, v) :=
  Task.run_of_set rfl hw hv

theorem run_of_not_cancelled (hw : w.flag h.flag = false) :
    (submitted cs c h).run m w = ((submitted cs c h).work.run m >>= fun _ => pure true) w :=
  Task.run_of_unset rfl hw

theorem course_of_run {r : Except Payload ν} {es : List (TaskEvent ν)}
    (hcode : Act.attempt (m.call c) (Captured.enteredAll cs w) = (.done r, u))
    (hes : Beside h (Captured.enteredAll cs w) es u) :
    ∃ fs, Course m cs c h .waiting w fs .ended ((submitted cs c h).run m w).2 := by
  have hcheck := isCancelled_submitted cs c h w
  cases hw : w.flag h.flag with
  | true =>
    obtain ⟨channels, hskip⟩ := closeChannel_apply h.channel w
    rw [← discard_submitted cs c h] at hskip
    rw [hw] at hcheck
    rw [run_of_cancelled hw hskip]
    exact ⟨_, (Course.check hcheck).trans (.skip hskip)⟩
  | false =>
    rw [hw] at hcheck
    rw [run_of_not_cancelled hw, Act.bind_pure_state]
    exact ⟨_, (Course.check hcheck).trans (.run hcode hes rfl)⟩

theorem runOnWorker_state (m : Meaning κ ν ε) (t : Task κ) (w : World ν ε) :
    (Pool.runOnWorker m t w).2 =
      { (t.run m { w with thread := .worker, active := none }).2 with thread := w.thread, active := w.active } := by
  simp only [Pool.runOnWorker, Act.bind_apply, Activity.onThread, Act.attempt]
  rcases t.run m { w with thread := .worker, active := none } with ⟨x, z⟩
  cases x <;> rfl

end Runs

/-- What an executor has done to a task by the time it accepts it is a part of the task's course. -/
def Executor.Honours (m : Meaning κ ν ε) (base : Executor κ ν ε) : Prop :=
  ∀ cs c h w v, base.execute (submitted cs c h) w = (.done (.ok ()), v) → ∃ es s, Course m cs c h .waiting w es s v

/-- An executor that runs tasks at once honours them, as long as the code leaves flags and channels alone. -/
theorem Executor.honours_direct {m : Meaning κ ν ε}
    (hm : ∀ c w, ∃ r v, Act.attempt (m.call c) w = (.done r, v) ∧ w.SameHandles v) : (direct m).Honours m := by
  intro cs c h w v hv
  obtain ⟨ran, u, hrun, hend⟩ := Act.bind_eq_done hv
  cases hend
  obtain ⟨r, z, hcode, hz⟩ := hm c (Captured.enteredAll cs w)
  obtain ⟨fs, hfs⟩ := course_of_run (h := h) hcode (.elsewhere (by rw [hz.flags]) (by rw [hz.channels]))
  rw [hrun] at hfs
  exact ⟨fs, _, hfs⟩

def World.withHandle (w : World ν ε) : World ν ε :=
  { w with channels := w.channels.push .waiting, flags := w.flags.push false }

theorem Executor.submitWork_exit {e : Executor κ ν ε} {work : ChannelRef → Work κ}
    {x : Exit (Except ExecutorError TaskHandle)} (hsubmit : e.submitWork work w = (x, v)) (hx : x ≠ .abort) :
    ∃ y, e.execute ⟨work ⟨w.channels.size⟩, some ⟨w.flags.size⟩⟩ w.withHandle = (y, v) ∧ y ≠ .abort ∧
      (∀ h, x = .done (.ok h) → h = ⟨⟨w.flags.size⟩, ⟨w.channels.size⟩⟩ ∧ y = .done (.ok ())) ∧
      ∀ err, x = .done (.error err) → y = .done (.error err) := by
  let u : World ν ε := { w with channels := w.channels.push .waiting }
  have hchannel : Activity.openChannel w = (.done ⟨w.channels.size⟩, u) := rfl
  have hflag : Activity.newFlag false u = (.done ⟨w.flags.size⟩, w.withHandle) := rfl
  rcases hy : e.execute ⟨work ⟨w.channels.size⟩, some ⟨w.flags.size⟩⟩ w.withHandle with ⟨y, z⟩
  rw [submitWork, Act.bind_of_done hchannel, Act.bind_of_done hflag, Act.bind_apply, hy] at hsubmit
  cases y with
  | abort =>
    cases hsubmit
    exact absurd rfl hx
  | panic p =>
    cases hsubmit
    refine ⟨_, rfl, by simp, ?_, ?_⟩ <;> simp
  | done answer =>
    cases answer with
    | error err =>
      cases hsubmit
      refine ⟨_, rfl, by simp, ?_, ?_⟩ <;> simp
    | ok _ =>
      cases hsubmit
      refine ⟨_, rfl, by simp, ?_, ?_⟩
      · rintro h ⟨⟩
        exact ⟨rfl, rfl⟩
      · simp

theorem Executor.submit_eq_done {base e : Executor κ ν ε} (he : Layered base e) {c : κ} {h : TaskHandle}
    (hsubmit : e.submit c w = (.done (.ok h), v)) :
    ∃ cs, (∀ d ∈ cs, d.span = w.active) ∧ h = ⟨⟨w.flags.size⟩, ⟨w.channels.size⟩⟩ ∧
      base.execute (submitted cs c h) w.withHandle = (.done (.ok ()), v) := by
  obtain ⟨y, htaken, -, haccepted, -⟩ := submitWork_exit hsubmit (nomatch ·)
  obtain ⟨rfl, rfl⟩ := haccepted h rfl
  obtain ⟨cs, hcs, hbase⟩ := he.binds ⟨.answer ⟨w.channels.size⟩ c, some ⟨w.flags.size⟩⟩ w.withHandle
  exact ⟨cs, hcs, rfl, hbase.symm.trans htaken⟩

theorem tracks_withHandle (w : World ν ε) : Tracks ⟨⟨w.flags.size⟩, ⟨w.channels.size⟩⟩ .waiting [] w.withHandle := by
  refine ⟨?_, ?_, ?_, by simp⟩
  · simp [World.withHandle, cancelled]
  · simp [World.withHandle, held, outcomes, abandoned]
  · simp [TaskStage.Agrees, Passed, outcomes, abandoned]

/-- Code is submitted through any layers over an executor that honours its tasks. It is one task that the
executor gets, with the flag of the handle, and whatever happens to this task from then on, its history
gives account of it. The code runs, once, if the task was checked and not cancelled before; in all other
cases it does not. To run the task is to check it, and then to run its body, or, if it was cancelled, to
give up its channel; no span is made active then. -/
theorem submitted_task_accounted {base e : Executor κ ν ε} {m : Meaning κ ν ε} {c : κ} {h : TaskHandle}
    (hbase : base.Honours m) (he : Layered base e) (hsubmit : e.submit c w = (.done (.ok h), v)) :
    ∃ cs es s, (∀ d ∈ cs, d.span = w.active) ∧
      base.execute (submitted cs c h) w.withHandle = (.done (.ok ()), v) ∧
      Course m cs c h .waiting w.withHandle es s v ∧
      (∀ fs s' x, Course m cs c h s v fs s' x → Account s' (es ++ fs)) ∧
      ∀ x : World ν ε,
        (x.flag h.flag = true →
          ∃ channels, (submitted cs c h).run m x = (.done false, { x with channels := channels })) ∧
        (x.flag h.flag = false →
          (submitted cs c h).run m x = ((submitted cs c h).work.run m >>= fun _ => pure true) x) := by
  obtain ⟨cs, hcs, rfl, htaken⟩ := Executor.submit_eq_done he hsubmit
  obtain ⟨es, s, hes⟩ := hbase cs c _ _ _ htaken
  have htracks := (tracks_withHandle w).course hes
  refine ⟨cs, es, s, hcs, htaken, hes, fun fs s' x hfs => (htracks.course hfs).account,
    fun x => ⟨fun hx => ?_, run_of_not_cancelled⟩⟩
  obtain ⟨channels, hskip⟩ := closeChannel_apply ⟨w.channels.size⟩ x
  rw [← discard_submitted cs c ⟨⟨w.flags.size⟩, ⟨w.channels.size⟩⟩] at hskip
  exact ⟨channels, run_of_cancelled hx hskip⟩

/-- Code that cancels its own task, when it is too late for that, and is then cancelled once more. -/
theorem submitted_task_accounted_late :
    let h : TaskHandle := ⟨⟨0⟩, ⟨0⟩⟩
    let m : Meaning Nat Nat Unit :=
      ⟨fun c => do let _ ← h.cancel; return c, fun c => pure c, fun _ _ => pure (), fun _ _ => pure ()⟩
    let base : Executor Nat Nat Unit := ⟨fun _ => pure (.ok ())⟩
    let p : ExecutorProxy := ⟨⟨0, "Pool", false, false, some .subclass⟩, .subclass⟩
    let w : World Nat Unit := { World.initial .constant () with active := some ⟨0⟩ }
    let es : List (TaskEvent Nat) :=
      [.poll none, .check, .cancel true, .ran (.ok 7), .cancel false, .poll (some (.ok (some 7)))]
    base.Honours m ∧ Layered base (p.executor base.bound) ∧
      (p.executor base.bound).submit 7 w = (.done (.ok h), w.withHandle) ∧
      (∃ x, Course m [⟨some ⟨0⟩⟩, ⟨some ⟨0⟩⟩] 7 h .waiting w.withHandle es .ended x) ∧
      ∃ cs fs s, (∀ d ∈ cs, d.span = w.active) ∧
        base.execute (submitted cs 7 h) w.withHandle = (.done (.ok ()), w.withHandle) ∧
        Course m cs 7 h .waiting w.withHandle fs s w.withHandle ∧
        (∀ gs s' x, Course m cs 7 h s w.withHandle gs s' x → Account s' (fs ++ gs)) ∧
        ∀ x : World Nat Unit,
          (x.flag h.flag = true →
            ∃ channels, (submitted cs 7 h).run m x = (.done false, { x with channels := channels })) ∧
          (x.flag h.flag = false →
            (submitted cs 7 h).run m x = ((submitted cs 7 h).work.run m >>= fun _ => pure true) x) := by
  intro h m base p w es
  have hbase : base.Honours m := by
    intro cs c h w v hv
    cases hv
    exact ⟨[], .waiting, .beside (.elsewhere rfl rfl)⟩
  have hlayers : Layered base (p.executor base.bound) := .proxy p (.traced .base)
  have hsubmit : (p.executor base.bound).submit 7 w = (.done (.ok h), w.withHandle) := rfl
  refine ⟨hbase, hlayers, hsubmit, ?_, submitted_task_accounted hbase hlayers hsubmit⟩
  let cs : List Captured := [⟨some ⟨0⟩⟩, ⟨some ⟨0⟩⟩]
  let x := ((submitted cs 7 h).work.run m w.withHandle).2
  have hpoll : Course m cs 7 h .waiting w.withHandle [.poll none] .waiting w.withHandle := .beside (.poll rfl)
  have hcheck : Course m cs 7 h .waiting w.withHandle [.check] .started w.withHandle :=
    .check (isCancelled_submitted cs 7 h w.withHandle)
  have hrun : Course m cs 7 h .started w.withHandle [.cancel true, .ran (.ok 7)] .ended x :=
    .run rfl (.cancel rfl) rfl
  have hcancel : Course m cs 7 h .ended x [.cancel false] .ended (h.cancel x).2 := .beside (.cancel rfl)
  have hlast : Course m cs 7 h .ended (h.cancel x).2 [.poll (some (.ok (some 7)))] .ended (h.cancel x).2 :=
    .beside (.poll rfl)
  exact ⟨_, hpoll.trans (hcheck.trans (hrun.trans (hcancel.trans hlast)))⟩

end SpanFlow
