import SpanFlow.Proofs.Executor.Submission
import SpanFlow.Proofs.Executor.Watching
import Mathlib.Logic.Relation

/-!
Tasks with a listener: submitted code whose outcome goes to a callback. Such a task waits, is checked for a
cancellation, and is then run or given up, while others go on as they like. Main statement: whichever layers
of tracing the submission went through, if the task is run its callback is told once, on the same thread, and
the handle tells how that ended; in all other cases the callback is never told.
-/

namespace SpanFlow

variable {κ ν ε α : Type}

section Outcomes

variable {m : Meaning κ ν ε} {w u z : World ν ε} {c : κ} {cb : Callback κ} {r : Except Payload ν}
  {q : Except Payload Unit}

theorem Work.run_notify (hcode : Act.attempt (m.call c) w = (.done r, u))
    (htell : Act.attempt (cb.tell m (told r)) u = (.done q, z)) (channel : ChannelRef) :
    (Work.notify channel c cb).run m w = Activity.send channel ((told q).map fun _ => none) z := by
  have hinform : Act.attempt (Work.inform m cb c) w = (.done q, z) := by
    rw [Act.attempt, Work.inform_of_attempt hcode, ← Act.attempt, htell]
  exact Act.bind_of_done (Work.caught_of_attempt hinform)

end Outcomes

/-- A submitted body with a callback, in its layers, with the flag and the channel of a handle. -/
def listened (cs : List Captured) (c : κ) (cb : Callback κ) (h : TaskHandle) : Task κ :=
  ⟨.boundAll cs (.notify h.channel c cb), some h.flag⟩

theorem discard_listened (cs : List Captured) (c : κ) (cb : Callback κ) (h : TaskHandle) :
    ((listened cs c cb h).discard : Activity ν ε Unit) = Activity.closeChannel h.channel := by
  rw [Task.discard, listened, Work.discard_boundAll, Work.discard]

theorem isCancelled_listened (cs : List Captured) (c : κ) (cb : Callback κ) (h : TaskHandle) (w : World ν ε) :
    (listened cs c cb h).isCancelled w = (.done (w.flag h.flag), w) :=
  Task.isCancelled_of_flag rfl w

theorem invokes_listened (m : Meaning κ ν ε) (cs : List Captured) (c : κ) (cb : Callback κ) (h : TaskHandle)
    (w : World ν ε) : Invokes (fun f => (listened cs c cb h).work.run { m with call := f }) w c
      (Captured.enteredAll cs w) := by
  simp only [listened, Work.run_boundAll]
  have hbody (u : World ν ε) :
      Invokes (fun f => (Work.notify h.channel c cb).run { m with call := f }) u c u := Work.invokes_run m rfl u
  exact (hbody _).withinAll

structure TaskHandle.Spared (h : TaskHandle) (w v : World ν ε) : Prop where
  flag : w.flag h.flag = true → v.flag h.flag = true
  channel : v.channels[h.channel.index]? = w.channels[h.channel.index]?

/-- How the code and the callback of a task ended, on which thread, and the span that was active where
the code began and where it ended. -/
structure Ran (ν : Type) where
  code : Except Payload ν
  callback : Except Payload Unit
  thread : Thread
  found : Option SpanRef
  left : Option SpanRef

inductive ListenerStage (ν : Type) where
  | waiting
  | skipped
  | started
  | ran (r : Ran ν)
  | givenUp

def Ran.notice (cb : Callback κ) (r : Ran ν) : Notice ν :=
  ⟨told r.code, r.thread, (Captured.innermost cb.layers).or r.left⟩

namespace ListenerStage

def notices (cb : Callback κ) : ListenerStage ν → List (Notice ν)
  | .ran r => [r.notice cb]
  | .waiting | .skipped | .started | .givenUp => []

def held : ListenerStage ν → Channel ν
  | .ran r => .answered ((told r.callback).map fun _ => none)
  | .givenUp => .closed
  | .waiting | .skipped | .started => .waiting

def shown (cancelled : Bool) : ListenerStage ν → Option (Except TaskError (Option ν))
  | .ran r => some ((told r.callback).map fun _ => none)
  | .givenUp => some (.error (TaskHandle.closedError cancelled))
  | .waiting | .skipped | .started => none

end ListenerStage

namespace Listening

section Steps

variable (m : Meaning κ ν (Watched ν ε)) (cs : List Captured) (c : κ) (cb : Callback κ) (h : TaskHandle)

/-- A step of a task with a listener, or of others meanwhile; none of these has the callback. Code and
callback stay on their thread. They may cancel the task, which is too late then, but the channel is out of
their reach. -/
inductive Step : ListenerStage ν × World ν (Watched ν ε) → ListenerStage ν × World ν (Watched ν ε) → Prop where
  | aside {s : ListenerStage ν} {w v : World ν (Watched ν ε)} (hspared : h.Spared w v) (hsilent : v.notices = w.notices) :
    Step (s, w) (s, v)
  | cancel {s : ListenerStage ν} {w v : World ν (Watched ν ε)} {first : Bool} (hcancel : h.cancel w = (.done first, v)) :
    Step (s, w) (s, v)
  | start {w v : World ν (Watched ν ε)} (hcheck : (listened cs c cb h).isCancelled w = (.done false, v)) :
    Step (.waiting, w) (.started, v)
  | bar {w v : World ν (Watched ν ε)} (hcheck : (listened cs c cb h).isCancelled w = (.done true, v)) :
    Step (.waiting, w) (.skipped, v)
  | skip {w v : World ν (Watched ν ε)} (hskip : (listened cs c cb h).discard w = (.done (), v)) :
    Step (.skipped, w) (.givenUp, v)
  | drop {w v : World ν (Watched ν ε)} (hdrop : (listened cs c cb h).discard w = (.done (), v)) :
    Step (.waiting, w) (.givenUp, v)
  | run {w b u z v : World ν (Watched ν ε)} {r : Except Payload ν} {q : Except Payload Unit} {x : Exit Unit}
    (hbegin : Invokes (fun f => (listened cs c cb h).work.run { m with call := f }) w c b)
    (hcode : Act.attempt (m.call c) b = (.done r, u)) (hcodeSpared : h.Spared b u) (hthread : u.thread = w.thread)
    (htell : Act.attempt (cb.tell m (told r)) u = (.done q, z)) (htellSpared : h.Spared u z)
    (hrun : (listened cs c cb h).work.run m w = (x, v)) :
    Step (.started, w) (.ran ⟨r, q, w.thread, b.active, u.active⟩, v)

abbrev Reaches : ListenerStage ν × World ν (Watched ν ε) → ListenerStage ν × World ν (Watched ν ε) → Prop :=
  Relation.ReflTransGen (Step m cs c cb h)

end Steps

/-- The state and the stage of the task tell the same, where `before` are the notices of old. -/
structure Stands (cs : List Captured) (cb : Callback κ) (h : TaskHandle) (before : List (Notice ν)) (s : ListenerStage ν)
    (w : World ν (Watched ν ε)) : Prop where
  notices : w.notices = before ++ s.notices cb
  channel : w.channels[h.channel.index]? = some s.held
  found : ∀ r, s = .ran r → ∀ a, Captured.innermost cs = some a → r.found = some a

def Barred (h : TaskHandle) : ListenerStage ν → World ν (Watched ν ε) → Prop
  | .waiting, w => w.flag h.flag = true
  | .skipped, _ | .givenUp, _ => True
  | .started, _ | .ran _, _ => False

section Runs

variable {m : Meaning κ ν ε} {n : Meaning κ ν (Watched ν ε)} {mark : κ → Bool} {cs : List Captured} {c : κ}
  {cb : Callback κ} {h : TaskHandle} {before : List (Notice ν)} {s s' : ListenerStage ν} {w v u z : World ν (Watched ν ε)}
  {p q : ListenerStage ν × World ν (Watched ν ε)}

theorem Stands.of_spared (hs : Stands cs cb h before s w) (hspared : h.Spared w v) (hsilent : v.notices = w.notices) :
    Stands cs cb h before s v :=
  ⟨hsilent.trans hs.notices, hspared.channel.trans hs.channel, hs.found⟩

theorem Stands.giveUp (hs : Stands cs cb h before s w) (hquiet : s.notices cb = []) (hwaiting : s.held = .waiting)
    (hgive : (listened cs c cb h).discard w = (.done (), v)) : Stands cs cb h before .givenUp v := by
  have hchannel : w.channels[h.channel.index]? = some .waiting := by rw [hs.channel, hwaiting]
  rw [discard_listened, Activity.closeChannel_of_waiting hchannel] at hgive
  cases hgive
  refine ⟨?_, getElem?_set_of_some hchannel .closed, fun r hr => nomatch hr⟩
  have hnotices := hs.notices
  rw [hquiet] at hnotices
  exact hnotices

/-- The brackets of the layers touch neither notices nor channels, so it is enough to follow the body inside. -/
theorem Stands.run {r : Except Payload ν} {q : Except Payload Unit} {x : Exit Unit}
    (hs : Stands cs cb h before .started w) (hsuccess : mark cb.success = true) (hfailure : mark cb.failure = true)
    (hcode : Act.attempt ((m.watched mark).call c) (Captured.enteredAll cs w) = (.done r, u))
    (hcodeSpared : h.Spared (Captured.enteredAll cs w) u) (hthread : u.thread = w.thread)
    (htell : Act.attempt (cb.tell (m.watched mark) (told r)) u = (.done q, z)) (htellSpared : h.Spared u z)
    (hrun : (listened cs c cb h).work.run (m.watched mark) w = (x, v)) :
    Stands cs cb h before (.ran ⟨r, q, w.thread, (Captured.enteredAll cs w).active, u.active⟩) v := by
  have hsilent : World.IgnoresSwitches fun v : World ν (Watched ν ε) => v.notices := fun _ _ _ => rfl
  have hnoticed : z.notices = before ++ [⟨told r, w.thread, (Captured.innermost cb.layers).or u.active⟩] := by
    have hu : u.notices = w.notices := by
      calc u.notices = (Act.attempt ((m.watched mark).call c) (Captured.enteredAll cs w)).2.notices := by rw [hcode]
        _ = (Captured.enteredAll cs w).notices := by rw [Act.attempt_state, notices_call]
        _ = w.notices := Captured.enteredAll_ignored hsilent cs w
    calc z.notices = (Act.attempt (cb.tell (m.watched mark) (told r)) u).2.notices := by rw [htell]
      _ = u.notices ++ [⟨told r, u.thread, (Captured.innermost cb.layers).or u.active⟩] := by
        rw [Act.attempt_state, Callback.notices_tell hsuccess hfailure]
      _ = before ++ [⟨told r, w.thread, (Captured.innermost cb.layers).or u.active⟩] := by
        rw [hu, hs.notices, ListenerStage.notices, List.append_nil, hthread]
  have hwaiting : z.channels[h.channel.index]? = some .waiting := by
    rw [htellSpared.channel, hcodeSpared.channel, (Captured.sameHandles_enteredAll cs w).channels, hs.channel,
      ListenerStage.held]
  have hbody := (Work.run_notify hcode htell h.channel).trans (Activity.send_of_waiting hwaiting _)
  have houter : v = (Captured.withinAll cs ((Work.notify h.channel c cb).run (m.watched mark)) w).2 := by
    rw [← Work.run_boundAll]
    exact (congrArg Prod.snd hrun).symm
  refine ⟨?_, ?_, ?_⟩
  · rw [houter, Captured.withinAll_ignored hsilent, hbody]
    exact hnoticed
  · rw [houter, (Captured.sameHandles_withinAll cs _ w).channels, hbody]
    exact getElem?_set_of_some hwaiting _
  · intro r' hr' a ha
    cases hr'
    rw [Captured.active_enteredAll, ha, Option.some_or]

theorem Stands.step (hs : Stands cs cb h before s w) (hsuccess : mark cb.success = true) (hfailure : mark cb.failure = true)
    (hstep : Step (m.watched mark) cs c cb h (s, w) (s', v)) : Stands cs cb h before s' v := by
  cases hstep with
  | aside hspared hsilent => exact hs.of_spared hspared hsilent
  | cancel hcancel =>
    cases hcancel
    exact ⟨hs.notices, hs.channel, hs.found⟩
  | start hcheck =>
    obtain ⟨-, rfl⟩ := Prod.mk.inj hcheck
    exact ⟨hs.notices, hs.channel, fun r hr => nomatch hr⟩
  | bar hcheck =>
    obtain ⟨-, rfl⟩ := Prod.mk.inj hcheck
    exact ⟨hs.notices, hs.channel, fun r hr => nomatch hr⟩
  | skip hskip => exact hs.giveUp rfl rfl hskip
  | drop hdrop => exact hs.giveUp rfl rfl hdrop
  | run hbegin hcode hcodeSpared hthread htell htellSpared hrun =>
    obtain ⟨-, rfl⟩ := hbegin.unique (invokes_listened _ cs c cb h w)
    exact hs.run hsuccess hfailure hcode hcodeSpared hthread htell htellSpared hrun

theorem Stands.reaches (hp : Stands cs cb h before p.1 p.2) (hsuccess : mark cb.success = true)
    (hfailure : mark cb.failure = true) (hpq : Reaches (m.watched mark) cs c cb h p q) : Stands cs cb h before q.1 q.2 := by
  induction hpq with
  | refl => exact hp
  | tail _ hstep ih => exact ih.step hsuccess hfailure hstep

theorem Stands.poll_eq (hs : Stands cs cb h before s w) : h.poll w = (.done (s.shown (w.flag h.flag)), w) := by
  have hchannel : w.channel h.channel = s.held := by rw [World.channel, hs.channel, Option.getD_some]
  simp only [TaskHandle.poll, Act.read, hchannel]
  cases s <;> rfl

theorem spared_cancel {first : Bool} (hcancel : h.cancel w = (.done first, v)) : h.Spared w v := by
  cases hcancel
  refine ⟨fun hflag => ?_, rfl⟩
  have hset : w.flags[h.flag.index]? = some true := by
    simpa [World.flag, Option.getD_eq_iff] using hflag
  exact congrArg (Option.getD · false) (getElem?_set_of_some hset true)

theorem Barred.step (hs : Barred h s w) (hstep : Step n cs c cb h (s, w) (s', v)) : Barred h s' v := by
  have later (hspared : h.Spared w v) : Barred h s v := by
    cases s with
    | waiting => exact hspared.flag hs
    | skipped => trivial
    | givenUp => trivial
    | started => exact hs
    | ran r => exact hs
  cases hstep with
  | aside hspared _ => exact later hspared
  | cancel hcancel => exact later (spared_cancel hcancel)
  | start hcheck =>
    rw [isCancelled_listened, Prod.mk.injEq, Exit.done.injEq] at hcheck
    exact Bool.noConfusion (hs.symm.trans hcheck.1)
  | bar _ => trivial
  | skip _ => trivial
  | drop _ => trivial
  | run => exact hs

theorem Barred.reaches (hp : Barred h p.1 p.2) (hpq : Reaches n cs c cb h p q) : Barred h q.1 q.2 := by
  induction hpq with
  | refl => exact hp
  | tail _ hstep ih => exact ih.step hstep

theorem ran_of_reaches {r : Ran ν} (hp : p.1 = .ran r) (hpq : Reaches n cs c cb h p q) : q.1 = .ran r := by
  induction hpq with
  | refl => exact hp
  | tail _ hstep ih =>
    cases hstep with
    | aside _ _ => exact ih
    | cancel _ => exact ih
    | _ => exact nomatch ih

theorem reaches_run {r : Except Payload ν} {q : Except Payload Unit}
    (hcode : Act.attempt (n.call c) (Captured.enteredAll cs w) = (.done r, u))
    (hcodeSpared : h.Spared (Captured.enteredAll cs w) u) (hthread : u.thread = w.thread)
    (htell : Act.attempt (cb.tell n (told r)) u = (.done q, z)) (htellSpared : h.Spared u z) :
    Reaches n cs c cb h (.waiting, w)
      (if w.flag h.flag then .givenUp else .ran ⟨r, q, w.thread, (Captured.enteredAll cs w).active, u.active⟩,
        ((listened cs c cb h).run n w).2) := by
  have hcheck := isCancelled_listened cs c cb h w
  cases hw : w.flag h.flag with
  | true =>
    obtain ⟨channels, hskip⟩ := closeChannel_apply h.channel w
    rw [← discard_listened cs c cb h] at hskip
    rw [hw] at hcheck
    rw [Task.run_of_set rfl hw hskip]
    exact (Relation.ReflTransGen.single (.bar hcheck)).tail (.skip hskip)
  | false =>
    rw [hw] at hcheck
    rw [Task.run_of_unset rfl hw, Act.bind_pure_state]
    have hbegin := invokes_listened n cs c cb h w
    exact (Relation.ReflTransGen.single (.start hcheck)).tail
      (.run hbegin hcode hcodeSpared hthread htell htellSpared rfl)

end Runs

end Listening

open Listening

def Tame (x : Activity ν ε α) : Prop :=
  ∀ w, ∃ r v, Act.attempt x w = (.done r, v) ∧ w.SameHandles v ∧ v.thread = w.thread

/-- What an executor has done to a task by the time it answers is a part of the task's way; a task that it
refuses is given up. -/
def Executor.Serves (n : Meaning κ ν (Watched ν ε)) (c : κ) (cb : Callback κ)
    (base : Executor κ ν (Watched ν ε)) : Prop :=
  ∀ cs h w x v, base.execute (listened cs c cb h) w = (x, v) → x ≠ .abort →
    ∃ s, Reaches n cs c cb h (.waiting, w) (s, v) ∧ ∀ e, x = .done (.error e) → s = .givenUp

section Executors

variable {n : Meaning κ ν (Watched ν ε)} {cs : List Captured} {c : κ} {cb : Callback κ} {h : TaskHandle}
  {w v : World ν (Watched ν ε)}

theorem World.SameHandles.spared (hw : w.SameHandles v) (h : TaskHandle) : h.Spared w v := by
  refine ⟨fun hflag => ?_, by rw [hw.channels]⟩
  rw [World.flag, hw.flags]
  exact hflag

theorem Listening.reaches_run_of_tame (hcode : Tame (n.call c)) (htell : ∀ given, Tame (cb.tell n given))
    (cs : List Captured) (h : TaskHandle) (w : World ν (Watched ν ε)) :
    ∃ s, Reaches n cs c cb h (.waiting, w) (s, ((listened cs c cb h).run n w).2) := by
  obtain ⟨r, u, hr, hu, hthread⟩ := hcode (Captured.enteredAll cs w)
  obtain ⟨q, z, hq, hz, -⟩ := htell (told r) u
  have hstays : (Captured.enteredAll cs w).thread = w.thread := Captured.enteredAll_ignored (fun _ _ _ => rfl) cs w
  exact ⟨_, reaches_run hr (hu.spared h) (hthread.trans hstays) hq (hz.spared h)⟩

theorem Executor.serves_onWorker (hcode : Tame (n.call c)) (htell : ∀ given, Tame (cb.tell n given)) :
    (onWorker n).Serves n c cb := by
  intro cs h w x v hx _
  have hv : v = (Pool.runOnWorker n (listened cs c cb h) w).2 := by
    rw [← Act.bind_pure_state _ (.ok () : Except ExecutorError Unit) w]
    exact (congrArg Prod.snd hx).symm
  obtain ⟨s, hs⟩ := reaches_run_of_tame hcode htell cs h { w with thread := .worker, active := none }
  have hswitch : Reaches n cs c cb h (.waiting, w) (.waiting, { w with thread := .worker, active := none }) :=
    .single (.aside ⟨id, rfl⟩ rfl)
  refine ⟨s, (hswitch.trans hs).tail ?_, ?_⟩
  · rw [hv, runOnWorker_state]
    exact .aside ⟨id, rfl⟩ rfl
  · rintro e rfl
    obtain ⟨ran, u, -, hend⟩ := Act.bind_eq_done hx
    exact nomatch hend

theorem Executor.Binds.execute_proxied {base e : Executor κ ν ε} (h : base.Binds e) (p : ExecutorProxy) (t : Task κ)
    (w : World ν ε) : ∃ cs, (∀ d ∈ cs, d.span = w.active) ∧ (p.isWrapped → cs ≠ []) ∧
      (p.executor e).execute t w = base.execute { t with work := .boundAll cs t.work } w := by
  obtain ⟨cs, hcs, hne, hbound⟩ := h.execute_bound t w
  unfold ExecutorProxy.executor
  cases hk : p.kind with
  | subclass => exact ⟨cs, hcs, fun _ => hne, hbound⟩
  | interface _ => exact ⟨cs, hcs, fun _ => hne, hbound⟩
  | unwrapped =>
    obtain ⟨cs, hcs, he⟩ := h t w
    exact ⟨cs, hcs, fun hw => absurd hk (by simpa [ExecutorProxy.isWrapped] using hw), he⟩

theorem Captured.innermost_of_same {cs : List Captured} {a : Option SpanRef} (hcs : ∀ d ∈ cs, d.span = a)
    (hne : cs ≠ []) : innermost cs = a := by
  induction cs with
  | nil => exact absurd rfl hne
  | cons d cs ih =>
    obtain ⟨hd, hcs⟩ := List.forall_mem_cons.1 hcs
    rw [innermost, hd]
    cases cs with
    | nil => rfl
    | cons d' cs => rw [ih hcs (by simp), Option.or_self]

end Executors

theorem Listening.stands_withHandle (cs : List Captured) (cb : Callback κ) (w : World ν (Watched ν ε)) :
    Stands cs cb ⟨⟨w.flags.size⟩, ⟨w.channels.size⟩⟩ w.notices .waiting w.withHandle := by
  refine ⟨(List.append_nil _).symm, ?_, fun r hr => nomatch hr⟩
  simp [World.withHandle, ListenerStage.held]

structure Listening.Account (cs : List Captured) (cb : Callback κ) (h : TaskHandle) (before : List (Notice ν))
    (s : ListenerStage ν) (w : World ν (Watched ν ε)) : Prop where
  notices : w.notices = before ++ s.notices cb
  poll : h.poll w = (.done (s.shown (w.flag h.flag)), w)
  found : ∀ r, s = .ran r → ∀ a, Captured.innermost cs = some a → r.found = some a

/-- Code is submitted with a callback, through a proxy or not and through any layers below, over an executor
that serves such tasks. It gets one task, in layers that captured the span of the submission, at least one if
the proxy is wrapped; that callbacks are watched changes nothing of what tasks do. Whatever happens to the
task from then on: if it ran, its callback was told so, once, with the outcome of the code, on the thread of
the run and under the span that the code left active; through a wrapped proxy that captured a span, the code
found this one active, and so did the callback if the code left it as it found it. The handle shows how the
callback ended, and there is nothing after that. In all other cases the callback was not told, and it never
will be if the task was refused, given up, or cancelled before its check. -/
theorem listener_told_once {m : Meaning κ ν ε} {mark : κ → Bool} {base e : Executor κ ν (Watched ν ε)} {c : κ}
    {cb : Callback κ} {w v : World ν (Watched ν ε)} {x : Exit (Except ExecutorError TaskHandle)} (p : ExecutorProxy)
    (hsuccess : mark cb.success = true) (hfailure : mark cb.failure = true)
    (hbase : base.Serves (m.watched mark) c cb) (he : Layered base e)
    (hsubmit : (p.executor e).submitListenable c cb w = (x, v)) (hx : x ≠ .abort) :
    ∃ cs h z s, (∀ d ∈ cs, d.span = w.active) ∧ (p.isWrapped → cs ≠ []) ∧
      base.execute (listened cs c cb h) w.withHandle = (z, v) ∧
      (∀ g, x = .done (.ok g) → g = h ∧ z = .done (.ok ())) ∧
      (∀ err, x = .done (.error err) → z = .done (.error err) ∧ s = .givenUp) ∧
      (∀ t : Task κ, Activity.Mirrors (t.run (m.watched mark)) (t.run m)) ∧
      Reaches (m.watched mark) cs c cb h (.waiting, w.withHandle) (s, v) ∧
      ∀ s' y, Reaches (m.watched mark) cs c cb h (s, v) (s', y) →
        Account cs cb h w.notices s' y ∧
        (∀ r, s' = .ran r → (∀ q, Reaches (m.watched mark) cs c cb h (s', y) q → q.1 = .ran r) ∧
          (p.isWrapped → ∀ a, w.active = some a → r.found = some a ∧
            (r.left = r.found → (r.notice cb).active = (Captured.innermost cb.layers).or (some a)))) ∧
        (Barred h s' y → ∀ q r, Reaches (m.watched mark) cs c cb h (s', y) q → q.1 ≠ .ran r) := by
  obtain ⟨z, htaken, hz, haccepted, hrefused⟩ := Executor.submitWork_exit hsubmit hx
  let h : TaskHandle := ⟨⟨w.flags.size⟩, ⟨w.channels.size⟩⟩
  obtain ⟨cs, hcs, hwrapped, hbind⟩ := he.binds.execute_proxied p ⟨.notify h.channel c cb, some h.flag⟩ w.withHandle
  have hgot : base.execute (listened cs c cb h) w.withHandle = (z, v) := hbind.symm.trans htaken
  obtain ⟨s, hreached, hgiven⟩ := hbase cs h w.withHandle z v hgot hz
  have hstands := (stands_withHandle cs cb w).reaches hsuccess hfailure hreached
  refine ⟨cs, h, z, s, hcs, hwrapped, hgot, haccepted, fun err herr => ?_, fun t => t.mirrors_run m mark, hreached,
    fun s' v' hlater => ?_⟩
  · have hanswer := hrefused err herr
    exact ⟨hanswer, hgiven err hanswer⟩
  have hs' := hstands.reaches hsuccess hfailure hlater
  refine ⟨⟨hs'.notices, hs'.poll_eq, hs'.found⟩, ?_, ?_⟩
  · rintro r rfl
    refine ⟨fun q hq => ran_of_reaches rfl hq, fun hp a ha => ?_⟩
    have hfound : r.found = some a := hs'.found r rfl a ((Captured.innermost_of_same hcs (hwrapped hp)).trans ha)
    exact ⟨hfound, fun hleft => by rw [Ran.notice, hleft, hfound]⟩
  · intro hbarred q r hq hran
    have hq' := hbarred.reaches hq
    rw [hran] at hq'
    exact hq'

/-- A callback that panics is not told of its own panic. -/
theorem listener_told_once_panicking :
    let m : Meaning Nat Nat Unit := ⟨fun c => pure c, fun c => pure c, fun _ _ => Act.panic (.text "late"), fun _ _ => pure ()⟩
    let n := m.watched fun _ => true
    let p : ExecutorProxy := ⟨⟨0, "Pool", false, false, some .subclass⟩, .subclass⟩
    let cb : Callback Nat := ⟨[], 0, 0⟩
    let h : TaskHandle := ⟨⟨0⟩, ⟨0⟩⟩
    let w : World Nat (Watched Nat Unit) := { World.initial .constant ⟨(), []⟩ with active := some ⟨0⟩ }
    let v := ((p.executor (.onWorker n)).submitListenable 7 cb w).2
    (Executor.onWorker n).Serves n 7 cb ∧ (p.executor (.onWorker n)).submitListenable 7 cb w = (.done (.ok h), v) ∧
      (Executor.onWorker n).execute (listened [⟨some ⟨0⟩⟩] 7 cb h) w.withHandle = (.done (.ok ()), v) ∧
      v.notices = [⟨.ok 7, .worker, some ⟨0⟩⟩] ∧ h.poll v = (.done (some (.error (.panicked "late"))), v) ∧
      ∃ cs s, Reaches n cs 7 cb h (.waiting, w.withHandle) (s, v) ∧
        ∀ r, s = .ran r → r.found = some ⟨0⟩ ∧
          (r.left = r.found → (r.notice cb).active = some ⟨0⟩) := by
  intro m n p cb h w v
  have hserves : (Executor.onWorker n).Serves n 7 cb := by
    refine Executor.serves_onWorker (fun w => ⟨.ok 7, w, rfl, ⟨rfl, rfl⟩, rfl⟩) fun given w => ?_
    cases given with
    | ok x => exact ⟨_, _, rfl, ⟨rfl, rfl⟩, rfl⟩
    | error e => exact ⟨_, _, rfl, ⟨rfl, rfl⟩, rfl⟩
  have hsubmit : (p.executor (.onWorker n)).submitListenable 7 cb w = (.done (.ok h), v) := rfl
  obtain ⟨cs, h', z, s, -, -, -, haccepted, -, -, hreached, hlater⟩ :=
    listener_told_once p rfl rfl hserves .base hsubmit (nomatch ·)
  obtain ⟨rfl, -⟩ := haccepted h rfl
  refine ⟨hserves, hsubmit, rfl, rfl, rfl, cs, s, hreached, fun r hr => ?_⟩
  obtain ⟨-, hran, -⟩ := hlater s v .refl
  exact (hran r hr).2 rfl ⟨0⟩ rfl

/-- Code that leaves another span active has its callback told under that one, not under the captured one. -/
theorem listener_told_elsewhere :
    let m : Meaning Nat Nat Unit :=
      ⟨fun c => do let _ ← Scope.activate ⟨1⟩; return c, fun c => pure c, fun _ _ => pure (), fun _ _ => pure ()⟩
    let n := m.watched fun _ => true
    let p : ExecutorProxy := ⟨⟨0, "Pool", false, false, some .subclass⟩, .subclass⟩
    let cb : Callback Nat := ⟨[], 0, 0⟩
    let w : World Nat (Watched Nat Unit) := { World.initial .constant ⟨(), []⟩ with active := some ⟨0⟩ }
    let v := ((p.executor (.onWorker n)).submitListenable 7 cb w).2
    (Executor.onWorker n).Serves n 7 cb ∧ p.isWrapped = true ∧
      (p.executor (.onWorker n)).submitListenable 7 cb w = (.done (.ok ⟨⟨0⟩, ⟨0⟩⟩), v) ∧
      v.notices = [⟨.ok 7, .worker, some ⟨1⟩⟩] ∧ ¬ ∀ notice ∈ v.notices, notice.active = w.active := by
  intro m n p cb w v
  have hserves : (Executor.onWorker n).Serves n 7 cb := by
    refine Executor.serves_onWorker (fun w => ⟨_, _, rfl, ⟨rfl, rfl⟩, rfl⟩) fun given w => ?_
    cases given with
    | ok x => exact ⟨_, _, rfl, ⟨rfl, rfl⟩, rfl⟩
    | error e => exact ⟨_, _, rfl, ⟨rfl, rfl⟩, rfl⟩
  have hnotices : v.notices = [⟨.ok 7, .worker, some ⟨1⟩⟩] := rfl
  refine ⟨hserves, rfl, rfl, hnotices, fun hall => ?_⟩
  rw [hnotices] at hall
  exact absurd (hall _ (List.mem_singleton_self _)) (by decide)

end SpanFlow
