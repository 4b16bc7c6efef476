import SpanFlow.Proofs.Scope.Wrapping

namespace SpanFlow

variable {κ ν ε δ α β : Type}

structure Notice (ν : Type) where
  given : Except TaskError ν
  thread : Thread
  active : Option SpanRef

structure Watched (ν ε : Type) where
  extra : ε
  notices : List (Notice ν)

namespace World

def withExtra (w : World ν ε) (x : δ) : World ν δ :=
  ⟨w.supply, w.used, w.spans, w.reported, w.thread, w.active, w.flags, w.channels, w.journal, x⟩

def unwatched (w : World ν (Watched ν ε)) : World ν ε :=
  w.withExtra w.extra.extra

def notices (w : World ν (Watched ν ε)) : List (Notice ν) :=
  w.extra.notices

end World

namespace Activity

def unaware (x : Activity ν ε α) : Activity ν (Watched ν ε) α := fun w =>
  let (e, v) := x w.unwatched
  (e, v.withExtra ⟨v.extra, w.notices⟩)

def takeDown (given : Except TaskError ν) : Activity ν (Watched ν ε) Unit :=
  Act.modify fun w => { w with extra.notices := w.notices ++ [⟨given, w.thread, w.active⟩] }

def observed (watched : Bool) (given : Except TaskError ν) (x : Activity ν ε Unit) : Activity ν (Watched ν ε) Unit := do
  if watched then takeDown given
  unaware x

/-- The first activity does, but for the notices, what the second one does. -/
def Mirrors (x : Activity ν (Watched ν ε) α) (y : Activity ν ε α) : Prop :=
  ∀ w, ((x w).1, (x w).2.unwatched) = y w.unwatched

end Activity

def Meaning.watched (m : Meaning κ ν ε) (mark : κ → Bool) : Meaning κ ν (Watched ν ε) where
  call c := Activity.unaware (m.call c)
  turn c := Activity.unaware (m.turn c)
  succeed c v := Activity.observed (mark c) (.ok v) (m.succeed c v)
  fail c e := Activity.observed (mark c) (.error e) (m.fail c e)

namespace Activity.Mirrors

variable {x : Activity ν (Watched ν ε) α} {y : Activity ν ε α}

theorem unaware (y : Activity ν ε α) : Mirrors (Activity.unaware y) y := fun _ => rfl

theorem observed (watched : Bool) (given : Except TaskError ν) (y : Activity ν ε Unit) :
    Mirrors (Activity.observed watched given y) y := by
  intro w
  cases watched <;> rfl

theorem pure (a : α) : Mirrors (Pure.pure a : Activity ν (Watched ν ε) α) (Pure.pure a) := fun _ => rfl

theorem bind {f : α → Activity ν (Watched ν ε) β} {g : α → Activity ν ε β} (h : Mirrors x y) (hf : ∀ a, Mirrors (f a) (g a)) :
    Mirrors (x >>= f) (y >>= g) := by
  intro w
  rw [Act.bind_apply, Act.bind_apply, ← h w]
  rcases x w with ⟨e, v⟩
  cases e with
  | done a => exact hf a v
  | panic p => rfl
  | abort => rfl

theorem attempt (h : Mirrors x y) : Mirrors (Act.attempt x) (Act.attempt y) := by
  intro w
  rw [Act.attempt, Act.attempt, ← h w]
  rcases x w with ⟨e, v⟩
  cases e <;> rfl

theorem onPanic {c : Activity ν (Watched ν ε) Unit} {d : Activity ν ε Unit} (h : Mirrors x y) (hc : Mirrors c d) :
    Mirrors (Act.onPanic x c) (Act.onPanic y d) := by
  intro w
  rw [Act.onPanic, Act.onPanic, ← h w]
  rcases x w with ⟨e, v⟩
  cases e with
  | done a => rfl
  | abort => rfl
  | panic p =>
    simp only
    rw [← hc v]
    rcases c v with ⟨e, u⟩
    cases e <;> rfl

theorem restore (t : ScopeToken) : Mirrors (Scope.restore t : Activity ν (Watched ν ε) Unit) (Scope.restore t) := by
  intro w
  by_cases h : w.active = some t.activated
  · rw [Scope.restore_of_active h, Scope.restore_of_active (w := w.unwatched) h]
    rfl
  · rw [Scope.restore_of_not_active h, Scope.restore_of_not_active (w := w.unwatched) h]
    rfl

theorem scope (s : SpanRef) (h : Mirrors x y) : Mirrors (Scope.within s x) (Scope.within s y) := by
  have activated : Mirrors (Scope.activate s : Activity ν (Watched ν ε) ScopeToken) (Scope.activate s) := fun _ => rfl
  refine activated.bind fun t => ?_
  exact (h.onPanic (restore t)).bind fun a => (restore t).bind fun _ => pure a

theorem within (c : Captured) (h : Mirrors x y) : Mirrors (c.within x) (c.within y) := by
  unfold Captured.within
  cases c.span with
  | none => exact h
  | some s => exact h.scope s

theorem withinAll (cs : List Captured) (h : Mirrors x y) :
    Mirrors (Captured.withinAll cs x) (Captured.withinAll cs y) := by
  induction cs with
  | nil => exact h
  | cons c cs ih => exact ih.within c

theorem caught (h : Mirrors x y) : Mirrors (Work.caught x) (Work.caught y) := by
  refine h.attempt.bind fun r => ?_
  cases r with
  | ok a => exact pure _
  | error p => exact pure _

theorem send (r : ChannelRef) (result : Except TaskError (Option ν)) :
    Mirrors (Activity.send r result : Activity ν (Watched ν ε) Unit) (Activity.send r result) := by
  intro w
  have same : w.unwatched.channel r = w.channel r := rfl
  simp only [Activity.send, Act.modify, same]
  cases w.channel r <;> rfl

theorem closeChannel (r : ChannelRef) :
    Mirrors (Activity.closeChannel r : Activity ν (Watched ν ε) Unit) (Activity.closeChannel r) := by
  intro w
  have same : w.unwatched.channel r = w.channel r := rfl
  simp only [Activity.closeChannel, Act.modify, same]
  cases w.channel r <;> rfl

theorem discard (t : Work κ) : Mirrors (t.discard : Activity ν (Watched ν ε) Unit) t.discard := by
  induction t with
  | idle => exact pure ()
  | code _ => exact pure ()
  | answer channel _ => exact closeChannel channel
  | notify channel _ _ => exact closeChannel channel
  | bound _ _ ih => exact ih
  | after _ _ ih => exact ih

end Activity.Mirrors

open Activity

variable (m : Meaning κ ν ε) (mark : κ → Bool)

theorem Work.mirrors_inform (cb : Callback κ) (c : κ) :
    Mirrors (Work.inform (m.watched mark) cb c) (Work.inform m cb c) := by
  refine (Mirrors.unaware (m.call c)).caught.bind fun r => ?_
  cases r with
  | ok v => exact (Mirrors.observed _ _ _).withinAll cb.layers
  | error e => exact (Mirrors.observed _ _ _).withinAll cb.layers

theorem Work.mirrors_run (t : Work κ) : Mirrors (t.run (m.watched mark)) (t.run m) := by
  induction t with
  | idle => exact .pure ()
  | code c => exact (Mirrors.unaware (m.call c)).bind fun _ => .pure ()
  | answer channel c => exact (Mirrors.unaware (m.call c)).caught.bind fun _ => .send channel _
  | notify channel c cb => exact (mirrors_inform m mark cb c).caught.bind fun _ => .send channel _
  | bound captured _ ih => exact ih.within captured
  | after c body ih => exact ((Mirrors.unaware (m.call c)).onPanic (.discard body)).bind fun _ => ih

theorem Task.mirrors_run (t : Task κ) : Mirrors (t.run (m.watched mark)) (t.run m) := by
  have checked : Mirrors (t.isCancelled : Activity ν (Watched ν ε) Bool) t.isCancelled := by
    intro w
    unfold Task.isCancelled
    cases t.flag <;> rfl
  refine checked.bind fun cancelled => ?_
  cases cancelled with
  | true => exact (Mirrors.discard t.work).bind fun _ => .pure false
  | false => exact (Work.mirrors_run m mark t.work).bind fun _ => .pure true

section Notices

variable {m : Meaning κ ν ε} {mark : κ → Bool}

theorem notices_call (c : κ) (w : World ν (Watched ν ε)) : ((m.watched mark).call c w).2.notices = w.notices := rfl

theorem notices_observed (given : Except TaskError ν) (x : Activity ν ε Unit) (w : World ν (Watched ν ε)) :
    (observed true given x w).2.notices = w.notices ++ [⟨given, w.thread, w.active⟩] := rfl

theorem Callback.tell_watched {cb : Callback κ} (hsuccess : mark cb.success = true) (hfailure : mark cb.failure = true)
    (given : Except TaskError ν) :
    ∃ x, cb.tell (m.watched mark) given = Captured.withinAll cb.layers (observed true given x) := by
  cases given with
  | ok v =>
    refine ⟨m.succeed cb.success v, ?_⟩
    simp only [tell, succeed, Meaning.watched, hsuccess]
  | error e =>
    refine ⟨m.fail cb.failure e, ?_⟩
    simp only [tell, fail, Meaning.watched, hfailure]

theorem Callback.notices_tell {cb : Callback κ} (hsuccess : mark cb.success = true) (hfailure : mark cb.failure = true)
    (given : Except TaskError ν) (w : World ν (Watched ν ε)) :
    (cb.tell (m.watched mark) given w).2.notices =
      w.notices ++ [⟨given, w.thread, (Captured.innermost cb.layers).or w.active⟩] := by
  obtain ⟨x, hx⟩ := tell_watched (m := m) hsuccess hfailure given
  have hnotices : World.IgnoresSwitches fun v : World ν (Watched ν ε) => v.notices := fun _ _ _ => rfl
  have hthread : World.IgnoresSwitches fun v : World ν (Watched ν ε) => v.thread := fun _ _ _ => rfl
  rw [hx, Captured.withinAll_ignored hnotices, notices_observed, Captured.enteredAll_ignored hnotices,
    Captured.enteredAll_ignored hthread, Captured.active_enteredAll]

end Notices

end SpanFlow
