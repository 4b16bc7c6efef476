import Mathlib.Data.List.Induction
import SpanFlow.Proofs.Scope.Tokens

/-!
Tokens given back in the wrong order. As long as no restoration failed and no span was activated for which
a token was outstanding, the outstanding tokens stand one inside the other. Main statement: the newest of
them can be given back and no other, which makes active what was active when its span was activated; any
other restoration panics and leaves the active span as it is.
-/

namespace SpanFlow.Scope

variable {ν ε : Type} {w v : World ν ε} {a b : Option SpanRef} {t : ScopeToken} {ts us : List ScopeToken}
  {turn : Turn} {turns : List Turn} {i : Nat}

/-- The newest token activated the span that is active now, every other one the span that the next newer
one found, and the oldest one found `a`. No two of them activated the same span. -/
inductive Nested (a : Option SpanRef) : Option SpanRef → List ScopeToken → Prop where
  | nil : Nested a a []
  | cons {t : ScopeToken} {ts : List ScopeToken} (hinner : Nested a t.previous ts)
      (hother : ∀ u ∈ ts, u.activated ≠ t.activated) : Nested a (some t.activated) (t :: ts)

theorem Nested.active_iff (h : Nested a b ts) (ht : ts[i]? = some t) : b = some t.activated ↔ i = 0 := by
  cases h with
  | nil => exact nomatch ht
  | @cons newest rest hinner hother =>
    cases i with
    | zero =>
      cases ht
      exact ⟨fun _ => rfl, fun _ => rfl⟩
    | succ i =>
      have hmem : t ∈ rest := List.mem_of_getElem? ht
      refine ⟨fun heq => absurd (Option.some.inj heq).symm (hother t hmem), fun h => nomatch h⟩

theorem Nested.inner (h : Nested a b ts) (ht : ts[0]? = some t) : Nested a t.previous (ts.eraseIdx 0) := by
  cases h with
  | nil => exact nomatch ht
  | cons hinner _ =>
    cases ht
    exact hinner

def Turn.Fresh (ts : List ScopeToken) : Turn → Prop
  | .activate s => ∀ t ∈ ts, t.activated ≠ s
  | .restore _ => True

theorem Nested.take (h : Nested a w.active ts) (hfresh : turn.Fresh ts) (hturn : turn.take ts w = (.done us, v)) :
    Nested a v.active us := by
  cases turn with
  | activate s =>
    cases hturn
    exact .cons (t := ⟨w.active, s⟩) h hfresh
  | restore i =>
    cases hi : ts[i]? with
    | none =>
      simp only [Turn.take, hi] at hturn
      cases hturn
      exact h
    | some t =>
      simp only [Turn.take, hi] at hturn
      obtain ⟨⟨⟩, u, hrestore, hdone⟩ := Act.bind_eq_done hturn
      obtain ⟨hactive, rfl⟩ := restore_eq_done hrestore
      cases hdone
      -- A restoration that goes well is that of the newest token, so the rest is what stood inside.
      obtain rfl : i = 0 := (h.active_iff hi).1 hactive
      exact h.inner hi

/-- No turn activates a span for which a token is outstanding then. -/
def NeverTwice (turns : List Turn) (w : World ν ε) : Prop :=
  ∀ before s after, turns = before ++ .activate s :: after →
    ∀ us u, takeAll before [] w = (.done us, u) → ∀ t ∈ us, t.activated ≠ s

theorem NeverTwice.init (h : NeverTwice (turns ++ [turn]) w) : NeverTwice turns w := by
  rintro before s after rfl
  exact h before s (after ++ [turn]) (by simp)

theorem NeverTwice.fresh (h : NeverTwice (turns ++ [turn]) w) (hturns : takeAll turns [] w = (.done us, v)) :
    turn.Fresh us := by
  cases turn with
  | activate s => exact h turns s [] rfl us v hturns
  | restore i => trivial

/-- The token was given out by the last activation of its span, and knows what was active before. -/
def Issued (turns : List Turn) (w : World ν ε) (t : ScopeToken) : Prop :=
  ∃ before after us u, turns = before ++ .activate t.activated :: after ∧ .activate t.activated ∉ after ∧
    takeAll before [] w = (.done us, u) ∧ t.previous = u.active

theorem Issued.snoc (h : Issued turns w t) (hturn : turn ≠ .activate t.activated) : Issued (turns ++ [turn]) w t := by
  obtain ⟨before, after, us, u, rfl, hafter, hbefore, hprevious⟩ := h
  refine ⟨before, after ++ [turn], us, u, by simp, ?_, hbefore, hprevious⟩
  simp only [List.mem_append, List.mem_singleton, not_or]
  exact ⟨hafter, hturn.symm⟩

theorem mem_of_mem_take (hturn : turn.take ts w = (.done us, v)) (ht : t ∈ us) :
    t ∈ ts ∨ turn = .activate t.activated ∧ t.previous = w.active := by
  cases turn with
  | activate s =>
    cases hturn
    rcases List.mem_cons.1 ht with rfl | ht
    · exact .inr ⟨rfl, rfl⟩
    · exact .inl ht
  | restore i =>
    refine .inl ?_
    cases hi : ts[i]? with
    | none =>
      simp only [Turn.take, hi] at hturn
      cases hturn
      exact ht
    | some t' =>
      simp only [Turn.take, hi] at hturn
      obtain ⟨⟨⟩, u, -, hdone⟩ := Act.bind_eq_done hturn
      cases hdone
      exact List.mem_of_mem_eraseIdx ht

theorem NeverTwice.nested (h : NeverTwice turns w) (hturns : takeAll turns [] w = (.done ts, v)) :
    Nested w.active v.active ts ∧ ∀ t ∈ ts, Issued turns w t := by
  induction turns using List.reverseRecOn generalizing ts v with
  | nil =>
    cases hturns
    exact ⟨.nil, by simp⟩
  | append_singleton turns turn ih =>
    rw [takeAll_append] at hturns
    obtain ⟨us, u, hbefore, hlast⟩ := Act.bind_eq_done hturns
    obtain ⟨ts', v', hturn, hdone⟩ := Act.bind_eq_done hlast
    cases hdone
    obtain ⟨hnested, hissued⟩ := ih h.init hbefore
    have hfresh : turn.Fresh us := h.fresh hbefore
    refine ⟨hnested.take hfresh hturn, fun t ht => ?_⟩
    rcases mem_of_mem_take hturn ht with hold | ⟨rfl, hprevious⟩
    · refine (hissued t hold).snoc ?_
      rintro rfl
      exact hfresh t hold rfl
    · exact ⟨turns, [], us, u, rfl, by simp, hbefore, hprevious⟩

/-- A thread activates and restores, no restoration has panicked, and no span was activated while a token
for it was outstanding. Then of the outstanding tokens, which stand in a list with the newest first, the
newest can be given back, and that makes active what was active just before the last activation of its
span. To give back any other one panics, and the active span stays. -/
theorem newest_restored_only (hturns : takeAll turns [] w = (.done ts, v)) (htwice : NeverTwice turns w) :
    ∀ i t, ts[i]? = some t →
      ((restore t v).1 = .done () ↔ i = 0) ∧
      (i = 0 → ∃ before after us u, turns = before ++ .activate t.activated :: after ∧
        .activate t.activated ∉ after ∧ takeAll before [] w = (.done us, u) ∧
        (restore t v).2.active = u.active) ∧
      (i ≠ 0 → (restore t v).1 = .panic (.text outOfOrder) ∧ (restore t v).2.active = v.active) := by
  intro i t hi
  obtain ⟨hnested, hissued⟩ := htwice.nested hturns
  have hnewest : v.active = some t.activated ↔ i = 0 := hnested.active_iff hi
  by_cases h : i = 0
  · have hrestore : restore t v = (.done (), v.left t) := restore_of_active (hnewest.2 h)
    obtain ⟨before, after, us, u, hsplit, hafter, hbefore, hprevious⟩ := hissued t (List.mem_of_getElem? hi)
    rw [hrestore]
    exact ⟨iff_of_true rfl h, fun _ => ⟨before, after, us, u, hsplit, hafter, hbefore, hprevious⟩, fun hn => absurd h hn⟩
  · have hrestore : restore t v = (.panic (.text outOfOrder), v.note (.restoring t.activated)) :=
      restore_of_not_active (mt hnewest.1 h)
    rw [hrestore]
    exact ⟨iff_of_false (fun hn => nomatch hn) h, fun hz => absurd hz h, fun _ => ⟨rfl, rfl⟩⟩

/-- A span activated anew after its first token was given back, below another one. -/
theorem newest_restored_only_again :
    let w : World Unit Unit := { World.initial .constant () with active := some ⟨1⟩ }
    let turns : List Turn := [.activate ⟨0⟩, .activate ⟨1⟩, .restore 0, .activate ⟨1⟩, .activate ⟨2⟩]
    let ts : List ScopeToken := [⟨some ⟨1⟩, ⟨2⟩⟩, ⟨some ⟨0⟩, ⟨1⟩⟩, ⟨some ⟨1⟩, ⟨0⟩⟩]
    let v := (takeAll turns [] w).2
    (takeAll turns [] w).1 = .done ts ∧ NeverTwice turns w ∧
      ∀ i t, ts[i]? = some t →
        ((restore t v).1 = .done () ↔ i = 0) ∧
        (i = 0 → ∃ before after us u, turns = before ++ .activate t.activated :: after ∧
          .activate t.activated ∉ after ∧ takeAll before [] w = (.done us, u) ∧
          (restore t v).2.active = u.active) ∧
        (i ≠ 0 → (restore t v).1 = .panic (.text outOfOrder) ∧ (restore t v).2.active = v.active) := by
  intro w turns ts v
  have hdone : (takeAll turns [] w).1 = .done ts := by decide
  have htwice : NeverTwice turns w := by
    intro before s after hsplit us u hbefore
    dsimp only [turns] at hsplit
    rcases before with _ | ⟨_, _ | ⟨_, _ | ⟨_, _ | ⟨_, _ | ⟨_, before⟩⟩⟩⟩⟩
    on_goal 6 => exact absurd hsplit (by simp)
    on_goal 3 => cases hsplit
    all_goals
      cases hsplit
      cases hbefore
      decide
  exact ⟨hdone, htwice, newest_restored_only (Prod.ext hdone rfl) htwice⟩

end SpanFlow.Scope
