import Mathlib.Data.List.Perm.Basic
import Mathlib.Data.Multiset.AddSub
import SpanFlow.Proofs.Scope.Bracket

/-!
Scopes by hand: a thread activates spans and gives the tokens back in whatever order it likes. Only the
spans of the tokens are checked, so tokens that activated the same span may be given back in the wrong
order. Main statement: whatever the order, the active span together with the spans that the outstanding
tokens bring back is, as a multiset, what was active at first together with the spans that these tokens
activated.
-/

namespace SpanFlow

variable {ν ε : Type} {w v : World ν ε}

namespace ScopeToken

def previousAll (ts : List ScopeToken) : Multiset (Option SpanRef) :=
  ts.map previous

def activatedAll (ts : List ScopeToken) : Multiset (Option SpanRef) :=
  ts.map fun t => some t.activated

@[simp] theorem previousAll_cons (t : ScopeToken) (ts : List ScopeToken) :
    previousAll (t :: ts) = t.previous ::ₘ previousAll ts := rfl

@[simp] theorem activatedAll_cons (t : ScopeToken) (ts : List ScopeToken) :
    activatedAll (t :: ts) = some t.activated ::ₘ activatedAll ts := rfl

theorem perm_eraseIdx {ts : List ScopeToken} {i : Nat} {t : ScopeToken} (h : ts[i]? = some t) :
    (t :: ts.eraseIdx i).Perm ts := by
  obtain ⟨hi, rfl⟩ := List.getElem?_eq_some_iff.1 h
  exact List.getElem_cons_eraseIdx_perm hi

theorem previousAll_eraseIdx {ts : List ScopeToken} {i : Nat} {t : ScopeToken} (h : ts[i]? = some t) :
    previousAll ts = t.previous ::ₘ previousAll (ts.eraseIdx i) :=
  Multiset.coe_eq_coe.2 ((perm_eraseIdx h).symm.map _)

theorem activatedAll_eraseIdx {ts : List ScopeToken} {i : Nat} {t : ScopeToken} (h : ts[i]? = some t) :
    activatedAll ts = some t.activated ::ₘ activatedAll (ts.eraseIdx i) :=
  Multiset.coe_eq_coe.2 ((perm_eraseIdx h).symm.map _)

end ScopeToken

namespace Scope

/-- What a thread does with scopes by hand: it activates a span, or it gives back one of its tokens, told
by its place among them. -/
inductive Turn where
  | activate (s : SpanRef)
  | restore (i : Nat)
  deriving DecidableEq

/-- Takes a turn. The outstanding tokens stand in a list, the newest first; one that is given back is gone. -/
def Turn.take : Turn → List ScopeToken → Activity ν ε (List ScopeToken)
  | .activate s, ts => do
    let token ← Scope.activate s
    return token :: ts
  | .restore i, ts =>
    match ts[i]? with
    | some token => do
      Scope.restore token
      return ts.eraseIdx i
    | none => pure ts

def takeAll : List Turn → List ScopeToken → Activity ν ε (List ScopeToken)
  | [], ts => pure ts
  | turn :: turns, ts => do
    let ts ← turn.take ts
    takeAll turns ts

theorem takeAll_append (before after : List Turn) (ts : List ScopeToken) :
    (takeAll (before ++ after) ts : Activity ν ε (List ScopeToken)) = takeAll before ts >>= takeAll after := by
  induction before generalizing ts with
  | nil => rfl
  | cons turn before ih =>
    have hrest : (takeAll (before ++ after) : List ScopeToken → Activity ν ε (List ScopeToken)) =
        fun ts => takeAll before ts >>= takeAll after := funext ih
    calc (takeAll (turn :: before ++ after) ts : Activity ν ε (List ScopeToken))
        = turn.take ts >>= takeAll (before ++ after) := rfl
      _ = turn.take ts >>= fun ts => takeAll before ts >>= takeAll after := by rw [hrest]
      _ = (turn.take ts >>= takeAll before) >>= takeAll after := (Act.bind_bind _ _ _).symm

theorem restore_eq_done {t : ScopeToken} (h : restore t w = (.done (), v)) :
    w.active = some t.activated ∧ v = w.left t := by
  by_cases ha : w.active = some t.activated
  · rw [restore_of_active ha] at h
    cases h
    exact ⟨ha, rfl⟩
  · rw [restore_of_not_active ha] at h
    exact nomatch h

/-- What is active, with what the outstanding tokens bring back, is what was active at first, with what
these tokens activated. -/
def Conserved (a : Option SpanRef) (w : World ν ε) (ts : List ScopeToken) : Prop :=
  w.active ::ₘ ScopeToken.previousAll ts = a ::ₘ ScopeToken.activatedAll ts

theorem Conserved.activate {a : Option SpanRef} {ts : List ScopeToken} (h : Conserved a w ts) (s : SpanRef) :
    Conserved a (w.entered s) (⟨w.active, s⟩ :: ts) := by
  unfold Conserved at h ⊢
  rw [World.active_entered, ScopeToken.previousAll_cons, ScopeToken.activatedAll_cons, h, Multiset.cons_swap]

theorem Conserved.restore {a : Option SpanRef} {ts : List ScopeToken} {i : Nat} {t : ScopeToken}
    (h : Conserved a w ts) (hi : ts[i]? = some t) (ht : w.active = some t.activated) :
    Conserved a (w.left t) (ts.eraseIdx i) := by
  unfold Conserved at h ⊢
  -- The span of the token stands on both sides: as the active one, and as one that was activated.
  rw [ht, ScopeToken.previousAll_eraseIdx hi, ScopeToken.activatedAll_eraseIdx hi, Multiset.cons_swap a] at h
  exact (Multiset.cons_inj_right _).1 h

theorem Conserved.take {a : Option SpanRef} {turn : Turn} {ts us : List ScopeToken} (h : Conserved a w ts)
    (hturn : turn.take ts w = (.done us, v)) : Conserved a v us := by
  cases turn with
  | activate s =>
    cases hturn
    exact h.activate s
  | restore i =>
    cases hi : ts[i]? with
    | none =>
      simp only [Turn.take, hi] at hturn
      cases hturn
      exact h
    | some t =>
      simp only [Turn.take, hi] at hturn
      obtain ⟨⟨⟩, u, hrestore, hdone⟩ := Act.bind_eq_done hturn
      obtain ⟨hactive, rfl⟩ := restore_eq_done hrestore
      cases hdone
      exact h.restore hi hactive

theorem Conserved.takeAll {a : Option SpanRef} {turns : List Turn} {ts us : List ScopeToken} (h : Conserved a w ts)
    (hturns : takeAll turns ts w = (.done us, v)) : Conserved a v us := by
  induction turns generalizing w ts with
  | nil =>
    cases hturns
    exact h
  | cons turn turns ih =>
    obtain ⟨rs, u, hturn, hrest⟩ := Act.bind_eq_done hturns
    exact ih (h.take hturn) hrest

/-- A thread activates and restores in any order, and no restoration panics. At every moment, when the
turns `before` are over and those `after` are yet to come, the active span with the spans that the
outstanding tokens bring back is the first active span with the spans that these tokens activated. So the
first active span is active again whenever no token is outstanding. -/
theorem tokens_conserved {turns : List Turn} {ts : List ScopeToken}
    (h : takeAll turns [] w = (.done ts, v)) :
    ∀ before after, turns = before ++ after → ∃ us u, takeAll before [] w = (.done us, u) ∧
      u.active ::ₘ ScopeToken.previousAll us = w.active ::ₘ ScopeToken.activatedAll us ∧
      (us = [] → u.active = w.active) := by
  rintro before after rfl
  rw [takeAll_append] at h
  obtain ⟨us, u, hbefore, -⟩ := Act.bind_eq_done h
  have hstart : Conserved w.active w [] := rfl
  have hconserved : Conserved w.active u us := hstart.takeAll hbefore
  refine ⟨us, u, hbefore, hconserved, ?_⟩
  rintro rfl
  exact (Multiset.cons_inj_left _).1 hconserved

/-- Four activations, one span three times, with the second newest token given back before the newest. -/
theorem tokens_conserved_crosswise :
    let w : World Unit Unit := .initial .constant ()
    let turns : List Turn := [.activate ⟨0⟩, .activate ⟨1⟩, .activate ⟨0⟩, .activate ⟨0⟩, .restore 1, .restore 1,
      .restore 0, .restore 0]
    (takeAll turns [] w).1 = .done [] ∧
      ∀ before after, turns = before ++ after → ∃ us u, takeAll before [] w = (.done us, u) ∧
        u.active ::ₘ ScopeToken.previousAll us = w.active ::ₘ ScopeToken.activatedAll us ∧
        (us = [] → u.active = w.active) := by
  intro w turns
  have hdone : (takeAll turns [] w).1 = .done [] := by decide
  exact ⟨hdone, tokens_conserved (v := (takeAll turns [] w).2) (Prod.ext hdone rfl)⟩

end Scope

end SpanFlow
