import SpanFlow.Act
import Mathlib.Order.Defs.Unbundled

/-!
What an activity does to the state, as a relation between the state it starts in and the state it
leaves, however it ends. For a preorder of states this composes: the main statements say so for a
sequence, for a panic that is stopped, and for cleaning up.
-/

namespace SpanFlow.Act

variable {σ α β : Type} {R S : σ → σ → Prop} {x : Act σ α} {s : σ}

/-- Started in `s`, the activity returns or panics, and what it leaves stands in `R` to `s`. -/
def Moves (R : σ → σ → Prop) (x : Act σ α) (s : σ) : Prop :=
  (x s).1 ≠ .abort ∧ R s (x s).2

theorem Moves.mono (h : Moves R x s) (hrs : ∀ t, R s t → S s t) : Moves S x s :=
  ⟨h.1, hrs _ h.2⟩

theorem Moves.cases (h : Moves R x s) :
    (∃ a t, x s = (.done a, t) ∧ R s t) ∨ (∃ p t, x s = (.panic p, t) ∧ R s t) := by
  obtain ⟨he, hr⟩ := h
  generalize hx : x s = r at he hr
  obtain ⟨e, t⟩ := r
  cases e with
  | done a => exact .inl ⟨a, t, rfl, hr⟩
  | panic p => exact .inr ⟨p, t, rfl, hr⟩
  | abort => exact absurd rfl he

theorem moves_of_done {a : α} {t : σ} (hx : x s = (.done a, t)) (hr : R s t) : Moves R x s := by
  simp [Moves, hx, hr]

theorem moves_of_panic {p : Payload} {t : σ} (hx : x s = (.panic p, t)) (hr : R s t) : Moves R x s := by
  simp [Moves, hx, hr]

theorem bind_of_done {f : α → Act σ β} {a : α} {t : σ} (hx : x s = (.done a, t)) : (x >>= f) s = f a t := by
  rw [bind_apply, hx]

theorem bind_of_panic {f : α → Act σ β} {p : Payload} {t : σ} (hx : x s = (.panic p, t)) :
    (x >>= f) s = (.panic p, t) := by
  rw [bind_apply, hx]

theorem attempt_of_done {a : α} {t : σ} (hx : x s = (.done a, t)) : attempt x s = (.done (.ok a), t) := by
  rw [attempt, hx]

theorem attempt_of_panic {p : Payload} {t : σ} (hx : x s = (.panic p, t)) :
    attempt x s = (.done (.error p), t) := by
  rw [attempt, hx]

theorem attempt_state (x : Act σ α) (s : σ) : (attempt x s).2 = (x s).2 := by
  rw [attempt]
  rcases x s with ⟨e, t⟩
  cases e <;> rfl

theorem onPanic_of_done {c : Act σ Unit} {a : α} {t : σ} (hx : x s = (.done a, t)) :
    onPanic x c s = (.done a, t) := by
  simp only [onPanic, hx]

theorem onPanic_of_panic {c : Act σ Unit} {p : Payload} {t u : σ} (hx : x s = (.panic p, t))
    (hc : c t = (.done (), u)) : onPanic x c s = (.panic p, u) := by
  simp only [onPanic, hx, hc]

theorem bind_eq_done {f : α → Act σ β} {b : β} {u : σ} (h : (x >>= f) s = (.done b, u)) :
    ∃ a t, x s = (.done a, t) ∧ f a t = (.done b, u) := by
  rw [bind_apply] at h
  rcases hx : x s with ⟨a | p, t⟩ <;> rw [hx] at h
  · exact ⟨a, t, rfl, h⟩
  · exact nomatch h
  · exact nomatch h

theorem bind_eq_panic {f : α → Act σ β} {p : Payload} {u : σ} (h : (x >>= f) s = (.panic p, u)) :
    x s = (.panic p, u) ∨ ∃ a t, x s = (.done a, t) ∧ f a t = (.panic p, u) := by
  rw [bind_apply] at h
  rcases hx : x s with ⟨a | q, t⟩ <;> rw [hx] at h
  · exact .inr ⟨a, t, rfl, h⟩
  · cases h
    exact .inl rfl
  · exact nomatch h

theorem onPanic_eq_done {c : Act σ Unit} {a : α} {t : σ} (h : onPanic x c s = (.done a, t)) : x s = (.done a, t) := by
  rw [onPanic] at h
  rcases hx : x s with ⟨b | q, u⟩ <;> simp only [hx] at h
  · exact h
  · split at h <;> exact nomatch h
  · exact nomatch h

theorem onPanic_eq_panic {c : Act σ Unit} {p : Payload} {u : σ} (h : onPanic x c s = (.panic p, u)) :
    ∃ t, x s = (.panic p, t) ∧ c t = (.done (), u) := by
  rw [onPanic] at h
  rcases hx : x s with ⟨b | q, t⟩ <;> simp only [hx] at h
  · exact nomatch h
  · split at h
    · next hc =>
      cases h
      exact ⟨t, rfl, hc⟩
    · exact nomatch h
  · exact nomatch h

theorem ensuring_state (x : Act σ α) (c : Act σ Unit) (s : σ) :
    (ensuring x c s).2 = (x s).2 ∨ (ensuring x c s).2 = (c (x s).2).2 := by
  rcases hx : x s with ⟨e, t⟩
  rcases hc : c t with ⟨e', u⟩
  cases e with
  | abort => simp [ensuring, bind_apply, onPanic, hx]
  | done a => cases e' <;> simp only [ensuring, bind_apply, onPanic, hx, hc, pure_apply, or_true]
  | panic p => cases e' <;> simp [ensuring, bind_apply, onPanic, hx, hc]

theorem bind_pure_state (x : Act σ α) (b : β) (s : σ) : ((x >>= fun _ => pure b) s).2 = (x s).2 := by
  rw [bind_apply]
  rcases x s with ⟨e, t⟩
  cases e <;> rfl

theorem Moves.of_bind_pure {b : β} (h : Moves R (x >>= fun _ => pure b) s) : Moves R x s := by
  obtain ⟨hend, hr⟩ := h
  rw [bind_pure_state] at hr
  refine ⟨fun habort => hend ?_, hr⟩
  rcases hx : x s with ⟨e, t⟩
  rw [hx] at habort
  subst habort
  rw [bind_apply, hx]

theorem Moves.attempt (h : Moves R x s) : Moves R (attempt x) s := by
  rcases h.cases with ⟨a, t, hx, hr⟩ | ⟨p, t, hx, hr⟩
  · exact moves_of_done (attempt_of_done hx) hr
  · exact moves_of_done (attempt_of_panic hx) hr

theorem Moves.bind [IsTrans σ R] {f : α → Act σ β} (h : Moves R x s)
    (hf : ∀ a t, x s = (.done a, t) → R s t → Moves R (f a) t) : Moves R (x >>= f) s := by
  rcases h.cases with ⟨a, t, hx, hr⟩ | ⟨p, t, hx, hr⟩
  · obtain ⟨he, hq⟩ := hf a t hx hr
    rw [Moves, bind_of_done hx]
    exact ⟨he, Trans.trans hr hq⟩
  · exact moves_of_panic (bind_of_panic hx) hr

theorem Moves.onPanic [IsTrans σ R] {c : Act σ Unit} (h : Moves R x s)
    (hc : ∀ p t, x s = (.panic p, t) → R s t → ∃ u, c t = (.done (), u) ∧ R t u) :
    Moves R (onPanic x c) s := by
  rcases h.cases with ⟨a, t, hx, hr⟩ | ⟨p, t, hx, hr⟩
  · exact moves_of_done (onPanic_of_done hx) hr
  · obtain ⟨u, hu, hq⟩ := hc p t hx hr
    exact moves_of_panic (onPanic_of_panic hx hu) (Trans.trans hr hq)

section Preorder

variable [IsPreorder σ R]

theorem moves_pure (a : α) : Moves R (pure a) s :=
  moves_of_done rfl (refl s)

theorem moves_panic (p : Payload) : Moves R (panic p : Act σ α) s :=
  moves_of_panic rfl (refl s)

theorem moves_read (f : σ → α) : Moves R (read f) s :=
  moves_of_done rfl (refl s)

theorem moves_resume (r : Except Payload α) : Moves R (resume r) s := by
  cases r with
  | ok a => exact moves_pure a
  | error p => exact moves_panic p

theorem moves_each (f : α → Act σ Unit) (l : List α) (hf : ∀ a ∈ l, ∀ t, R s t → Moves R (f a) t) :
    Moves R (each f l) s := by
  induction l generalizing s with
  | nil => exact moves_pure ()
  | cons a l ih =>
    refine (hf a (by simp) s (refl s)).bind fun _ t _ hr => ih fun b hb u hu => ?_
    exact hf b (by simp [hb]) u (Trans.trans hr hu)

end Preorder

end SpanFlow.Act
