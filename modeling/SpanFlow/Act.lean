/-!
Activities: computations over a state that return, panic, or bring everything down. A panic unwinds
until something catches it, and what has to be cleaned up on its way is cleaned up. A panic in such
a cleanup cannot be unwound any more and brings everything down. Main statement: activities form a
lawful monad.
-/

namespace SpanFlow

/-- What a panic carries: a text, or a value that has none. -/
inductive Payload where
  | text (s : String)
  | other
  deriving DecidableEq

def Payload.message : Payload → String
  | .text s => s
  | .other => "non-string panic payload"

inductive Exit (α : Type) where
  | done (a : α)
  | panic (p : Payload)
  | abort
  deriving DecidableEq

/-- A computation over a state. The state is kept however the computation ends. -/
def Act (σ α : Type) : Type := σ → Exit α × σ

namespace Act

variable {σ α β : Type}

protected def pure (a : α) : Act σ α := fun s => (.done a, s)

protected def bind (x : Act σ α) (f : α → Act σ β) : Act σ β := fun s =>
  match x s with
  | (.done a, t) => f a t
  | (.panic p, t) => (.panic p, t)
  | (.abort, t) => (.abort, t)

instance : Monad (Act σ) where
  pure := Act.pure
  bind := Act.bind

theorem pure_apply (a : α) (s : σ) : (pure a : Act σ α) s = (.done a, s) := rfl

theorem bind_apply (x : Act σ α) (f : α → Act σ β) (s : σ) :
    (x >>= f) s =
      match x s with
      | (.done a, t) => f a t
      | (.panic p, t) => (.panic p, t)
      | (.abort, t) => (.abort, t) := rfl

theorem bind_pure_apply (x : Act σ α) : (x >>= pure) = x := by
  funext s
  rw [bind_apply]
  rcases x s with ⟨e, t⟩
  cases e <;> rfl

theorem bind_bind (x : Act σ α) (f : α → Act σ β) {γ : Type} (g : β → Act σ γ) :
    (x >>= f >>= g) = x >>= fun a => f a >>= g := by
  funext s
  simp only [bind_apply]
  rcases x s with ⟨e, t⟩
  cases e <;> rfl

instance : LawfulMonad (Act σ) :=
  LawfulMonad.mk' _ bind_pure_apply (fun _ _ => rfl) fun x f g => bind_bind x f g

def read (f : σ → α) : Act σ α := fun s => (.done (f s), s)

def modify (f : σ → σ) : Act σ Unit := fun s => (.done (), f s)

def modifyGet (f : σ → α × σ) : Act σ α := fun s =>
  let (a, t) := f s
  (.done a, t)

def panic (p : Payload) : Act σ α := fun s => (.panic p, s)

def abort : Act σ α := fun s => (.abort, s)

/-- Stops a panic and shows what it carried. -/
def attempt (x : Act σ α) : Act σ (Except Payload α) := fun s =>
  match x s with
  | (.done a, t) => (.done (.ok a), t)
  | (.panic p, t) => (.done (.error p), t)
  | (.abort, t) => (.abort, t)

def resume : Except Payload α → Act σ α
  | .ok a => Act.pure a
  | .error p => panic p

def onPanic (x : Act σ α) (cleanup : Act σ Unit) : Act σ α := fun s =>
  match x s with
  | (.panic p, t) =>
    match cleanup t with
    | (.done (), u) => (.panic p, u)
    | (_, u) => (.abort, u)
  | r => r

def ensuring (x : Act σ α) (cleanup : Act σ Unit) : Act σ α := do
  let a ← onPanic x cleanup
  cleanup
  return a

def each (f : α → Act σ Unit) : List α → Act σ Unit
  | [] => Act.pure ()
  | a :: r => do
    f a
    each f r

end Act

end SpanFlow
