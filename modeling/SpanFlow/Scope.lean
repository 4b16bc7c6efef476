import SpanFlow.Span.Live

/-!
The active span of a thread. An activation is undone with the token it gave out; that the tokens
come back in the opposite order is checked by their spans only. A scope pairs the two around an
activity, whether it returns or panics.
-/

namespace SpanFlow

structure ScopeToken where
  previous : Option SpanRef
  activated : SpanRef
  deriving DecidableEq

namespace Scope

variable {ν ε α : Type}

def active : Activity ν ε (Option SpanRef) :=
  Act.read World.active

def activate (s : SpanRef) : Activity ν ε ScopeToken :=
  Act.modifyGet fun w => (⟨w.active, s⟩, { w.note (.activating s) with active := some s })

def outOfOrder : String :=
  "scope restored out of order: the span being deactivated is not the active one"

def restore (t : ScopeToken) : Activity ν ε Unit := fun w =>
  let w := w.note (.restoring t.activated)
  if w.active = some t.activated then (.done (), { w with active := t.previous })
  else (.panic (.text outOfOrder), w)

/-- Runs an activity with a span active, and makes the previous one active again however it ends. -/
def within (s : SpanRef) (x : Activity ν ε α) : Activity ν ε α := do
  let token ← activate s
  Act.ensuring x (restore token)

end Scope

end SpanFlow
