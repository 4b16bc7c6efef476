import SpanFlow.Proofs.World.Ordinary

namespace SpanFlow

variable {ν ε C R : Type} {w : World ν ε}

def World.activeContext (w : World ν ε) : Option Context :=
  (w.active.bind w.span?).map Span.context

def ParentChoice.context? (w : World ν ε) : ParentChoice → Option Context
  | .active => w.activeContext
  | .root => none
  | .context c => c

namespace Tracer

theorem sampleRoot_apply (t : Tracer C) (w : World ν ε) :
    ∃ b v, t.sampleRoot w = (.done b, v) ∧ w.Ordinary v ∧ v.spans = w.spans ∧ v.used.traces = w.used.traces := by
  unfold sampleRoot
  split
  · exact ⟨_, w, rfl, .refl w, rfl, rfl⟩
  · split
    · exact ⟨_, w, rfl, .refl w, rfl, rfl⟩
    · exact ⟨_, _, rfl, .of_eq rfl rfl rfl (Nat.le_refl _) rfl rfl, rfl, rfl⟩

theorem rootContext_apply (t : Tracer C) (id : SpanId) (w : World ν ε) :
    ∃ b v, t.rootContext id w = (.done (.new (w.supply.traceIds w.used.traces) id b), v) ∧ w.Ordinary v ∧
      v.spans = w.spans ∧ v.used.traces = w.used.traces + 1 := by
  let u : World ν ε := { w with used.traces := w.used.traces + 1 }
  have hu : w.Ordinary u := .of_eq rfl rfl rfl (Nat.le_succ _) rfl rfl
  obtain ⟨b, v, hv, ho, hs, ht⟩ := t.sampleRoot_apply u
  refine ⟨b, v, ?_, hu.trans ho, hs, ht⟩
  have hroot : t.rootContext id w =
      (t.sampleRoot >>= fun b => pure (Context.new (w.supply.traceIds w.used.traces) id b)) u := rfl
  rw [hroot, Act.bind_of_done hv]
  rfl

/-- A span that was started under a context, or as a root, in a state `w` that `v` comes after. -/
structure Started (t : Tracer C) (name : String) (kind : Kind) (parent : Option Context) (w v : World ν ε)
    (s : Span) : Prop where
  parentId : s.parent = parent.map Context.span
  name : s.name = name
  kind : s.kind = kind
  reporter : s.reporter = t.reporter
  isOpen : s.isFinished = false
  child : ∀ p, parent = some p → s.context = childContext p (w.supply.spanIds w.used.spans)
  root : parent = none → s.context.trace = w.supply.traceIds w.used.traces ∧ w.used.traces < v.used.traces

theorem Started.annotated {t : Tracer C} {name : String} {kind : Kind} {parent : Option Context}
    {w v u : World ν ε} {s r : Span} (h : t.Started name kind parent w v s) (hr : s.Annotated r)
    (hu : v.used.traces ≤ u.used.traces) : t.Started name kind parent w u r where
  parentId := hr.parent.trans h.parentId
  name := hr.name.trans h.name
  kind := hr.kind.trans h.kind
  reporter := hr.reporter.trans h.reporter
  isOpen := by rw [Span.isFinished, hr.stop]; exact h.isOpen
  child p hp := hr.context.trans (h.child p hp)
  root hp := by
    obtain ⟨ht, hlt⟩ := h.root hp
    exact ⟨by rw [hr.context, ht], Nat.lt_of_lt_of_le hlt hu⟩

def newContext (t : Tracer C) (id : SpanId) : Option Context → Activity ν ε Context
  | some p => pure (childContext p id)
  | none => t.rootContext id

def tagService (t : Tracer C) (r : SpanRef) : Activity ν ε Unit :=
  match t.service with
  | some s => r.setTag "service.name" (.text s)
  | none => pure ()

theorem start_eq (t : Tracer C) (name : String) (kind : Kind) (parent : Option Context) :
    (t.start name kind parent : Activity ν ε SpanRef) = do
      let id ← Activity.freshSpanId
      let c ← t.newContext id parent
      let r ← SpanRef.create c (parent.map Context.span) name kind t.reporter
      t.tagService r
      return r := by
  unfold start tagService
  cases parent <;> cases t.service <;> rfl

theorem newContext_apply (t : Tracer C) (parent : Option Context) (id : SpanId) (w : World ν ε) :
    ∃ c v, t.newContext id parent w = (.done c, v) ∧ w.Ordinary v ∧ v.spans = w.spans ∧
      (∀ p, parent = some p → c = childContext p id) ∧
      (parent = none → c.trace = w.supply.traceIds w.used.traces ∧ w.used.traces < v.used.traces) := by
  cases parent with
  | some p =>
    refine ⟨_, w, rfl, .refl w, rfl, fun q hq => ?_, fun h => (nomatch h)⟩
    rw [Option.some.inj hq]
  | none =>
    obtain ⟨b, v, hv, ho, hs, ht⟩ := t.rootContext_apply id w
    refine ⟨_, v, hv, ho, hs, fun q (hq : none = some q) => (nomatch hq), fun _ => ⟨rfl, ?_⟩⟩
    omega

theorem moves_tagService (t : Tracer C) (r : SpanRef) :
    ∃ v, t.tagService r w = (.done (), v) ∧ w.Ordinary v := by
  unfold tagService
  cases t.service with
  | none => exact ⟨w, rfl, .refl w⟩
  | some s => exact ⟨_, rfl, (SpanRef.moves_setTag r "service.name" (.text s)).2⟩

theorem start_apply (t : Tracer C) (name : String) (kind : Kind) (parent : Option Context) (w : World ν ε) :
    ∃ v s, t.start name kind parent w = (.done ⟨w.spans.size⟩, v) ∧ w.Ordinary v ∧
      v.span? ⟨w.spans.size⟩ = some s ∧ t.Started name kind parent w v s := by
  let u : World ν ε := { w with used.spans := w.used.spans + 1 }
  have hu : w.Ordinary u := .of_eq rfl rfl rfl (Nat.le_refl _) rfl rfl
  obtain ⟨c, x, hc, hx, hspans, hchild, hroot⟩ := t.newContext_apply parent (w.supply.spanIds w.used.spans) u
  obtain ⟨now, y, hy, hxy, hspan⟩ := SpanRef.create_apply c (parent.map Context.span) name kind t.reporter x
  have hsize : x.spans.size = w.spans.size := by rw [hspans]
  rw [hsize] at hy hspan
  have hopened : t.Started name kind parent w y (.opened c (parent.map Context.span) name kind t.reporter now) :=
    ⟨rfl, rfl, rfl, rfl, rfl, hchild, fun hp => ⟨(hroot hp).1, Nat.lt_of_lt_of_le (hroot hp).2 hxy.kept.traces⟩⟩
  obtain ⟨z, hz, hyz⟩ := t.moves_tagService (w := y) ⟨w.spans.size⟩
  obtain ⟨r, hr, hann⟩ := hyz.kept.spans _ _ hspan
  refine ⟨z, r, ?_, ((hu.trans hx).trans hxy).trans hyz, hr, hopened.annotated hann hyz.kept.traces⟩
  have hid : Activity.freshSpanId w = (.done (w.supply.spanIds w.used.spans), u) := rfl
  rw [start_eq, Act.bind_of_done hid, Act.bind_of_done hc, Act.bind_of_done hy, Act.bind_of_done hz]
  rfl

end Tracer

theorem Interceptor.startSpan_apply (i : Interceptor ν ε C R) (call : Call) (choice : ParentChoice) (w : World ν ε) :
    ∃ v s, i.startSpan call choice w = (.done ⟨w.spans.size⟩, v) ∧ w.Ordinary v ∧
      v.span? ⟨w.spans.size⟩ = some s ∧ i.tracer.Started call.name call.kind (choice.context? w) w v s := by
  cases choice with
  | active => exact i.tracer.start_apply call.name call.kind w.activeContext w
  | root => exact i.tracer.start_apply call.name call.kind none w
  | context c => exact i.tracer.start_apply call.name call.kind c w

end SpanFlow
