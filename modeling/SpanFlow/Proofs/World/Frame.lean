import SpanFlow.Interceptor
import SpanFlow.Proofs.Act.Moves

namespace SpanFlow

def JournalEntry.isEvent (j : JournalEntry) : Bool :=
  match j.note with
  | .event _ => true
  | _ => false

/-- The span later on: at most annotated, neither closed nor replaced. -/
structure Span.Annotated (s t : Span) : Prop where
  context : t.context = s.context
  parent : t.parent = s.parent
  name : t.name = s.name
  kind : t.kind = s.kind
  reporter : t.reporter = s.reporter
  start : t.start = s.start
  stop : t.stop = s.stop

namespace Span.Annotated

theorem refl (s : Span) : s.Annotated s := ⟨rfl, rfl, rfl, rfl, rfl, rfl, rfl⟩

theorem trans {s t u : Span} (h : s.Annotated t) (g : t.Annotated u) : s.Annotated u :=
  ⟨g.context.trans h.context, g.parent.trans h.parent, g.name.trans h.name, g.kind.trans h.kind,
    g.reporter.trans h.reporter, g.start.trans h.start, g.stop.trans h.stop⟩

theorem setTag (s : Span) (k : String) (v : Attribute) : s.Annotated (s.setTag k v) := by
  unfold Span.setTag
  split
  · exact refl s
  · exact ⟨rfl, rfl, rfl, rfl, rfl, rfl, rfl⟩

theorem addLog (s : Span) (r : LogRecord) : s.Annotated (s.addLog r) := by
  unfold Span.addLog
  split
  · exact refl s
  · exact ⟨rfl, rfl, rfl, rfl, rfl, rfl, rfl⟩

theorem isFinished_eq {s t : Span} (h : s.Annotated t) : t.isFinished = s.isFinished := by
  rw [Span.isFinished, Span.isFinished, h.stop]

end Span.Annotated

def Supply.constant : Supply :=
  ⟨fun _ => 1, fun _ => 1, fun _ => .one, fun _ => 0, fun _ => by decide, fun _ => by decide⟩

namespace World

variable {ν ε : Type}

structure Steady (w v : World ν ε) : Prop where
  active : v.active = w.active
  journal : ∃ es : List JournalEntry, v.journal.toList = w.journal.toList ++ es ∧ ∀ j ∈ es, j.isEvent

/-- The spans are all still there, none of them closed meanwhile, and the supply was only used up. -/
structure Kept (w v : World ν ε) : Prop where
  supply : v.supply = w.supply
  traces : w.used.traces ≤ v.used.traces
  spans : ∀ r s, w.span? r = some s → ∃ t, v.span? r = some t ∧ s.Annotated t

/-- Nothing was switched, closed or reported. -/
structure Ordinary (w v : World ν ε) : Prop where
  steady : w.Steady v
  kept : w.Kept v
  reported : v.reported = w.reported

theorem Steady.refl (w : World ν ε) : w.Steady w := ⟨rfl, [], by simp⟩

theorem Steady.trans {u v w : World ν ε} (h : u.Steady v) (g : v.Steady w) : u.Steady w := by
  obtain ⟨es, he, hes⟩ := h.journal
  obtain ⟨fs, hf, hfs⟩ := g.journal
  refine ⟨g.active.trans h.active, es ++ fs, by rw [hf, he, List.append_assoc], fun j hj => ?_⟩
  rcases List.mem_append.1 hj with hj | hj
  · exact hes j hj
  · exact hfs j hj

theorem Kept.refl (w : World ν ε) : w.Kept w :=
  ⟨rfl, Nat.le_refl _, fun _ s hs => ⟨s, hs, .refl s⟩⟩

theorem Kept.trans {u v w : World ν ε} (h : u.Kept v) (g : v.Kept w) : u.Kept w := by
  refine ⟨g.supply.trans h.supply, Nat.le_trans h.traces g.traces, fun r s hs => ?_⟩
  obtain ⟨t, ht, hst⟩ := h.spans r s hs
  obtain ⟨x, hx, htx⟩ := g.spans r t ht
  exact ⟨x, hx, hst.trans htx⟩

theorem Ordinary.refl (w : World ν ε) : w.Ordinary w := ⟨.refl w, .refl w, rfl⟩

theorem Ordinary.trans {u v w : World ν ε} (h : u.Ordinary v) (g : v.Ordinary w) : u.Ordinary w :=
  ⟨h.steady.trans g.steady, h.kept.trans g.kept, g.reported.trans h.reported⟩

instance : IsPreorder (World ν ε) Steady where
  refl := Steady.refl
  trans _ _ _ := Steady.trans

instance : IsPreorder (World ν ε) Kept where
  refl := Kept.refl
  trans _ _ _ := Kept.trans

instance : IsPreorder (World ν ε) Ordinary where
  refl := Ordinary.refl
  trans _ _ _ := Ordinary.trans

theorem Ordinary.of_eq {w v : World ν ε} (active : v.active = w.active) (journal : v.journal = w.journal)
    (supply : v.supply = w.supply) (traces : w.used.traces ≤ v.used.traces) (spans : v.spans = w.spans)
    (reported : v.reported = w.reported) : w.Ordinary v := by
  refine ⟨⟨active, [], by simp [journal]⟩, ⟨supply, traces, fun r s hs => ⟨s, ?_, .refl s⟩⟩, reported⟩
  rwa [span?, spans]

theorem ordinary_note (w : World ν ε) (e : Event) : w.Ordinary (w.note (.event e)) :=
  ⟨⟨rfl, [⟨.event e, w.thread, w.active⟩], by simp [note], by simp [JournalEntry.isEvent]⟩,
    ⟨rfl, Nat.le_refl _, fun _ s hs => ⟨s, hs, .refl s⟩⟩, rfl⟩

theorem span?_modifySpan (w : World ν ε) (r q : SpanRef) (f : Span → Span) :
    (w.modifySpan r f).span? q = if r = q then (w.span? q).map f else w.span? q := by
  obtain ⟨i⟩ := r
  obtain ⟨j⟩ := q
  simp only [span?, modifySpan, Array.getElem?_modify, SpanRef.mk.injEq]

theorem span?_modifySpan_self {w : World ν ε} {r : SpanRef} {s : Span} (h : w.span? r = some s) (f : Span → Span) :
    (w.modifySpan r f).span? r = some (f s) := by
  rw [span?_modifySpan, if_pos rfl, h, Option.map_some]

theorem ordinary_modifySpan (w : World ν ε) (r : SpanRef) {f : Span → Span} (hf : ∀ s : Span, s.Annotated (f s)) :
    w.Ordinary (w.modifySpan r f) := by
  refine ⟨⟨rfl, [], by simp [modifySpan]⟩, ⟨rfl, Nat.le_refl _, fun q s hs => ?_⟩, rfl⟩
  rw [span?_modifySpan]
  split
  · exact ⟨f s, by rw [hs, Option.map_some], hf s⟩
  · exact ⟨s, hs, .refl s⟩

end World

end SpanFlow
