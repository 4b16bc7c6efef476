import SpanFlow.Proofs.World.Frame

namespace SpanFlow

variable {ν ε C R : Type} {w : World ν ε}

namespace Activity

theorem moves_modify {f : World ν ε → World ν ε} (h : w.Ordinary (f w)) :
    Act.Moves World.Ordinary (Act.modify f) w :=
  Act.moves_of_done rfl h

theorem moves_emit (e : Event) : Act.Moves World.Ordinary (emit e) w :=
  moves_modify (w.ordinary_note e)

theorem ordinary_now (w : World ν ε) : w.Ordinary { w with used.times := w.used.times + 1 } :=
  .of_eq rfl rfl rfl (Nat.le_refl _) rfl rfl

theorem moves_now : Act.Moves World.Ordinary (now : Activity ν ε Time) w :=
  Act.moves_of_done rfl (ordinary_now w)

theorem moves_newFlag (set : Bool) : Act.Moves World.Ordinary (newFlag set : Activity ν ε FlagRef) w :=
  Act.moves_of_done rfl (.of_eq rfl rfl rfl (Nat.le_refl _) rfl rfl)

theorem moves_openChannel : Act.Moves World.Ordinary (openChannel : Activity ν ε ChannelRef) w :=
  Act.moves_of_done rfl (.of_eq rfl rfl rfl (Nat.le_refl _) rfl rfl)

theorem moves_send (r : ChannelRef) (result : Except TaskError (Option ν)) :
    Act.Moves World.Ordinary (send r result : Activity ν ε Unit) w := by
  refine moves_modify ?_
  split
  · exact .of_eq rfl rfl rfl (Nat.le_refl _) rfl rfl
  · exact .refl w

theorem moves_closeChannel (r : ChannelRef) : Act.Moves World.Ordinary (closeChannel r : Activity ν ε Unit) w := by
  refine moves_modify ?_
  split
  · exact .of_eq rfl rfl rfl (Nat.le_refl _) rfl rfl
  · exact .refl w

end Activity

namespace SpanRef

theorem moves_setTag (r : SpanRef) (k : String) (v : Attribute) :
    Act.Moves World.Ordinary (r.setTag k v) w := by
  refine Activity.moves_modify ?_
  split
  · exact .refl w
  · split
    · exact w.ordinary_note _
    · exact w.ordinary_modifySpan r fun s => .setTag s k v

theorem moves_log (r : SpanRef) (fields : List (String × Attribute)) :
    Act.Moves World.Ordinary (r.log fields) w := by
  refine Activity.moves_now.bind fun now v _ _ => Activity.moves_modify ?_
  split
  · exact .refl v
  · split
    · exact v.ordinary_note _
    · exact v.ordinary_modifySpan r fun s => .addLog s _

theorem ordinary_push (w : World ν ε) (s : Span) : w.Ordinary { w with spans := w.spans.push s } := by
  refine ⟨⟨rfl, [], by simp⟩, ⟨rfl, Nat.le_refl _, fun r t ht => ⟨t, ?_, .refl t⟩⟩, rfl⟩
  obtain ⟨hi, he⟩ := Array.getElem?_eq_some_iff.1 ht
  simp only [World.span?]
  rw [Array.getElem?_eq_some_iff]
  exact ⟨by simp; omega, by rw [Array.getElem_push_lt hi, he]⟩

theorem create_apply (context : Context) (parent : Option SpanId) (name : String) (kind : Kind)
    (reporter : Reporter) (w : World ν ε) :
    ∃ now v, create context parent name kind reporter w = (.done ⟨w.spans.size⟩, v) ∧ w.Ordinary v ∧
      v.span? ⟨w.spans.size⟩ = some (.opened context parent name kind reporter now) := by
  refine ⟨w.supply.times w.used.times, _, rfl, (Activity.ordinary_now w).trans (ordinary_push _ _), ?_⟩
  simp [World.span?]

/-- What closing an open span leaves: that span closed, and its record with the reporter. -/
structure Closed (r : SpanRef) (s : Span) (w v : World ν ε) : Prop where
  steady : w.Steady v
  supply : v.supply = w.supply
  traces : v.used.traces = w.used.traces
  span : ∃ now, v.span? r = some (s.close now) ∧
    (s.reporter = .memory → v.reported = w.reported.push (s.close now).data)
  others : ∀ q, q ≠ r → v.span? q = w.span? q

theorem steady_report (reporter : Reporter) (d : SpanData) (w : World ν ε) :
    ∃ v, report reporter d w = (.done (), v) ∧ w.Steady v ∧ v.supply = w.supply ∧ v.used = w.used ∧
      v.spans = w.spans ∧ (reporter = .memory → v.reported = w.reported.push d) := by
  cases reporter with
  | memory => exact ⟨_, rfl, ⟨rfl, [], by simp⟩, rfl, rfl, rfl, fun _ => rfl⟩
  | null => exact ⟨_, rfl, .refl w, rfl, rfl, rfl, (nomatch ·)⟩
  | logging => exact ⟨_, rfl, (w.ordinary_note _).steady, rfl, rfl, rfl, (nomatch ·)⟩

theorem finish_of_open {r : SpanRef} {s : Span} (hs : w.span? r = some s) (ho : s.isFinished = false) :
    ∃ v, r.finish w = (.done true, v) ∧ Closed r s w v := by
  let now := w.supply.times w.used.times
  let u : World ν ε := { w with used.times := w.used.times + 1 }.modifySpan r (·.close now)
  obtain ⟨v, hv, hsteady, hsupply, hused, hspans, hreport⟩ := steady_report s.reporter (s.close now).data u
  refine ⟨v, ?_, ?_, hsupply, by rw [hused]; rfl, ⟨now, ?_, hreport⟩, fun q hq => ?_⟩
  · have hfinish : r.finish w = (report s.reporter (s.close now).data >>= fun _ => pure true) u := by
      simp only [finish, Act.bind_apply, Act.read, hs, ho]
      rfl
    rw [hfinish, Act.bind_of_done hv]
    rfl
  · have hu : w.Steady u := ⟨rfl, [], by simp [u, World.modifySpan]⟩
    exact hu.trans hsteady
  · rw [World.span?, hspans]
    exact World.span?_modifySpan_self (w := { w with used.times := w.used.times + 1 }) hs _
  · rw [World.span?, hspans]
    have h := World.span?_modifySpan { w with used.times := w.used.times + 1 } r q (·.close now)
    rw [if_neg (Ne.symm hq)] at h
    exact h

theorem finish_of_finished {r : SpanRef} (hs : ∀ s, w.span? r = some s → s.isFinished = true) :
    r.finish w = (.done false, w) := by
  simp only [finish, Act.bind_apply, Act.read]
  cases h : w.span? r with
  | none => rfl
  | some s => simp only [hs s h]; rfl

theorem finish_cases (r : SpanRef) (w : World ν ε) :
    (∃ s v, w.span? r = some s ∧ s.isFinished = false ∧ r.finish w = (.done true, v) ∧ Closed r s w v) ∨
      ((∀ s, w.span? r = some s → s.isFinished = true) ∧ r.finish w = (.done false, w)) := by
  by_cases h : ∃ s, w.span? r = some s ∧ s.isFinished = false
  · obtain ⟨s, hs, ho⟩ := h
    obtain ⟨v, hv, hc⟩ := finish_of_open hs ho
    exact .inl ⟨s, v, hs, ho, hv, hc⟩
  · have hs : ∀ s, w.span? r = some s → s.isFinished = true := by
      intro s hs
      cases ho : s.isFinished with
      | true => rfl
      | false => exact absurd ⟨s, hs, ho⟩ h
    exact .inr ⟨hs, finish_of_finished hs⟩

theorem finish_apply (r : SpanRef) (w : World ν ε) : ∃ b v, r.finish w = (.done b, v) ∧ w.Steady v := by
  rcases r.finish_cases w with ⟨s, v, -, -, hv, hc⟩ | ⟨-, hv⟩
  · exact ⟨true, v, hv, hc.steady⟩
  · exact ⟨false, w, hv, .refl w⟩

end SpanRef

end SpanFlow
