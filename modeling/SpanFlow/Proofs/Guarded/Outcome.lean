import SpanFlow.Proofs.Guarded.Begun
import SpanFlow.Proofs.World.Closing

/-!
How the record of a guarded call tells the call's end. The operation and the hooks are impartial: they
leave alone what a span says of its outcome, and may do to it whatever else they like. Main statement: the
record says that the call failed, with one entry of the library's in the log, exactly if the operation
failed or panicked, or its failure cannot be described; a described failure is on the span before the
hooks for it run.
-/

namespace SpanFlow

variable {ν ε C R E : Type} {w u v x y z : World ν ε} {s : SpanRef} {own : LogRecord → Prop} {t t' : Span}
  {fields : List (String × Attribute)}

/-- The span later on: at most annotated, with the status and the `error` tag that it had, and with no new
entries in its log but own ones of whoever had it. -/
structure Span.Impartial (own : LogRecord → Prop) (t t' : Span) : Prop where
  annotated : t.Annotated t'
  status : t'.status = t.status
  error : t'.tags.get? "error" = t.tags.get? "error"
  logs : ∃ more, t'.logs = t.logs ++ more ∧ ∀ l ∈ more, own l

namespace Span.Impartial

theorem refl (t : Span) : t.Impartial own t := ⟨.refl t, rfl, rfl, [], by simp⟩

theorem trans {r : Span} (h : r.Impartial own t) (g : t.Impartial own t') : r.Impartial own t' := by
  obtain ⟨more, hmore, hown⟩ := h.logs
  obtain ⟨later, hlater, hown'⟩ := g.logs
  refine ⟨h.annotated.trans g.annotated, g.status.trans h.status, g.error.trans h.error, more ++ later, ?_, ?_⟩
  · rw [hlater, hmore, List.append_assoc]
  · simp only [List.mem_append]
    rintro l (hl | hl)
    · exact hown l hl
    · exact hown' l hl

end Span.Impartial

namespace World

structure Impartial (own : LogRecord → Prop) (s : SpanRef) (w v : World ν ε) : Prop where
  active : v.active = w.active
  span : ∀ t, w.span? s = some t → ∃ t', v.span? s = some t' ∧ t.Impartial own t'

theorem Impartial.trans {u v w : World ν ε} (h : u.Impartial own s v) (g : v.Impartial own s w) :
    u.Impartial own s w := by
  refine ⟨g.active.trans h.active, fun t ht => ?_⟩
  obtain ⟨t', ht', htt'⟩ := h.span t ht
  obtain ⟨t'', ht'', ht't''⟩ := g.span t' ht'
  exact ⟨t'', ht'', htt'.trans ht't''⟩

instance : IsPreorder (World ν ε) (Impartial own s) where
  refl _ := ⟨rfl, fun t ht => ⟨t, ht, .refl t⟩⟩
  trans _ _ _ := Impartial.trans

theorem Impartial.spares (h : w.Impartial own s v) : w.Spares s v := by
  refine ⟨h.active, fun t ht => ?_⟩
  obtain ⟨t', ht', himp⟩ := h.span t ht
  exact ⟨t', ht', himp.annotated⟩

theorem impartial_of_spans (hactive : v.active = w.active) (hspans : v.spans = w.spans) : w.Impartial own s v :=
  ⟨hactive, fun t ht => ⟨t, by rwa [span?, hspans], .refl t⟩⟩

theorem impartial_told (w : World ν ε) (es : List Event) : w.Impartial own s (w.told es) := by
  induction es generalizing w with
  | nil => exact refl w
  | cons e es ih => exact (impartial_of_spans rfl rfl : w.Impartial own s (w.note (.event e))).trans (ih _)

end World

theorem Span.impartial_setTag {key : String} (h : key ≠ "error") (value : Attribute) (t : Span) :
    t.Impartial own (t.setTag key value) := by
  by_cases hfinished : t.isFinished = true
  · rw [t.setTag_of_finished hfinished]
    exact .refl t
  · refine ⟨.setTag t key value, ?_, ?_, [], ?_, by simp⟩
    · rw [setTag, if_neg hfinished]
    · rw [setTag, if_neg hfinished]
      exact t.tags.get?_insert_of_ne h value
    · rw [setTag, if_neg hfinished, List.append_nil]

theorem Span.impartial_addLog {l : LogRecord} (h : own l) (t : Span) : t.Impartial own (t.addLog l) := by
  by_cases hfinished : t.isFinished = true
  · rw [t.addLog_of_finished hfinished]
    exact .refl t
  · refine ⟨.addLog t l, ?_, ?_, [l], ?_, by simpa using h⟩ <;> rw [addLog, if_neg hfinished]

theorem World.impartial_modifySpan (w : World ν ε) (r : SpanRef) {f : Span → Span}
    (hf : ∀ t : Span, t.Impartial own (f t)) : w.Impartial own s (w.modifySpan r f) := by
  refine ⟨rfl, fun t ht => ?_⟩
  rw [span?_modifySpan, ht]
  split
  · exact ⟨f t, rfl, hf t⟩
  · exact ⟨t, rfl, .refl t⟩

theorem SpanRef.impartial_setTag (r : SpanRef) {key : String} (h : key ≠ "error") (value : Attribute) :
    Act.Moves (World.Impartial own s) (r.setTag key value) w := by
  refine Act.moves_of_done rfl ?_
  dsimp only
  split
  · exact refl w
  · split
    · exact World.impartial_of_spans rfl rfl
    · exact w.impartial_modifySpan r fun t => t.impartial_setTag h value

theorem SpanRef.impartial_log (r : SpanRef) (h : ∀ time, own ⟨time, .ofList fields⟩) :
    Act.Moves (World.Impartial own s) (r.log fields) w := by
  have hnow : Act.Moves (World.Impartial own s) Activity.now w :=
    Act.moves_of_done rfl (World.impartial_of_spans rfl rfl)
  refine hnow.bind fun now v _ _ => Act.moves_of_done rfl ?_
  dsimp only
  split
  · exact refl v
  · split
    · exact World.impartial_of_spans rfl rfl
    · exact v.impartial_modifySpan r fun t => t.impartial_addLog (h now)

theorem Call.error_not_tag {call : Call} {e : String × Attribute} (he : e ∈ call.tags) : e.1 ≠ "error" := by
  have hmessage (system : MessagingSystem) (destination : String) (key : Option String)
      (h : e ∈ messageTags system destination key) : e.1 ≠ "error" := by
    unfold messageTags at h
    split at h <;> simp only [List.mem_cons, List.not_mem_nil, or_false] at h
    · rcases h with rfl | rfl
      · exact (by decide : "message_bus.destination" ≠ "error")
      · exact (by decide : "amqp.routing_key" ≠ "error")
    · obtain rfl := h
      exact (by decide : "message_bus.destination" ≠ "error")
  cases call with
  | http m u =>
    simp only [tags, List.mem_append, List.mem_cons, List.not_mem_nil, or_false, Option.mem_toList,
      Option.map_eq_some_iff] at he
    rcases he with (rfl | rfl) | ⟨host, -, rfl⟩
    · exact (by decide : "http.method" ≠ "error")
    · exact (by decide : "http.url" ≠ "error")
    · exact (by decide : "peer.hostname" ≠ "error")
  | connection pool inst =>
    simp only [tags, List.mem_cons, Option.mem_toList, Option.map_eq_some_iff] at he
    rcases he with rfl | ⟨i, -, rfl⟩
    · exact (by decide : "pool.name" ≠ "error")
    · exact (by decide : "db.instance" ≠ "error")
  | send system destination key => exact hmessage system destination key he
  | receive system destination key => exact hmessage system destination key he
  | plain name component kind => exact nomatch he

theorem keepsAt_pure (a : R) :
    KeepsAt (World.Impartial own s) id (pure (.ok a) : Activity ν ε (Except Rendered R)) w :=
  ⟨Act.moves_pure _, fun _ _ h => nomatch h⟩

theorem Decorator.impartial_standardTags (call : Call) (r : SpanRef) :
    KeepsAt (World.Impartial own s) id ((standardTags : Decorator ν ε R).preCall call r) w := by
  refine ⟨?_, fun e v h => ?_⟩
  · refine (SpanRef.impartial_setTag r (by decide) _).bind fun _ u _ _ => ?_
    refine (SpanRef.impartial_setTag r (by decide) _).bind fun _ v _ _ => ?_
    have htags : Act.Moves (World.Impartial own s) (Act.each (fun e => r.setTag e.1 e.2) call.tags) v :=
      Act.moves_each _ call.tags fun e he x _ => SpanRef.impartial_setTag r (Call.error_not_tag he) e.2
    exact htags.bind fun _ _ _ _ => Act.moves_pure _
  · obtain ⟨_, _, -, h⟩ := Act.bind_eq_done h
    obtain ⟨_, _, -, h⟩ := Act.bind_eq_done h
    obtain ⟨_, _, -, h⟩ := Act.bind_eq_done h
    cases h

structure Span.Unmarked (own : LogRecord → Prop) (t : Span) : Prop where
  isOpen : t.isFinished = false
  status : t.status = .unset
  error : t.tags.get? "error" = none
  logs : ∀ l ∈ t.logs, own l

structure Span.Marked (own : LogRecord → Prop) (fields : List (String × Attribute)) (t : Span) : Prop where
  isOpen : t.isFinished = false
  status : t.status = .unset
  error : t.tags.get? "error" = some (.bool true)
  logs : ∃ before time after, t.logs = before ++ ⟨time, .ofList fields⟩ :: after ∧ ∀ l ∈ before ++ after, own l

/-- The record of a span that ended well; the entries of the log are own ones of the code in the span. -/
structure SpanData.Succeeded (own : LogRecord → Prop) (d : SpanData) : Prop where
  status : d.status = .ok
  error : d.tag? "error" = none
  logs : ∀ l ∈ d.logs, own l

/-- The record of a span that failed; besides own entries of the code in the span, the log has one entry,
with these fields. -/
structure SpanData.Failed (own : LogRecord → Prop) (fields : List (String × Attribute)) (d : SpanData) : Prop where
  status : d.status = .error
  error : d.tag? "error" = some (.bool true)
  logs : ∃ before time after, d.logs = before ++ ⟨time, .ofList fields⟩ :: after ∧ ∀ l ∈ before ++ after, own l

namespace Span

theorem Unmarked.impartial (h : t.Unmarked own) (himp : t.Impartial own t') : t'.Unmarked own := by
  obtain ⟨more, hmore, hown⟩ := himp.logs
  refine ⟨himp.annotated.isFinished_eq.trans h.isOpen, himp.status.trans h.status, himp.error.trans h.error, ?_⟩
  rw [hmore]
  simp only [List.mem_append]
  rintro l (hl | hl)
  · exact h.logs l hl
  · exact hown l hl

theorem Marked.impartial (h : t.Marked own fields) (himp : t.Impartial own t') : t'.Marked own fields := by
  obtain ⟨more, hmore, hown⟩ := himp.logs
  obtain ⟨before, time, after, hlogs, hothers⟩ := h.logs
  refine ⟨himp.annotated.isFinished_eq.trans h.isOpen, himp.status.trans h.status, himp.error.trans h.error,
    before, time, after ++ more, ?_, ?_⟩
  · rw [hmore, hlogs, List.append_assoc, List.cons_append]
  · rw [← List.append_assoc]
    simp only [List.mem_append] at hothers ⊢
    rintro l (hl | hl)
    · exact hothers l hl
    · exact hown l hl

theorem close_of_open (h : t.isFinished = false) (now : Time) :
    t.close now = { t with status := t.finalStatus, stop := some now } := by
  rw [close, h, if_neg Bool.false_ne_true]

theorem Unmarked.succeeded (h : t.Unmarked own) (now : Time) : (t.close now).data.Succeeded own := by
  rw [close_of_open h.isOpen]
  refine ⟨?_, h.error, h.logs⟩
  simp [data, finalStatus, h.status, h.error]

theorem Marked.failed (h : t.Marked own fields) (now : Time) : (t.close now).data.Failed own fields := by
  rw [close_of_open h.isOpen]
  refine ⟨?_, h.error, h.logs⟩
  simp [data, finalStatus, h.status, h.error]

end Span

namespace SpanRef

def mark (r : SpanRef) (fields : List (String × Attribute)) : Activity ν ε Unit := do
  r.setTag "error" (.bool true)
  r.log fields

theorem setTag_of_open (ht : w.span? s = some t) (ho : t.isFinished = false) (key : String) (value : Attribute) :
    s.setTag key value w = (.done (), w.modifySpan s (·.setTag key value)) := by
  simp only [setTag, Act.modify, ht, ho, Bool.false_eq_true, if_false]

theorem log_of_open (ht : w.span? s = some t) (ho : t.isFinished = false) (fields : List (String × Attribute)) :
    s.log fields w = (.done (), { w with used.times := w.used.times + 1 }.modifySpan s
      (·.addLog ⟨w.supply.times w.used.times, .ofList fields⟩)) := by
  let u : World ν ε := { w with used.times := w.used.times + 1 }
  have hu : u.span? s = some t := ht
  have hnow : Activity.now w = (.done (w.supply.times w.used.times), u) := rfl
  rw [log, Act.bind_of_done hnow]
  simp only [Act.modify, hu, ho, Bool.false_eq_true, if_false]
  rfl

theorem mark_apply (ht : w.span? s = some t) (h : t.Unmarked own) (fields : List (String × Attribute)) :
    ∃ v t' time, s.mark fields w = (.done (), v) ∧ v.active = w.active ∧ v.span? s = some t' ∧ t.Annotated t' ∧
      t'.Marked own fields ∧ t'.logs = t.logs ++ [⟨time, .ofList fields⟩] := by
  let u := w.modifySpan s (·.setTag "error" (.bool true))
  have hu : u.span? s = some (t.setTag "error" (.bool true)) := World.span?_modifySpan_self ht _
  have htag : t.setTag "error" (.bool true) = { t with tags := t.tags.insert "error" (.bool true) } := by
    rw [Span.setTag, h.isOpen, if_neg Bool.false_ne_true]
  rw [htag] at hu
  have hlog : Span.addLog { t with tags := t.tags.insert "error" (.bool true) }
        ⟨w.supply.times w.used.times, .ofList fields⟩ =
      { t with tags := t.tags.insert "error" (.bool true),
               logs := t.logs ++ [⟨w.supply.times w.used.times, .ofList fields⟩] } :=
    if_neg (by simp [Span.isFinished, show t.stop.isSome = false from h.isOpen])
  refine ⟨_, _, w.supply.times w.used.times,
    (Act.bind_of_done (setTag_of_open ht h.isOpen _ _)).trans (log_of_open hu h.isOpen fields), rfl,
    (World.span?_modifySpan_self (w := { u with used.times := u.used.times + 1 }) hu _).trans
      (congrArg some hlog), ⟨rfl, rfl, rfl, rfl, rfl, rfl, rfl⟩, ⟨h.isOpen, h.status, ?_, ?_⟩, rfl⟩
  · exact t.tags.get?_insert_self "error" _
  · exact ⟨t.logs, _, [], rfl, by simpa using h.logs⟩

end SpanRef

theorem Tracer.unmarked_start {t : Tracer C} {name : String} {kind : Kind} {parent : Option Context}
    (h : t.start name kind parent w = (.done s, v)) : ∃ r, v.span? s = some r ∧ r.Unmarked own := by
  rw [start_eq] at h
  obtain ⟨id, x, -, h⟩ := Act.bind_eq_done h
  obtain ⟨c, y, -, h⟩ := Act.bind_eq_done h
  obtain ⟨q, z, hcreate, h⟩ := Act.bind_eq_done h
  obtain ⟨⟨⟩, z', htag, h⟩ := Act.bind_eq_done h
  cases h
  obtain ⟨now, z₁, hz₁, -, hspan⟩ := SpanRef.create_apply c (parent.map Context.span) name kind t.reporter y
  rw [hcreate] at hz₁
  cases hz₁
  unfold tagService at htag
  cases hservice : t.service with
  | none =>
    simp only [hservice] at htag
    cases htag
    exact ⟨_, hspan, rfl, rfl, rfl, by simp [Span.opened]⟩
  | some service =>
    simp only [hservice] at htag
    cases (SpanRef.setTag_of_open hspan rfl "service.name" (.text service)).symm.trans htag
    refine ⟨_, World.span?_modifySpan_self hspan _, rfl, rfl, ?_,
      by simp [Span.setTag, Span.opened, Span.isFinished]⟩
    exact KeyMap.get?_insert_of_ne _ (by decide) _

def DecoratorChain.Impartial (own : LogRecord → Prop) (s : SpanRef) (hook : String)
    (invoke : Decorator ν ε R → Activity ν ε (Except Rendered Unit)) (chain : DecoratorChain ν ε R) (w : World ν ε) :
    Prop :=
  chain.Each (fun d v => (∃ text, d.name = .ok text) ∧ KeepsAt (World.Impartial own s) id (invoke d) v) hook invoke w

theorem DecoratorChain.Impartial.passes {hook : String}
    {invoke : Decorator ν ε R → Activity ν ε (Except Rendered Unit)} {chain : DecoratorChain ν ε R}
    (h : chain.Impartial own s hook invoke w) : ∃ n v, chain.Passes hook invoke w n v ∧ w.Impartial own s v :=
  passes_of_each World.impartial_told h

theorem DecoratorChain.impartial_of_forall {hook : String}
    {invoke : Decorator ν ε R → Activity ν ε (Except Rendered Unit)} {chain : DecoratorChain ν ε R}
    (h : ∀ d ∈ chain, (∃ text, d.name = .ok text) ∧ ∀ v, KeepsAt (World.Impartial own s) id (invoke d) v) :
    chain.Impartial own s hook invoke w := by
  rintro before d after n v rfl -
  obtain ⟨hname, hkeeps⟩ := h d (by simp)
  exact ⟨hname, hkeeps v⟩

namespace Interceptor

def failureFields (f : FailureInfo) : List (String × Attribute) :=
  [("event", .text "error"), ("error.kind", .text f.kind), ("error.object", .text f.typeName), ("message", .text f.message)]

def panicFields : List (String × Attribute) :=
  [("event", .text "error"), ("message", .text "guarded call panicked")]

theorem recordPanic_eq (s : SpanRef) : (recordPanic s : Activity ν ε Unit) = s.mark panicFields := rfl

theorem unmarked_startSpan {i : Interceptor ν ε C R} {call : Call} {choice : ParentChoice}
    (h : i.startSpan call choice w = (.done s, u)) : ∃ t, u.span? s = some t ∧ t.Unmarked own := by
  obtain ⟨parent, hstart⟩ : ∃ parent, i.tracer.start call.name call.kind parent w = (.done s, u) := by
    cases choice with
    | active => exact ⟨w.activeContext, h⟩
    | root => exact ⟨none, h⟩
    | context c => exact ⟨c, h⟩
  exact Tracer.unmarked_start hstart

section Call

variable [Describable E] {i : Interceptor ν ε C R} {call : Call} {choice : ParentChoice}
  {op : SpanRef → Activity ν ε (Except E R)} {n : Nat} {e : E} {p : Payload}

/-- In this call the operation and the hooks are impartial, whenever the call comes to them. -/
structure Impartial (own : LogRecord → Prop) (i : Interceptor ν ε C R) (call : Call) (choice : ParentChoice)
    (op : SpanRef → Activity ν ε (Except E R)) (w : World ν ε) : Prop where
  preCall : ∀ s u, i.startSpan call choice w = (.done s, u) →
    i.decorators.Impartial own s "on_pre_call" (fun d => d.preCall call s) (u.entered s)
  operation : ∀ s t u n v, i.Begun call choice w s t u n v → Act.Moves (World.Impartial own s) (op s) v
  postCall : ∀ s t u n v r x, i.Begun call choice w s t u n v → op s v = (.done (.ok r), x) →
    i.decorators.Impartial own s "on_post_call" (fun d => d.postCall call r s) x
  onError : ∀ s t u n v e text x z, i.Begun call choice w s t u n v → op s v = (.done (.error e), x) →
    Describable.message e = .ok text → recordFailure s ⟨Describable.typeName e, text⟩ x = (.done (), z) →
    i.decorators.Impartial own s "on_error" (fun d => d.onError call ⟨Describable.typeName e, text⟩ s) z

theorem Impartial.begun (h : i.Impartial own call choice op w) :
    ∃ s t u n v, i.Begun call choice w s t u n v ∧ (u.entered s).Impartial own s v := by
  obtain ⟨u, t, hs, hord, ht, hstarted⟩ := i.startSpan_apply call choice w
  obtain ⟨n, v, hpasses, hv⟩ := (h.preCall _ u hs).passes
  exact ⟨_, t, u, n, v, ⟨hs, hord, by simp [World.span?], ht, hstarted, hpasses⟩, hv⟩

/-- The span is closed and this is its record; the last thing that happened is that its reporter got it. -/
def Delivers (i : Interceptor ν ε C R) (s : SpanRef) (d : SpanData) (w : World ν ε) : Prop :=
  ∃ t z, w.span? s = some t ∧ t.isFinished = true ∧ t.data = d ∧
    w = SpanRef.received (SpanRef.shut s z) d i.tracer.reporter

theorem delivers_of_finish {r : Span} (ht : w.span? s = some t) (ho : t.isFinished = false) (hrt : r.Annotated t)
    (hr : r.reporter = i.tracer.reporter) (hf : s.finish w = (.done true, v)) :
    ∃ now, i.Delivers s (t.close now).data v := by
  rw [SpanRef.finish_eq_of_open ht ho, hrt.reporter, hr] at hf
  cases hf
  refine ⟨w.supply.times w.used.times, _, w, ?_, t.isFinished_close _, rfl, rfl⟩
  rw [World.span?, SpanRef.spans_received]
  have hshut := SpanRef.span?_shut s s w
  rwa [if_pos rfl, ht] at hshut

theorem closeUnwound_active (s : SpanRef) (w : World ν ε) :
    closeUnwound .spanActive s w = (recordPanic s >>= fun _ => s.finish >>= fun _ => pure ()) w := rfl

theorem operate_of_undescribed (hpre : i.decorators.preCall call s w = (.done n, u))
    (hop : op s u = (.done (.error e), v)) (hp : Describable.message e = .error p) :
    i.operate call op s w = (.panic p, v) := by
  have hdescribe : describe e v = (.panic p, v) := by
    rw [describe, hp]
    rfl
  rw [operate, operateUnder, Act.bind_of_done hpre, Act.bind_of_done hop]
  exact Act.bind_of_panic hdescribe

namespace Begun

theorem unwound (h : i.Begun call choice w s t u n v) (ho : i.operate call op s (u.entered s) = (.panic p, x))
    (hx : (u.entered s).Impartial own s x) (ht : t.Unmarked own) :
    (i.trace call choice op w).1 = .panic p ∧
      ∃ d, i.Delivers s d (i.trace call choice op w).2 ∧ d.Failed own panicFields := by
  obtain ⟨t₁, ht₁, himp⟩ := hx.span t h.span
  obtain ⟨z, t₂, -, hz, -, ht₂, hann, hmarked, -⟩ :=
    SpanRef.mark_apply (w := x.left ⟨u.active, s⟩) ht₁ (ht.impartial himp) panicFields
  obtain ⟨y, hy, htrace⟩ := trace_unwinds h.start ho hx.active
  rw [closeUnwound_active, recordPanic_eq, Act.bind_of_done hz] at hy
  obtain ⟨b, y', hf, hlast⟩ := Act.bind_eq_done hy
  cases hlast
  have hb : b = true := by
    rw [SpanRef.finish_eq_of_open ht₂ hmarked.isOpen] at hf
    cases hf
    rfl
  subst hb
  obtain ⟨now, hdelivers⟩ := delivers_of_finish ht₂ hmarked.isOpen (himp.annotated.trans hann) h.started.reporter hf
  rw [htrace]
  exact ⟨rfl, _, hdelivers, hmarked.failed now⟩

theorem returned (h : i.Begun call choice w s t u n v) {r : R} (hop : op s v = (.done (.ok r), x))
    (hx : (u.entered s).Impartial own s x)
    (hpost : i.decorators.Impartial own s "on_post_call" (fun d => d.postCall call r s) x) (ht : t.Unmarked own) :
    (i.trace call choice op w).1 = .done (.ok r) ∧
      ∃ d, i.Delivers s d (i.trace call choice op w).2 ∧ d.Succeeded own := by
  obtain ⟨m, y, hpasses, hy⟩ := hpost.passes
  have hm : i.decorators.postCall call r s x = (.done m, y) := hpasses.run_eq
  obtain ⟨hf, hexit⟩ :=
    h.trace_concluded (operate_of_ok h.count hop) hx.spares (Act.bind_of_done hm) hy.spares
  obtain ⟨t₁, ht₁, himp⟩ := (hx.trans hy).span t h.span
  have hunmarked : t₁.Unmarked own := ht.impartial himp
  obtain ⟨now, hdelivers⟩ := delivers_of_finish (w := y.left ⟨u.active, s⟩) ht₁ hunmarked.isOpen himp.annotated
    h.started.reporter hf
  exact ⟨hexit, _, hdelivers, hunmarked.succeeded now⟩

theorem failed (h : i.Begun call choice w s t u n v) {text : String} (hop : op s v = (.done (.error e), x))
    (hx : (u.entered s).Impartial own s x) (htext : Describable.message e = .ok text)
    (herr : ∀ z, recordFailure s ⟨Describable.typeName e, text⟩ x = (.done (), z) →
      i.decorators.Impartial own s "on_error" (fun d => d.onError call ⟨Describable.typeName e, text⟩ s) z)
    (ht : t.Unmarked own) :
    (i.trace call choice op w).1 = .done (.error e) ∧
      (∃ d, i.Delivers s d (i.trace call choice op w).2 ∧
        d.Failed own (failureFields ⟨Describable.typeName e, text⟩)) ∧
      ∃ z t₁ t₂ time m y, x.span? s = some t₁ ∧ z.span? s = some t₂ ∧ t₂.tags.get? "error" = some (.bool true) ∧
        t₂.logs = t₁.logs ++ [⟨time, .ofList (failureFields ⟨Describable.typeName e, text⟩)⟩] ∧
        i.decorators.Passes "on_error" (fun d => d.onError call ⟨Describable.typeName e, text⟩ s) z m y ∧
        s.finish (y.left ⟨u.active, s⟩) = (.done true, (i.trace call choice op w).2) := by
  obtain ⟨t₁, ht₁, himp⟩ := hx.span t h.span
  obtain ⟨z, t₂, time, hz, hactive, ht₂, hann, hmarked, hlogs⟩ :=
    SpanRef.mark_apply ht₁ (ht.impartial himp) (failureFields ⟨Describable.typeName e, text⟩)
  obtain ⟨m, y, hpasses, hy⟩ := (herr z hz).passes
  have hm : i.decorators.onError call ⟨Describable.typeName e, text⟩ s z = (.done m, y) := hpasses.run_eq
  have hz' : (u.entered s).Spares s z := by
    refine ⟨hactive.trans hx.active, fun r hr => ?_⟩
    rw [show (u.entered s).span? s = some t from h.span] at hr
    cases hr
    exact ⟨t₂, ht₂, himp.annotated.trans hann⟩
  obtain ⟨hf, hexit⟩ :=
    h.trace_concluded (operate_of_error h.count hop htext hz) hz' (Act.bind_of_done hm) hy.spares
  obtain ⟨t₃, ht₃, himp'⟩ := hy.span t₂ ht₂
  have hmarked' : t₃.Marked own (failureFields ⟨Describable.typeName e, text⟩) := hmarked.impartial himp'
  obtain ⟨now, hdelivers⟩ := delivers_of_finish (w := y.left ⟨u.active, s⟩) ht₃ hmarked'.isOpen
    ((himp.annotated.trans hann).trans himp'.annotated) h.started.reporter hf
  exact ⟨hexit, ⟨_, hdelivers, hmarked'.failed now⟩, z, t₁, t₂, time, m, y, ht₁, ht₂, hmarked.error, hlogs, hpasses, hf⟩

end Begun

inductive OperationEnd (E R : Type) where
  | returned (r : R)
  | failed (e : E) (text : String)
  | panicked (p : Payload)

namespace OperationEnd

def of? : Exit (Except E R) → Option (OperationEnd E R)
  | .done (.ok r) => some (.returned r)
  | .done (.error e) =>
    match Describable.message e with
    | .ok text => some (.failed e text)
    | .error p => some (.panicked p)
  | .panic p => some (.panicked p)
  | .abort => none

def exit : OperationEnd E R → Exit (Except E R)
  | .returned r => .done (.ok r)
  | .failed e _ => .done (.error e)
  | .panicked p => .panic p

theorem of?_error_of_ok {text : String} (h : Describable.message e = .ok text) :
    of? (.done (.error e) : Exit (Except E R)) = some (.failed e text) := by
  rw [of?, h]

theorem of?_error_of_error (h : Describable.message e = .error p) :
    of? (.done (.error e) : Exit (Except E R)) = some (.panicked p) := by
  rw [of?, h]

end OperationEnd

def Tells (own : LogRecord → Prop) (d : SpanData) : OperationEnd E R → Prop
  | .returned _ => d.Succeeded own
  | .failed e text => d.Failed own (failureFields ⟨Describable.typeName e, text⟩)
  | .panicked _ => d.Failed own panicFields

/-- A guarded call whose operation and hooks are impartial ends as its operation does; its span is closed
and reported then. The record is that of a success if the operation returned, and has no entry of the
library's in its log. Otherwise it is that of a failure, with one entry of the library's in the log: for a
failure that can be described its description, for a panic that there was one. Such a failure was told on
the span, and nothing else was, between the operation's end and the hooks for it, which ran from `z` on. -/
theorem outcome_reported (h : i.Impartial own call choice op w) :
    ∃ s t u n v way d, i.Begun call choice w s t u n v ∧ OperationEnd.of? (op s v).1 = some way ∧
      (i.trace call choice op w).1 = way.exit ∧ i.Delivers s d (i.trace call choice op w).2 ∧ Tells own d way ∧
      ∀ e text, way = .failed e text → ∃ x z t₁ t₂ time m y, op s v = (.done (.error e), x) ∧
        x.span? s = some t₁ ∧ z.span? s = some t₂ ∧ t₂.tags.get? "error" = some (.bool true) ∧
        t₂.logs = t₁.logs ++ [⟨time, .ofList (failureFields ⟨Describable.typeName e, text⟩)⟩] ∧
        i.decorators.Passes "on_error" (fun d => d.onError call ⟨Describable.typeName e, text⟩ s) z m y ∧
        s.finish (y.left ⟨u.active, s⟩) = (.done true, (i.trace call choice op w).2) := by
  obtain ⟨s, t, u, n, v, hb, hv⟩ := h.begun
  obtain ⟨t', ht', hunmarked⟩ : ∃ t', u.span? s = some t' ∧ t'.Unmarked own := unmarked_startSpan hb.start
  obtain rfl : t = t' := Option.some.inj (hb.span.symm.trans ht')
  rcases (h.operation s t u n v hb).cases with ⟨r | r, x, hop, hx⟩ | ⟨p, x, hop, hx⟩
  · cases htext : Describable.message r with
    | ok text =>
      obtain ⟨hexit, ⟨d, hd, hfailed⟩, z, t₁, t₂, time, m, y, hbefore⟩ := hb.failed hop (hv.trans hx) htext
        (fun z hz => h.onError s t u n v r text x z hb hop htext hz) hunmarked
      refine ⟨s, t, u, n, v, .failed r text, d, hb, ?_, hexit, hd, hfailed, ?_⟩
      · rw [hop, OperationEnd.of?_error_of_ok htext]
      · rintro e' text' ⟨⟩
        exact ⟨x, z, t₁, t₂, time, m, y, hop, hbefore⟩
    | error p =>
      obtain ⟨hexit, d, hd, hfailed⟩ := hb.unwound (operate_of_undescribed hb.count hop htext) (hv.trans hx) hunmarked
      refine ⟨s, t, u, n, v, .panicked p, d, hb, ?_, hexit, hd, hfailed, fun e text hway => nomatch hway⟩
      rw [hop, OperationEnd.of?_error_of_error htext]
  · obtain ⟨hexit, d, hd, hsucceeded⟩ := hb.returned hop (hv.trans hx)
      (h.postCall s t u n v r x hb hop) hunmarked
    refine ⟨s, t, u, n, v, .returned r, d, hb, ?_, hexit, hd, hsucceeded, fun e text hway => nomatch hway⟩
    rw [hop]
    rfl
  · obtain ⟨hexit, d, hd, hfailed⟩ := hb.unwound (operate_of_panic hb.count hop) (hv.trans hx) hunmarked
    refine ⟨s, t, u, n, v, .panicked p, d, hb, ?_, hexit, hd, hfailed, fun e text hway => nomatch hway⟩
    rw [hop]
    rfl

instance : Describable FailureInfo := ⟨FailureInfo.typeName, fun f => .ok f.message⟩

/-- An operation that writes on its span and fails, and a hook that writes on it and panics. -/
theorem outcome_reported_noted :
    let d : Decorator Unit Unit Unit :=
      { Decorator.quiet (.ok "notes") with
        onError := fun _ _ s => do
          s.log [("event", .text "seen")]
          Act.panic .other }
    let i : Interceptor Unit Unit (KeyMap String) Unit :=
      ⟨{ Tracer.default with service := some "shop", reporter := .memory }, [.standardTags, d]⟩
    let f : FailureInfo := ⟨"shop::Timeout", "late"⟩
    let op : SpanRef → Activity Unit Unit (Except FailureInfo Unit) := fun s => do
      s.log [("event", .text "retry")]
      return .error f
    let own : LogRecord → Prop := fun l => l.fields.get? "event" ≠ some (.text "error")
    let call := Call.plain "pay" "test" .client
    let w := World.initial .constant ()
    i.Impartial own call .root op w ∧ (i.trace call .root op w).1 = .done (.error f) ∧
      ∃ s d, i.Delivers s d (i.trace call .root op w).2 ∧ d.Failed own (failureFields f) := by
  intro d i f op own call w
  have hlog (text : String) (h : text ≠ "error") (s : SpanRef) (v : World Unit Unit) :
      Act.Moves (World.Impartial own s) (s.log [("event", .text text)]) v :=
    SpanRef.impartial_log s fun time => by simp [own, KeyMap.ofList, h]
  have himpartial : i.Impartial own call .root op w := by
    refine ⟨fun s u _ => DecoratorChain.impartial_of_forall fun d' hd' => ?_,
      fun s t u n v _ => (hlog "retry" (by decide) s v).bind fun _ _ _ _ => Act.moves_pure _,
      fun s t u n v r x _ _ => DecoratorChain.impartial_of_forall fun d' hd' => ?_,
      fun s t u n v e text x z _ _ _ _ => DecoratorChain.impartial_of_forall fun d' hd' => ?_⟩
    all_goals obtain rfl | rfl := List.mem_pair.1 hd'
    · exact ⟨⟨_, rfl⟩, fun v => Decorator.impartial_standardTags call s⟩
    · exact ⟨⟨_, rfl⟩, fun v => keepsAt_pure ()⟩
    · exact ⟨⟨_, rfl⟩, fun v => keepsAt_pure ()⟩
    · exact ⟨⟨_, rfl⟩, fun v => keepsAt_pure ()⟩
    · exact ⟨⟨_, rfl⟩, fun v => keepsAt_pure ()⟩
    · refine ⟨⟨_, rfl⟩, fun v => ⟨(hlog "seen" (by decide) s v).bind fun _ _ _ _ => Act.moves_panic _, fun e x h => ?_⟩⟩
      obtain ⟨_, _, -, h⟩ := Act.bind_eq_done h
      cases h
  obtain ⟨s, t, u, n, v, way, d', -, hway, hexit, hd, htells, -⟩ := outcome_reported himpartial
  have hop : (op s v).1 = .done (.error f) := rfl
  rw [hop] at hway
  cases hway
  exact ⟨himpartial, hexit, s, d', hd, htells⟩

end Call

end Interceptor

end SpanFlow
