import Mathlib.Data.List.Induction
import SpanFlow.Proofs.World.Closing

/-!
Dealings with spans. Any number of handles to any number of spans are used in any order; what is done
through them is kept as a history, with the time and the answer of every call. Main statement: of each
span only the first finish closes it, the reporter gets one record for it, this record is what the history
up to there makes of the span, and it is what the span shows ever after.
-/

namespace SpanFlow

variable {ν ε α : Type} {w v u : World ν ε} {r : SpanRef}

inductive SpanCall where
  | setTag (key : String) (value : Attribute)
  | log (fields : List (String × Attribute))
  | logEvent (event : String)
  | setStatus (status : Status)
  | finish
  | toData
  deriving DecidableEq

inductive SpanAnswer where
  | nothing
  | closed (now : Bool)
  | data (d : Option SpanData)
  deriving DecidableEq

namespace SpanCall

def perform (r : SpanRef) : SpanCall → Activity ν ε SpanAnswer
  | .setTag key value => do
    r.setTag key value
    return .nothing
  | .log fields => do
    r.log fields
    return .nothing
  | .logEvent event => do
    r.logEvent event
    return .nothing
  | .setStatus status => do
    r.setStatus status
    return .nothing
  | .finish => do
    let closed ← r.finish
    return .closed closed
  | .toData => do
    let d ← Act.read fun w => (w.span? r).map Span.data
    return .data d

def apply (time : Time) : SpanCall → Span → Span
  | .setTag key value, s => s.setTag key value
  | .log fields, s => s.addLog ⟨time, .ofList fields⟩
  | .logEvent event, s => s.addLog ⟨time, .ofList [("event", .text event)]⟩
  | .setStatus status, s => s.setStatus status
  | .finish, s => s.close time
  | .toData, s => s

def answer : SpanCall → Span → SpanAnswer
  | .finish, s => .closed !s.isFinished
  | .toData, s => .data (some s.data)
  | _, _ => .nothing

theorem apply_of_finished {s : Span} (h : s.isFinished = true) (time : Time) (c : SpanCall) : c.apply time s = s := by
  cases c with
  | setTag key value => exact Span.setTag_of_finished h key value
  | log fields => exact Span.addLog_of_finished h _
  | logEvent event => exact Span.addLog_of_finished h _
  | setStatus status => exact Span.setStatus_of_finished h status
  | finish => exact Span.close_of_finished h time
  | toData => rfl

theorem answer_eq_closed {c : SpanCall} {s : Span} (h : c.answer s = .closed true) :
    c = .finish ∧ s.isFinished = false := by
  cases c <;> simp_all [answer]

theorem apply_annotated (s : Span) (time : Time) {c : SpanCall} (h : c ≠ .finish) : s.Annotated (c.apply time s) := by
  cases c with
  | setTag key value => exact .setTag s key value
  | log fields => exact .addLog s _
  | logEvent event => exact .addLog s _
  | setStatus status => exact s.setStatus_annotated status
  | finish => exact absurd rfl h
  | toData => exact .refl s

end SpanCall

/-- A call that was made through a handle, with what the clock showed before it and what it answered. -/
structure Dealing where
  span : SpanRef
  call : SpanCall
  time : Time
  answer : SpanAnswer
  deriving DecidableEq

namespace Dealing

def performAll : List (SpanRef × SpanCall) → Activity ν ε (List Dealing)
  | [] => pure []
  | (r, c) :: calls => do
    let time ← Act.read fun w => w.supply.times w.used.times
    let answer ← c.perform r
    let rest ← performAll calls
    return ⟨r, c, time, answer⟩ :: rest

def finishes (r : SpanRef) (e : Dealing) : Bool :=
  e.span = r ∧ e.call = .finish

def closes (e : Dealing) : Bool :=
  e.answer = .closed true

def tag? (r : SpanRef) (key : String) (e : Dealing) : Option Attribute :=
  match e.call with
  | .setTag k value => if e.span = r ∧ k = key then some value else none
  | _ => none

def record? (r : SpanRef) (e : Dealing) : Option LogRecord :=
  match e.call with
  | .log fields => if e.span = r then some ⟨e.time, .ofList fields⟩ else none
  | .logEvent event => if e.span = r then some ⟨e.time, .ofList [("event", .text event)]⟩ else none
  | _ => none

def status? (r : SpanRef) (e : Dealing) : Option Status :=
  match e.call with
  | .setStatus status => if e.span = r then some status else none
  | _ => none

def last? (f : Dealing → Option α) (es : List Dealing) : Option α :=
  (es.filterMap f).getLast?

theorem last?_snoc (f : Dealing → Option α) (es : List Dealing) (e : Dealing) :
    last? f (es ++ [e]) = (f e).or (last? f es) := by
  unfold last?
  cases h : f e <;> simp [h]

end Dealing

namespace Span

def IsNew (s : Span) : Prop :=
  s = opened s.context s.parent s.name s.kind s.reporter s.start

/-- What a history makes of the span `r`. -/
def replay (r : SpanRef) (es : List Dealing) (s : Span) : Span :=
  es.foldl (fun s e => if e.span = r then e.call.apply e.time s else s) s

theorem replay_append (r : SpanRef) (es fs : List Dealing) (s : Span) :
    s.replay r (es ++ fs) = (s.replay r es).replay r fs :=
  List.foldl_append

theorem replay_snoc (r : SpanRef) (es : List Dealing) (e : Dealing) (s : Span) :
    s.replay r (es ++ [e]) = if e.span = r then e.call.apply e.time (s.replay r es) else s.replay r es :=
  replay_append r es [e] s

theorem replay_of_finished {s : Span} (h : s.isFinished = true) (r : SpanRef) (es : List Dealing) :
    s.replay r es = s := by
  induction es with
  | nil => rfl
  | cons e es ih =>
    calc s.replay r (e :: es) = (if e.span = r then e.call.apply e.time s else s).replay r es := rfl
      _ = s.replay r es := by rw [SpanCall.apply_of_finished h, ite_self]
      _ = s := ih

theorem replay_of_finish {e : Dealing} (h : e.call = .finish) (s : Span) (before after : List Dealing) :
    s.replay e.span (before ++ e :: after) = (s.replay e.span before).close e.time := by
  calc s.replay e.span (before ++ e :: after)
      = (s.replay e.span (before ++ [e])).replay e.span after := by rw [List.append_cons, replay_append]
    _ = ((s.replay e.span before).close e.time).replay e.span after := by rw [replay_snoc, if_pos rfl, h]; rfl
    _ = (s.replay e.span before).close e.time := replay_of_finished (isFinished_close _ _) _ _

/-- What the writes of a history make of a new span, as long as it is not finished. -/
structure Written (s : Span) (r : SpanRef) (es : List Dealing) (t : Span) : Prop where
  annotated : s.Annotated t
  tags : ∀ key, t.tags.get? key = Dealing.last? (Dealing.tag? r key) es
  logs : t.logs = es.filterMap (Dealing.record? r)
  status : t.status = (Dealing.last? (Dealing.status? r) es).getD .unset

theorem IsNew.written {s : Span} (h : s.IsNew) (r : SpanRef) : s.Written r [] s := by
  rw [IsNew] at h
  rw [h]
  exact ⟨.refl _, fun _ => rfl, rfl, rfl⟩

theorem Written.isFinished_eq {s t : Span} {es : List Dealing} (h : s.Written r es t) (hs : s.IsNew) :
    t.isFinished = false := by
  rw [h.annotated.isFinished_eq, hs]
  rfl

theorem Written.other {s t : Span} {es : List Dealing} {e : Dealing} (h : s.Written r es t) (he : e.span ≠ r) :
    s.Written r (es ++ [e]) t where
  annotated := h.annotated
  tags key := by
    have hnone : e.tag? r key = none := by
      unfold Dealing.tag?
      split <;> simp [he]
    rw [Dealing.last?_snoc, hnone, h.tags, Option.none_or]
  logs := by
    have hnone : e.record? r = none := by
      unfold Dealing.record?
      split <;> simp [he]
    simp [h.logs, hnone]
  status := by
    have hnone : e.status? r = none := by
      unfold Dealing.status?
      split <;> simp [he]
    rw [Dealing.last?_snoc, hnone, h.status, Option.none_or]

theorem Written.apply {s t : Span} {es : List Dealing} {c : SpanCall} (h : s.Written r es t) (hs : s.IsNew)
    (hc : c ≠ .finish) (time : Time) (a : SpanAnswer) :
    s.Written r (es ++ [⟨r, c, time, a⟩]) (c.apply time t) := by
  have hopen := h.isFinished_eq hs
  have hann : s.Annotated (c.apply time t) := h.annotated.trans (SpanCall.apply_annotated t time hc)
  cases c with
  | setTag key value =>
    refine ⟨hann, fun k => ?_, ?_, ?_⟩
    · by_cases hk : key = k
      · simp [SpanCall.apply, setTag, hopen, Dealing.last?_snoc, Dealing.tag?, hk]
      · simp [SpanCall.apply, setTag, hopen, Dealing.last?_snoc, Dealing.tag?, hk, KeyMap.get?_insert_of_ne, h.tags]
    · simp [SpanCall.apply, setTag, hopen, Dealing.record?, h.logs]
    · simp [SpanCall.apply, setTag, hopen, Dealing.last?_snoc, Dealing.status?, h.status]
  | log fields =>
    refine ⟨hann, fun k => ?_, ?_, ?_⟩
    · simp [SpanCall.apply, addLog, hopen, Dealing.last?_snoc, Dealing.tag?, h.tags]
    · simp [SpanCall.apply, addLog, hopen, Dealing.record?, h.logs]
    · simp [SpanCall.apply, addLog, hopen, Dealing.last?_snoc, Dealing.status?, h.status]
  | logEvent event =>
    refine ⟨hann, fun k => ?_, ?_, ?_⟩
    · simp [SpanCall.apply, addLog, hopen, Dealing.last?_snoc, Dealing.tag?, h.tags]
    · simp [SpanCall.apply, addLog, hopen, Dealing.record?, h.logs]
    · simp [SpanCall.apply, addLog, hopen, Dealing.last?_snoc, Dealing.status?, h.status]
  | setStatus status =>
    refine ⟨hann, fun k => ?_, ?_, ?_⟩
    · simp [SpanCall.apply, setStatus, hopen, Dealing.last?_snoc, Dealing.tag?, h.tags]
    · simp [SpanCall.apply, setStatus, hopen, Dealing.record?, h.logs]
    · simp [SpanCall.apply, setStatus, hopen, Dealing.last?_snoc, Dealing.status?]
  | finish => exact absurd rfl hc
  | toData =>
    refine ⟨hann, fun k => ?_, ?_, ?_⟩
    · simp [SpanCall.apply, Dealing.last?_snoc, Dealing.tag?, h.tags]
    · simp [SpanCall.apply, Dealing.record?, h.logs]
    · simp [SpanCall.apply, Dealing.last?_snoc, Dealing.status?, h.status]

theorem IsNew.replay {s : Span} (hs : s.IsNew) {es : List Dealing} (h : ∀ e ∈ es, e.finishes r = false) :
    s.Written r es (s.replay r es) := by
  induction es using List.reverseRecOn with
  | nil => exact hs.written r
  | append_singleton es e ih =>
    have hes : s.Written r es (s.replay r es) := ih fun f hf => h f (by simp [hf])
    have he := h e (by simp)
    rw [replay_snoc]
    by_cases hr : e.span = r
    · subst hr
      have hc : e.call ≠ .finish := by simpa [Dealing.finishes] using he
      simpa using hes.apply hs hc e.time e.answer
    · simpa [hr] using hes.other hr

theorem IsNew.isFinished_replay {s : Span} (hs : s.IsNew) (r : SpanRef) (es : List Dealing) :
    (s.replay r es).isFinished = es.any (Dealing.finishes r) := by
  induction es using List.reverseRecOn with
  | nil =>
    rw [hs]
    rfl
  | append_singleton es e ih =>
    rw [replay_snoc, List.any_append, ← ih]
    cases hclosed : (s.replay r es).isFinished with
    | true => simp [SpanCall.apply_of_finished hclosed, hclosed]
    | false =>
      by_cases hr : e.span = r
      · by_cases hc : e.call = .finish
        · simp [hr, hc, Dealing.finishes, SpanCall.apply, isFinished_close]
        · simp [hr, hc, Dealing.finishes, (SpanCall.apply_annotated _ e.time hc).isFinished_eq, hclosed]
      · simp [hr, Dealing.finishes, hclosed]

end Span

namespace World

structure Becomes (w : World ν ε) (r : SpanRef) (t : Span) (v : World ν ε) : Prop where
  span : v.span? r = some t
  others : ∀ q, q ≠ r → v.span? q = w.span? q

theorem becomes_of_same {s : Span} (hs : w.span? r = some s) (h : v.spans = w.spans) : w.Becomes r s v := by
  have hspan (q : SpanRef) : v.span? q = w.span? q := by rw [span?, span?, h]
  exact ⟨by rw [hspan, hs], fun q _ => hspan q⟩

theorem becomes_modifySpan {s : Span} (hs : w.span? r = some s) (h : v.spans = w.spans) (f : Span → Span) :
    w.Becomes r (f s) (v.modifySpan r f) := by
  have hspan (q : SpanRef) : v.span? q = w.span? q := by rw [span?, span?, h]
  refine ⟨span?_modifySpan_self (by rw [hspan, hs]) f, fun q hq => ?_⟩
  rw [span?_modifySpan, if_neg (Ne.symm hq), hspan]

end World

theorem SpanRef.becomes_written {s : Span} (hs : w.span? r = some s) (h : v.spans = w.spans) (what : String)
    (f : Span → Span) (hf : s.isFinished = true → f s = s) :
    w.Becomes r (f s) (match v.span? r with
      | none => v
      | some s => if s.isFinished then v.note (.event (late what s)) else v.modifySpan r f) := by
  have hv : v.span? r = some s := by rw [World.span?, h]; exact hs
  simp only [hv]
  cases hc : s.isFinished with
  | true =>
    rw [hf hc]
    exact World.becomes_of_same hs h
  | false => exact World.becomes_modifySpan hs h f

theorem SpanRef.becomes_log {s : Span} (hs : w.span? r = some s) (fields : List (String × Attribute)) :
    w.Becomes r (s.addLog ⟨w.supply.times w.used.times, .ofList fields⟩) (r.log fields w).2 :=
  becomes_written (v := { w with used.times := w.used.times + 1 }) hs rfl "log" (fun s => s.addLog _) fun h =>
    Span.addLog_of_finished h _

theorem SpanRef.becomes_finish {s : Span} (hs : w.span? r = some s) (hc : s.isFinished = false) :
    w.Becomes r (s.close (w.supply.times w.used.times)) (r.finish w).2 := by
  rw [finish_eq_of_open hs hc]
  refine ⟨?_, fun q hq => ?_⟩
  · rw [World.span?, spans_received]
    exact (span?_shut r r w).trans (by rw [if_pos rfl, hs, Option.map_some])
  · rw [World.span?, spans_received]
    exact (span?_shut r q w).trans (if_neg (Ne.symm hq))

def Dealing.closed (es : List Dealing) : List SpanRef :=
  (es.filter closes).map span

theorem SpanCall.perform_apply {s : Span} (hs : w.span? r = some s) (c : SpanCall) :
    ∃ v, c.perform r w = (.done (c.answer s), v) ∧ w.Becomes r (c.apply (w.supply.times w.used.times) s) v ∧
      w.Closes v (if c.answer s = .closed true then [r] else []) := by
  cases c with
  | setTag key value =>
    exact ⟨_, rfl, SpanRef.becomes_written hs rfl "tag" _ fun h => Span.setTag_of_finished h key value,
      r.closes_setTag key value w⟩
  | log fields =>
    exact ⟨_, rfl, SpanRef.becomes_log hs fields, r.closes_log fields w⟩
  | logEvent event =>
    exact ⟨_, rfl, SpanRef.becomes_log hs _, r.closes_log [("event", .text event)] w⟩
  | setStatus status =>
    exact ⟨_, rfl, World.becomes_modifySpan hs rfl _, r.closes_setStatus status w⟩
  | finish =>
    cases hc : s.isFinished with
    | true =>
      have hfinish : r.finish w = (.done false, w) := SpanRef.finish_of_finished fun t ht => by simp_all
      refine ⟨w, ?_, ?_, ?_⟩
      · simp [perform, answer, hc, Act.bind_of_done hfinish, Act.pure_apply]
      · rw [apply, Span.close_of_finished hc]
        exact World.becomes_of_same hs rfl
      · simpa [answer, hc] using World.Closes.refl w
    | false =>
      have hfinish : r.finish w = (.done true, (r.finish w).2) := by rw [SpanRef.finish_eq_of_open hs hc]
      refine ⟨(r.finish w).2, ?_, SpanRef.becomes_finish hs hc, ?_⟩
      · rw [perform, Act.bind_of_done hfinish]
        simp [answer, hc, Act.pure_apply]
      · simpa [answer, hc] using SpanRef.closes_finish_of_open hs hc
  | toData =>
    refine ⟨w, ?_, World.becomes_of_same hs rfl, by simpa [answer] using World.Closes.refl w⟩
    simp [perform, answer, Act.bind_apply, Act.read, Act.pure_apply, hs]

/-- The history `es` leads from `w` to `v`: every span is what the history makes of it, and those that were
closed in it were reported. -/
structure World.Dealt (w : World ν ε) (es : List Dealing) (v : World ν ε) : Prop where
  spans : ∀ r s, w.span? r = some s → v.span? r = some (s.replay r es)
  closes : w.Closes v (Dealing.closed es)

namespace Dealing

theorem closed_snoc (es : List Dealing) (e : Dealing) :
    closed (es ++ [e]) = closed es ++ if e.answer = .closed true then [e.span] else [] := by
  unfold closed closes
  split
  · next h => simp [h]
  · next h => simp [h]

theorem dealt_snoc {es : List Dealing} (h : w.Dealt es v) {s : Span} (hs : w.span? r = some s) (c : SpanCall) :
    ∃ u, c.perform r v = (.done (c.answer (s.replay r es)), u) ∧
      w.Dealt (es ++ [⟨r, c, v.supply.times v.used.times, c.answer (s.replay r es)⟩]) u := by
  have hv := h.spans r s hs
  obtain ⟨u, hu, hbecomes, hcloses⟩ := c.perform_apply hv
  refine ⟨u, hu, fun q t ht => ?_, ?_⟩
  · rw [Span.replay_snoc]
    by_cases hq : q = r
    · subst hq
      rw [hs] at ht
      cases ht
      simpa using hbecomes.span
    · rw [if_neg (Ne.symm hq), hbecomes.others q hq]
      exact h.spans q t ht
  · rw [closed_snoc]
    exact h.closes.trans hcloses

theorem performAll_apply {es : List Dealing} (h : w.Dealt es v) {calls : List (SpanRef × SpanCall)}
    (hcalls : ∀ c ∈ calls, ∃ s, w.span? c.1 = some s) :
    ∃ made u, performAll calls v = (.done made, u) ∧ w.Dealt (es ++ made) u ∧
      made.map (fun e => (e.span, e.call)) = calls ∧
      ∀ before e after, made = before ++ e :: after → ∀ s, w.span? e.span = some s →
        e.answer = e.call.answer (s.replay e.span (es ++ before)) := by
  induction calls generalizing v es with
  | nil => exact ⟨[], v, rfl, by simpa using h, rfl, by simp⟩
  | cons c calls ih =>
    obtain ⟨r, c⟩ := c
    obtain ⟨s, hs⟩ := hcalls (r, c) (by simp)
    obtain ⟨u, hu, hdealt⟩ := dealt_snoc h hs c
    obtain ⟨made, x, hx, hlast, hmade, hanswers⟩ := ih hdealt fun d hd => hcalls d (by simp [hd])
    refine ⟨_ :: made, x, ?_, by simpa using hlast, by simp [hmade], fun before e after hsplit t ht => ?_⟩
    · have hread : (Act.read fun w => w.supply.times w.used.times : Activity ν ε Time) v =
          (.done (v.supply.times v.used.times), v) := rfl
      rw [performAll, Act.bind_of_done hread, Act.bind_of_done hu, Act.bind_of_done hx]
      rfl
    · cases before with
      | nil =>
        obtain ⟨rfl, -⟩ := List.cons.inj hsplit
        have hst : s = t := by simpa [hs] using ht
        simp [hst]
      | cons f before =>
        obtain ⟨rfl, hrest⟩ := List.cons.inj hsplit
        simpa using hanswers before e after hrest t ht

end Dealing

/-- The record of a new span that is closed by the call `e`, after this history. -/
structure SpanData.Snapshot (s : Span) (before : List Dealing) (e : Dealing) (d : SpanData) : Prop where
  trace : d.trace = s.context.trace
  span : d.span = s.context.span
  parent : d.parent = s.parent
  start : d.start = s.start
  name : d.name = s.name
  kind : d.kind = s.kind
  sampled : d.sampled = s.context.sampled
  tags : ∀ key, d.tags.get? key = Dealing.last? (Dealing.tag? e.span key) before
  logs : d.logs = before.filterMap (Dealing.record? e.span)
  status : d.status = match (Dealing.last? (Dealing.status? e.span) before).getD .unset with
    | .unset => if Dealing.last? (Dealing.tag? e.span "error") before = some (.bool true) then .error else .ok
    | status => status
  stop : d.stop = e.time

theorem Span.Written.snapshot {s t : Span} {before : List Dealing} {e : Dealing} (h : s.Written e.span before t)
    (hopen : t.isFinished = false) : SpanData.Snapshot s before e (t.close e.time).data := by
  have hclose : t.close e.time = { t with status := t.finalStatus, stop := some e.time } := by simp [close, hopen]
  rw [hclose]
  refine ⟨?_, ?_, h.annotated.parent, h.annotated.start, h.annotated.name, h.annotated.kind, ?_, h.tags, h.logs, ?_, rfl⟩
  · simp [data, h.annotated.context]
  · simp [data, h.annotated.context]
  · simp [data, h.annotated.context]
  · cases hs : (Dealing.last? (Dealing.status? e.span) before).getD .unset <;>
      simp [data, finalStatus, h.tags, h.status, hs]

theorem exists_pairs {β : Type} {f : α → Option β} {l : List α} (h : ∀ a ∈ l, ∃ b, f a = some b) :
    ∃ ps : List (α × β), ps.map Prod.fst = l ∧ ps.map Prod.snd = l.filterMap f ∧ ∀ p ∈ ps, f p.1 = some p.2 := by
  induction l with
  | nil => exact ⟨[], rfl, rfl, by simp⟩
  | cons a l ih =>
    obtain ⟨b, hb⟩ := h a (by simp)
    obtain ⟨ps, hfst, hsnd, hps⟩ := ih fun c hc => h c (by simp [hc])
    exact ⟨(a, b) :: ps, by simp [hfst], by simp [hsnd, hb], by simpa [hb] using hps⟩

structure Dealing.Account (w : World ν ε) (made : List Dealing) (v : World ν ε)
    (records : List (SpanRef × SpanData)) : Prop where
  /-- Only the first finish of a span closes it. -/
  answers : ∀ before e after, made = before ++ e :: after → e.call = .finish →
    e.answer = .closed (!before.any (Dealing.finishes e.span))
  /-- The reporter got these records, and nothing else. -/
  reported : v.reported.toList = w.reported.toList ++ records.map Prod.snd
  /-- They are those of the closed spans, in the order in which these were closed. -/
  order : records.map Prod.fst = (made.filter Dealing.closes).map Dealing.span
  /-- The record of a span is what was written before, and what the span shows ever after. -/
  frozen : ∀ before e after, made = before ++ e :: after → e.answer = .closed true →
    ∃ s d, w.span? e.span = some s ∧ (e.span, d) ∈ records ∧ SpanData.Snapshot s before e d ∧
      ∀ f ∈ after, f.span = e.span → f.call = .toData → f.answer = .data (some d)

theorem Dealing.frozen_of_closed {made before after : List Dealing} {e : Dealing} {s : Span} (hdealt : w.Dealt made v)
    (hanswers : ∀ before e after, made = before ++ e :: after → ∀ s, w.span? e.span = some s →
      e.answer = e.call.answer (s.replay e.span before))
    (hsplit : made = before ++ e :: after) (hs : w.span? e.span = some s) (hnew : s.IsNew)
    (hclosed : e.answer = .closed true) :
    ∃ t, v.span? e.span = some t ∧ SpanData.Snapshot s before e t.data ∧
      ∀ f ∈ after, f.span = e.span → f.call = .toData → f.answer = .data (some t.data) := by
  obtain ⟨hcall, hopen⟩ := SpanCall.answer_eq_closed ((hanswers before e after hsplit s hs).symm.trans hclosed)
  have hbefore : ∀ f ∈ before, f.finishes e.span = false := by
    rw [hnew.isFinished_replay] at hopen
    simpa using hopen
  refine ⟨_, hdealt.spans _ s hs, ?_, fun f hf hfs hfc => ?_⟩
  · rw [hsplit, Span.replay_of_finish hcall]
    exact (hnew.replay hbefore).snapshot hopen
  · obtain ⟨first, last, rfl⟩ := List.append_of_mem hf
    have hshown := hanswers (before ++ e :: first) f last (by simp [hsplit]) s (by rw [hfs, hs])
    rw [hshown, hfs, hfc, hsplit, Span.replay_of_finish hcall, Span.replay_of_finish hcall]
    rfl

/-- Calls through handles to new spans that share the reporter in memory, in any order and through any
number of handles to each span: all of them return, and their history has an account. -/
theorem finished_span_frozen {calls : List (SpanRef × SpanCall)}
    (hnew : ∀ c ∈ calls, ∃ s, w.span? c.1 = some s ∧ s.IsNew ∧ s.reporter = .memory) :
    ∃ made v records, Dealing.performAll calls w = (.done made, v) ∧
      made.map (fun e => (e.span, e.call)) = calls ∧ Dealing.Account w made v records := by
  have hstart : w.Dealt [] w := ⟨fun r s hs => hs, .refl w⟩
  obtain ⟨made, v, hv, hdealt, hmade, hanswers⟩ := Dealing.performAll_apply hstart fun c hc =>
    (hnew c hc).imp fun s h => h.1
  have hspan {e : Dealing} (he : e ∈ made) : ∃ s, w.span? e.span = some s ∧ s.IsNew ∧ s.reporter = .memory :=
    hnew (e.span, e.call) (hmade ▸ List.mem_map_of_mem he)
  have hrecord : ∀ r ∈ Dealing.closed made, ∃ d, v.record? .memory r = some d := by
    intro r hr
    obtain ⟨e, he, rfl⟩ := List.mem_map.1 hr
    obtain ⟨s, hs, -, hmemory⟩ := hspan (List.mem_filter.1 he).1
    obtain ⟨t, ht, hst⟩ := hdealt.closes.spans _ s hs
    exact ⟨t.data, by simp [World.record?, ht, hst.reporter, hmemory]⟩
  obtain ⟨records, hfst, hsnd, hrecords⟩ := exists_pairs hrecord
  refine ⟨made, v, records, hv, hmade, ?_, ?_, hfst, ?_⟩
  · intro before e after hsplit hcall
    obtain ⟨s, hs, hsnew, -⟩ := hspan (e := e) (by simp [hsplit])
    have hanswer := hanswers before e after hsplit s hs
    simpa [hcall, SpanCall.answer, hsnew.isFinished_replay] using hanswer
  · rw [hsnd]
    exact hdealt.closes.reported
  · intro before e after hsplit hclosed
    obtain ⟨s, hs, hsnew, -⟩ := hspan (e := e) (by simp [hsplit])
    obtain ⟨t, ht, hsnapshot, hshown⟩ :=
      Dealing.frozen_of_closed hdealt hanswers hsplit hs hsnew hclosed
    have hmem : e.span ∈ records.map Prod.fst := by
      rw [hfst]
      simpa [Dealing.closed] using ⟨e, ⟨by simp [hsplit], by simp [Dealing.closes, hclosed]⟩, rfl⟩
    obtain ⟨⟨r, d⟩, hp, rfl⟩ := List.mem_map.1 hmem
    have hd : _ = some d := hrecords _ hp
    simp only [World.record?, ht, Option.bind_some, Option.ite_none_right_eq_some, Option.some.injEq] at hd
    obtain ⟨-, rfl⟩ := hd
    exact ⟨s, _, hs, hp, hsnapshot, hshown⟩

/-- Two spans, with writes and a second finish after the first one is closed. -/
theorem finished_span_frozen_late :
    let a := Span.opened (Context.new 1 2 true) none "a" .client .memory 0
    let b := Span.opened (Context.new 1 3 true) (some 2) "b" .server .memory 0
    let w : World Unit Unit := { World.initial .constant () with spans := #[a, b] }
    let calls : List (SpanRef × SpanCall) := [(⟨0⟩, .setTag "error" (.bool true)), (⟨1⟩, .setStatus .ok),
      (⟨0⟩, .setTag "k" (.text "x")), (⟨0⟩, .finish), (⟨1⟩, .log [("n", .int 1)]), (⟨0⟩, .setTag "k" (.text "y")),
      (⟨0⟩, .finish), (⟨1⟩, .finish), (⟨0⟩, .logEvent "late"), (⟨0⟩, .toData)]
    (∀ c ∈ calls, ∃ s, w.span? c.1 = some s ∧ s.IsNew ∧ s.reporter = .memory) ∧
      ∃ made v records, Dealing.performAll calls w = (.done made, v) ∧
        made.map (fun e => (e.span, e.call)) = calls ∧ Dealing.Account w made v records := by
  intro a b w calls
  have hnew : ∀ c ∈ calls, ∃ s, w.span? c.1 = some s ∧ s.IsNew ∧ s.reporter = .memory := by
    intro c hc
    have hspan : c.1 = ⟨0⟩ ∨ c.1 = ⟨1⟩ := by
      revert c
      decide
    rcases hspan with h | h
    · exact ⟨a, by rw [h]; rfl, rfl, rfl⟩
    · exact ⟨b, by rw [h]; rfl, rfl, rfl⟩
  exact ⟨hnew, finished_span_frozen hnew⟩

end SpanFlow
