import Mathlib.Data.List.Basic
import Mathlib.Tactic.Tauto
import SpanFlow.Proofs.World.Ordinary

/-!
Accounts of closed spans. Code that deals with spans through their handles only may write to them and
close them as it likes, and may panic anywhere. Main statement: whatever it did, the spans that it closed
can be listed, each of them once, and the reporters got the records of exactly these, in this order.
-/

namespace SpanFlow

variable {ν ε α : Type} {w v : World ν ε}

/-- The span later on, whatever was done through its handle: an open one keeps what identifies it, a
closed one is the same. -/
structure Span.Onward (s t : Span) : Prop where
  context : t.context = s.context
  parent : t.parent = s.parent
  reporter : t.reporter = s.reporter
  closed : s.isFinished = true → t = s

namespace Span.Onward

theorem refl (s : Span) : s.Onward s := ⟨rfl, rfl, rfl, fun _ => rfl⟩

theorem trans {s t u : Span} (h : s.Onward t) (g : t.Onward u) : s.Onward u where
  context := g.context.trans h.context
  parent := g.parent.trans h.parent
  reporter := g.reporter.trans h.reporter
  closed hs := by
    obtain rfl := h.closed hs
    exact g.closed hs

theorem of_annotated {s t : Span} (h : s.Annotated t) (hs : s.isFinished = true → t = s) : s.Onward t :=
  ⟨h.context, h.parent, h.reporter, hs⟩

end Span.Onward

namespace Span

theorem setStatus_annotated (s : Span) (status : Status) : s.Annotated (s.setStatus status) := by
  unfold setStatus
  split
  · exact .refl s
  · exact ⟨rfl, rfl, rfl, rfl, rfl, rfl, rfl⟩

theorem close_onward (s : Span) (now : Time) : s.Onward (s.close now) := by
  unfold close
  split
  · exact .refl s
  · next h => exact ⟨rfl, rfl, rfl, fun hs => absurd hs h⟩

end Span

def JournalEntry.announcement? (j : JournalEntry) : Option Event :=
  match j.note with
  | .event e => if e.message = "span finished" then some e else none
  | _ => none

namespace World

def IsClosed (w : World ν ε) (r : SpanRef) : Prop :=
  ∃ s, w.span? r = some s ∧ s.isFinished = true

def announced (w : World ν ε) : List Event :=
  w.journal.toList.filterMap JournalEntry.announcement?

def record? (w : World ν ε) (reporter : Reporter) (r : SpanRef) : Option SpanData :=
  (w.span? r).bind fun s => if s.reporter = reporter then some s.data else none

/-- Between the two states exactly these spans were closed, each of them once and in this order, and the
reporters got their records and nothing else. -/
structure Closes (w v : World ν ε) (rs : List SpanRef) : Prop where
  spans : ∀ r s, w.span? r = some s → ∃ t, v.span? r = some t ∧ s.Onward t
  nodup : rs.Nodup
  mem_iff : ∀ r, r ∈ rs ↔ v.IsClosed r ∧ ¬w.IsClosed r
  reported : v.reported.toList = w.reported.toList ++ rs.filterMap (v.record? .memory)
  announced : v.announced = w.announced ++ (rs.filterMap (v.record? .logging)).map SpanRef.finishedEvent

namespace Closes

theorem isClosed_of {rs : List SpanRef} (h : w.Closes v rs) {r : SpanRef} (hr : w.IsClosed r) : v.IsClosed r := by
  obtain ⟨s, hs, hc⟩ := hr
  obtain ⟨t, ht, hst⟩ := h.spans r s hs
  obtain rfl := hst.closed hc
  exact ⟨t, ht, hc⟩

theorem record?_eq {rs : List SpanRef} (h : w.Closes v rs) {r : SpanRef} (hr : w.IsClosed r) (reporter : Reporter) :
    v.record? reporter r = w.record? reporter r := by
  obtain ⟨s, hs, hc⟩ := hr
  obtain ⟨t, ht, hst⟩ := h.spans r s hs
  obtain rfl := hst.closed hc
  rw [record?, record?, hs, ht]

theorem trans {u : World ν ε} {rs qs : List SpanRef} (h : u.Closes w rs) (g : w.Closes v qs) :
    u.Closes v (rs ++ qs) := by
  -- What was closed first is not touched any more, so its records read the same in the last state.
  have hfinal (reporter : Reporter) : rs.filterMap (w.record? reporter) = rs.filterMap (v.record? reporter) :=
    List.filterMap_congr fun r hr => (g.record?_eq ((h.mem_iff r).1 hr).1 reporter).symm
  refine ⟨fun r s hs => ?_, ?_, fun r => ?_, ?_, ?_⟩
  · obtain ⟨t, ht, hst⟩ := h.spans r s hs
    obtain ⟨x, hx, htx⟩ := g.spans r t ht
    exact ⟨x, hx, hst.trans htx⟩
  · refine List.nodup_append.2 ⟨h.nodup, g.nodup, ?_⟩
    rintro r hr q hq rfl
    exact ((g.mem_iff r).1 hq).2 ((h.mem_iff r).1 hr).1
  · have huw : u.IsClosed r → w.IsClosed r := h.isClosed_of
    have hwv : w.IsClosed r → v.IsClosed r := g.isClosed_of
    rw [List.mem_append, h.mem_iff, g.mem_iff]
    tauto
  · rw [g.reported, h.reported, hfinal, List.filterMap_append, List.append_assoc]
  · rw [g.announced, h.announced, hfinal, List.filterMap_append, List.map_append, List.append_assoc]

theorem none_of (hspans : ∀ r s, w.span? r = some s → ∃ t, v.span? r = some t ∧ s.Onward t)
    (hclosed : ∀ r, v.IsClosed r → w.IsClosed r) (hreported : v.reported = w.reported)
    (hannounced : v.announced = w.announced) : w.Closes v [] where
  spans := hspans
  nodup := List.nodup_nil
  mem_iff r := ⟨fun h => (nomatch h), fun h => absurd (hclosed r h.1) h.2⟩
  reported := by simp [hreported]
  announced := by simp [hannounced]

theorem refl (w : World ν ε) : w.Closes w [] :=
  none_of (fun _ s hs => ⟨s, hs, .refl s⟩) (fun _ h => h) rfl rfl

end Closes

structure SameRecords (w v : World ν ε) : Prop where
  spans : v.spans = w.spans
  reported : v.reported = w.reported
  announced : v.announced = w.announced

theorem SameRecords.refl (w : World ν ε) : w.SameRecords w := ⟨rfl, rfl, rfl⟩

theorem SameRecords.closes (h : w.SameRecords v) : w.Closes v [] := by
  have hspan (r : SpanRef) : v.span? r = w.span? r := by rw [span?, span?, h.spans]
  refine .none_of (fun r s hs => ⟨s, by rwa [hspan], .refl s⟩) (fun r hr => ?_) h.reported h.announced
  obtain ⟨s, hs, hc⟩ := hr
  exact ⟨s, by rwa [← hspan], hc⟩

theorem announced_note (w : World ν ε) (n : Note) :
    (w.note n).announced = w.announced ++ (JournalEntry.announcement? ⟨n, w.thread, w.active⟩).toList := by
  simp only [announced, note, Array.toList_push, List.filterMap_append, List.filterMap_cons, List.filterMap_nil]
  cases JournalEntry.announcement? ⟨n, w.thread, w.active⟩ <;> rfl

theorem sameRecords_note (w : World ν ε) {n : Note} (h : ∀ e, n = .event e → e.message ≠ "span finished") :
    w.SameRecords (w.note n) := by
  refine ⟨rfl, rfl, ?_⟩
  have hnone : JournalEntry.announcement? ⟨n, w.thread, w.active⟩ = none := by
    cases n with
    | event e => exact if_neg (h e rfl)
    | activating s => rfl
    | restoring s => rfl
  rw [announced_note, hnone, Option.toList_none, List.append_nil]

theorem closes_modifySpan (w : World ν ε) (r : SpanRef) {f : Span → Span} (hf : ∀ s : Span, s.Annotated (f s))
    (hclosed : ∀ s : Span, s.isFinished = true → f s = s) : w.Closes (w.modifySpan r f) [] := by
  refine .none_of (fun q s hs => ?_) (fun q hq => ?_) rfl rfl
  · rw [span?_modifySpan]
    split
    · exact ⟨f s, by rw [hs, Option.map_some], .of_annotated (hf s) (hclosed s)⟩
    · exact ⟨s, hs, .refl s⟩
  · obtain ⟨t, ht, hc⟩ := hq
    rw [span?_modifySpan] at ht
    split at ht
    · obtain ⟨s, hs, rfl⟩ := Option.map_eq_some_iff.1 ht
      exact ⟨s, hs, by rwa [← (hf s).isFinished_eq]⟩
    · exact ⟨t, ht, hc⟩

end World

namespace SpanRef

theorem closes_create (context : Context) (parent : Option SpanId) (name : String) (kind : Kind)
    (reporter : Reporter) (w : World ν ε) :
    w.Closes (create context parent name kind reporter w).2 [] := by
  let s := Span.opened context parent name kind reporter (w.supply.times w.used.times)
  have hstate : (create context parent name kind reporter w).2 =
      { w with used.times := w.used.times + 1, spans := w.spans.push s } := rfl
  refine .none_of (fun r t ht => ⟨t, ?_, .refl t⟩) (fun r hr => ?_) rfl rfl
  · have hlt : r.index < w.spans.size := (Array.getElem?_eq_some_iff.1 ht).1
    rw [hstate, World.span?, Array.getElem?_push_lt hlt]
    rwa [World.span?, Array.getElem?_eq_getElem hlt] at ht
  · obtain ⟨t, ht, hc⟩ := hr
    rw [hstate, World.span?, Array.getElem?_push] at ht
    split at ht
    · cases ht
      cases hc
    · exact ⟨t, ht, hc⟩

theorem sameRecords_late {what : String} (h : what ++ " written after finish, ignored" ≠ "span finished") (s : Span)
    (w : World ν ε) : w.SameRecords (w.note (.event (late what s))) :=
  w.sameRecords_note fun e he => by
    cases he
    exact h

theorem closes_setTag (r : SpanRef) (k : String) (a : Attribute) (w : World ν ε) :
    w.Closes (r.setTag k a w).2 [] := by
  simp only [setTag, Act.modify]
  split
  · exact .refl w
  · split
    · exact (sameRecords_late (by decide) _ w).closes
    · exact w.closes_modifySpan r (fun s => .setTag s k a) fun s hs => Span.setTag_of_finished hs k a

theorem closes_log (r : SpanRef) (fields : List (String × Attribute)) (w : World ν ε) :
    w.Closes (r.log fields w).2 [] := by
  let u : World ν ε := { w with used.times := w.used.times + 1 }
  have hu : w.Closes u [] := World.SameRecords.closes ⟨rfl, rfl, rfl⟩
  refine hu.trans (?_ : u.Closes _ [])
  simp only [log, Act.bind_of_done (rfl : Activity.now w = (.done (w.supply.times w.used.times), u)), Act.modify]
  split
  · exact .refl u
  · split
    · exact (sameRecords_late (by decide) _ u).closes
    · exact u.closes_modifySpan r (fun s => .addLog s _) fun s hs => Span.addLog_of_finished hs _

theorem closes_setStatus (r : SpanRef) (status : Status) (w : World ν ε) :
    w.Closes (r.setStatus status w).2 [] :=
  w.closes_modifySpan r (fun s => s.setStatus_annotated status) fun _ hs => Span.setStatus_of_finished hs status

def received (w : World ν ε) (d : SpanData) : Reporter → World ν ε
  | .memory => { w with reported := w.reported.push d }
  | .null => w
  | .logging => w.note (.event (finishedEvent d))

theorem report_apply (reporter : Reporter) (d : SpanData) (w : World ν ε) :
    report reporter d w = (.done (), received w d reporter) := by
  cases reporter <;> rfl

theorem spans_received (w : World ν ε) (d : SpanData) (reporter : Reporter) :
    (received w d reporter).spans = w.spans := by
  cases reporter <;> rfl

theorem reported_received (w : World ν ε) (d : SpanData) (reporter : Reporter) :
    (received w d reporter).reported.toList = w.reported.toList ++ if reporter = .memory then [d] else [] := by
  cases reporter <;> simp [received, World.note]

theorem announced_received (w : World ν ε) (d : SpanData) (reporter : Reporter) :
    (received w d reporter).announced = w.announced ++ if reporter = .logging then [finishedEvent d] else [] := by
  cases reporter with
  | memory => simp [received, World.announced]
  | null => simp [received, World.announced]
  | logging => exact w.announced_note _

/-- The state in which an open span was closed, before its record is given to the reporter. -/
def shut (r : SpanRef) (w : World ν ε) : World ν ε :=
  { w with used.times := w.used.times + 1 }.modifySpan r (·.close (w.supply.times w.used.times))

theorem span?_shut (r q : SpanRef) (w : World ν ε) :
    (shut r w).span? q =
      if r = q then (w.span? q).map (·.close (w.supply.times w.used.times)) else w.span? q :=
  World.span?_modifySpan { w with used.times := w.used.times + 1 } r q _

theorem finish_eq_of_open {r : SpanRef} {s : Span} (hs : w.span? r = some s) (ho : s.isFinished = false) :
    r.finish w =
      (.done true, received (shut r w) (s.close (w.supply.times w.used.times)).data s.reporter) := by
  simp only [finish, Act.bind_apply, Act.read, hs, ho, Bool.false_eq_true, if_false]
  simp only [Activity.now, Act.modifyGet, Act.modify, report_apply]
  rfl

theorem closes_finish_of_open {r : SpanRef} {s : Span} (hs : w.span? r = some s) (ho : s.isFinished = false) :
    w.Closes (r.finish w).2 [r] := by
  let now := w.supply.times w.used.times
  let u : World ν ε := shut r w
  have hspan (q : SpanRef) : (received u (s.close now).data s.reporter).span? q =
      if r = q then (w.span? q).map (·.close now) else w.span? q := by
    rw [World.span?, spans_received]
    exact span?_shut r q w
  have hstate : (r.finish w).2 = received u (s.close now).data s.reporter := by rw [finish_eq_of_open hs ho]
  have hclosed : (received u (s.close now).data s.reporter).span? r = some (s.close now) := by
    rw [hspan, if_pos rfl, hs, Option.map_some]
  have hrecord (reporter : Reporter) : [r].filterMap ((received u (s.close now).data s.reporter).record? reporter) =
      if s.reporter = reporter then [(s.close now).data] else [] := by
    rw [List.filterMap_cons, List.filterMap_nil, World.record?, hclosed, Option.bind_some,
      (s.close_onward now).reporter]
    split <;> simp_all
  rw [hstate]
  refine ⟨fun q t ht => ?_, by simp, fun q => ?_, ?_, ?_⟩
  · rw [hspan]
    split
    · exact ⟨t.close now, by rw [ht, Option.map_some], t.close_onward now⟩
    · exact ⟨t, ht, .refl t⟩
  · rw [List.mem_singleton]
    constructor
    · rintro rfl
      refine ⟨⟨_, hclosed, s.isFinished_close now⟩, ?_⟩
      rintro ⟨t, ht, hc⟩
      rw [hs] at ht
      cases ht
      rw [ho] at hc
      cases hc
    · rintro ⟨⟨t, ht, hc⟩, hopen⟩
      by_contra hne
      rw [hspan, if_neg (Ne.symm hne)] at ht
      exact hopen ⟨t, ht, hc⟩
  · rw [hrecord, reported_received]
    rfl
  · rw [hrecord, announced_received]
    congr 1
    split <;> rfl

theorem closes_finish (r : SpanRef) (w : World ν ε) : ∃ rs, w.Closes (r.finish w).2 rs := by
  rcases r.finish_cases w with ⟨s, v, hs, ho, -, -⟩ | ⟨-, hv⟩
  · exact ⟨[r], closes_finish_of_open hs ho⟩
  · exact ⟨[], by rw [hv]; exact .refl w⟩

theorem isClosed_finish {r : SpanRef} {s : Span} (hs : w.span? r = some s) : (r.finish w).2.IsClosed r := by
  rcases r.finish_cases w with ⟨t, v, ht, ho, -, -⟩ | ⟨hc, hv⟩
  · exact (((closes_finish_of_open ht ho).mem_iff r).1 (by simp)).1
  · rw [hv]
    exact ⟨s, hs, hc s hs⟩

end SpanRef

/-- Code that deals with spans through their handles only, and does not speak to reporters itself. What
else it does, to scopes for example, is its own affair. -/
inductive Handled : {α : Type} → Activity ν ε α → Prop where
  | own {α : Type} {x : Activity ν ε α} (hx : ∀ w, World.SameRecords w (x w).2) : Handled x
  | create (context : Context) (parent : Option SpanId) (name : String) (kind : Kind) (reporter : Reporter) :
      Handled (SpanRef.create context parent name kind reporter)
  | setTag (r : SpanRef) (key : String) (value : Attribute) : Handled (r.setTag key value)
  | log (r : SpanRef) (fields : List (String × Attribute)) : Handled (r.log fields)
  | setStatus (r : SpanRef) (status : Status) : Handled (r.setStatus status)
  | finish (r : SpanRef) : Handled r.finish
  | bind {α β : Type} {x : Activity ν ε α} {f : α → Activity ν ε β} (hx : Handled x) (hf : ∀ a, Handled (f a)) :
      Handled (x >>= f)
  | attempt {α : Type} {x : Activity ν ε α} (hx : Handled x) : Handled (Act.attempt x)
  | onPanic {α : Type} {x : Activity ν ε α} {c : Activity ν ε Unit} (hx : Handled x) (hc : Handled c) :
      Handled (Act.onPanic x c)
  | onThread {α : Type} {x : Activity ν ε α} (hx : Handled x) : Handled (Activity.onThread x)

/-- However the code goes, the spans that it closed are accounted for. -/
theorem Handled.closes {x : Activity ν ε α} (h : Handled x) (w : World ν ε) : ∃ rs, w.Closes (x w).2 rs := by
  induction h generalizing w with
  | own hx => exact ⟨[], (hx w).closes⟩
  | create c p n k r => exact ⟨[], SpanRef.closes_create c p n k r w⟩
  | setTag r k a => exact ⟨[], r.closes_setTag k a w⟩
  | log r fields => exact ⟨[], r.closes_log fields w⟩
  | setStatus r status => exact ⟨[], r.closes_setStatus status w⟩
  | finish r => exact r.closes_finish w
  | @bind α β x f _ _ ihx ihf =>
    obtain ⟨rs, hrs⟩ := ihx w
    rw [Act.bind_apply]
    cases hx : x w with
    | mk e u =>
      rw [hx] at hrs
      cases e with
      | done a =>
        obtain ⟨qs, hqs⟩ := ihf a u
        exact ⟨rs ++ qs, hrs.trans hqs⟩
      | panic p => exact ⟨rs, hrs⟩
      | abort => exact ⟨rs, hrs⟩
  | @attempt α x _ ih =>
    obtain ⟨rs, hrs⟩ := ih w
    refine ⟨rs, ?_⟩
    rw [Act.attempt]
    cases hx : x w with
    | mk e u =>
      rw [hx] at hrs
      cases e <;> exact hrs
  | @onPanic α x c _ _ ihx ihc =>
    obtain ⟨rs, hrs⟩ := ihx w
    rw [Act.onPanic]
    cases hx : x w with
    | mk e u =>
      rw [hx] at hrs
      cases e with
      | done a => exact ⟨rs, hrs⟩
      | abort => exact ⟨rs, hrs⟩
      | panic p =>
        obtain ⟨qs, hqs⟩ := ihc u
        refine ⟨rs ++ qs, hrs.trans ?_⟩
        cases hc : c u with
        | mk e z =>
          rw [hc] at hqs
          cases e <;> simpa only [hc] using hqs
  | @onThread α x _ ih =>
    obtain ⟨rs, hrs⟩ := ih { w with thread := .worker, active := none }
    have hin : w.Closes { w with thread := .worker, active := none } [] :=
      World.SameRecords.closes ⟨rfl, rfl, rfl⟩
    have hout (v : World ν ε) : v.Closes { v with thread := w.thread, active := w.active } [] :=
      World.SameRecords.closes ⟨rfl, rfl, rfl⟩
    exact ⟨rs ++ [], (hin.trans hrs).trans (hout _)⟩

end SpanFlow
