import SpanFlow.Proofs.Propagation.RoundTrip

/-!
Contexts that pass through. A portable context has identifiers that are not zero and baggage under
keys that are in small letters and not empty. Main statement: whatever a carrier lists, a context that a
format reads from it is portable, and a portable context is read back exactly as it was written.
-/

namespace SpanFlow

variable {C : Type}

theorem Ascii.lower_ne_empty {s : String} (h : s ≠ "") : lower s ≠ "" := by
  intro hl
  have hchars := congrArg String.toList hl
  rw [toList_lower, String.toList_empty, List.map_eq_nil_iff, String.toList_eq_nil_iff] at hchars
  exact h hchars

namespace Context

/-- Baggage as it is after it was added: keys in small letters, none of them empty. -/
def Labelled (c : Context) : Prop :=
  ∀ e ∈ c.baggage.entries, e.1 ≠ "" ∧ Ascii.lower e.1 = e.1

theorem labelled_withBaggage {c : Context} (h : c.Labelled) {items : List (String × String)}
    (hitems : ∀ e ∈ items, e.1 ≠ "") : (c.withBaggage items).Labelled := by
  induction items generalizing c with
  | nil => exact h
  | cons item items ih =>
    refine ih (fun e he => ?_) fun e he => hitems e (by simp [he])
    rcases mem_insertSorted he with rfl | he
    · exact ⟨Ascii.lower_ne_empty (hitems item (by simp)), Ascii.lower_lower item.1⟩
    · exact h e he

theorem labelled_new (trace : TraceId) (span : SpanId) (sampled : Bool) {items : List (String × String)}
    (h : ∀ e ∈ items, e.1 ≠ "") : ((new trace span sampled).withBaggage items).Labelled :=
  labelled_withBaggage (by simp [Labelled, new]) h

structure Portable (c : Context) : Prop where
  trace : c.trace ≠ 0
  span : c.span ≠ 0
  labelled : c.Labelled

namespace Portable

variable {c : Context}

theorem lowered (h : c.Portable) : c.baggage.Lowered := fun e he => (h.labelled e he).2

theorem carried_eq (h : c.Portable) : c.carried = c := by
  have herase : c.baggage.erase "" = c.baggage := by
    refine KeyMap.ext (List.filter_eq_self.2 fun e he => ?_)
    simpa using (h.labelled e he).1
  rw [carried, herase]

end Portable

theorem portable_new {trace : TraceId} {span : SpanId} (htrace : trace ≠ 0) (hspan : span ≠ 0) (sampled : Bool)
    {items : List (String × String)} (hitems : ∀ e ∈ items, e.1 ≠ "") :
    ((new trace span sampled).withBaggage items).Portable where
  trace := by simpa [new] using htrace
  span := by simpa [new] using hspan
  labelled := labelled_new trace span sampled hitems

end Context

def Extraction.Yields (P : Context → Prop) (x : Extraction) : Prop :=
  ∃ r, x.answer = .ok r ∧ ∀ c, r = some c → P c

namespace Extraction

variable {P : Context → Prop}

theorem yields_none {x : Extraction} (h : x.answer = .ok none) : x.Yields P :=
  ⟨none, h, fun _ hc => nomatch hc⟩

theorem yields_some {events : List Event} {c : Context} (h : P c) : Yields P ⟨events, .ok (some c)⟩ :=
  ⟨some c, rfl, fun _ hc => Option.some.inj hc ▸ h⟩

end Extraction

namespace B3

theorem items_named {p : String} {es : Entries} : ∀ e ∈ items p es, e.1 ≠ "" := by
  intro e he
  rw [items_eq, List.mem_filterMap] at he
  obtain ⟨x, -, hx⟩ := he
  obtain ⟨name, hname, rfl⟩ := Option.map_eq_some_iff.1 hx
  exact (itemName?_eq_some_iff.1 hname).2

theorem read_yields (p carrier : String) (es : Entries) : (read p carrier es).Yields Context.Labelled := by
  unfold read
  split
  · exact Extraction.yields_none rfl
  · exact Extraction.yields_none rfl
  · split
    · exact Extraction.yields_some (Context.labelled_new _ _ _ items_named)
    · exact Extraction.yields_none rfl

end B3

namespace TraceContext

theorem parseMember_named {member : List Char} {item : String × String} (h : parseMember member = some item) :
    item.1 ≠ "" := by
  simp only [parseMember, Option.bind_eq_bind, Option.bind_eq_some_iff] at h
  obtain ⟨⟨key, value⟩, -, k, -, v, -, h⟩ := h
  split at h
  · cases h
  · next hk =>
    cases h
    intro he
    rw [← String.toList_eq_nil_iff, String.toList_ofList] at he
    exact hk (by rw [he]; rfl)

theorem parseBaggage_named (value : String) : ∀ e ∈ parseBaggage value, e.1 ≠ "" := by
  intro e he
  obtain ⟨member, -, hmember⟩ := List.mem_filterMap.1 he
  exact parseMember_named hmember

theorem read_yields (carrier : String) (es : Entries) : (read carrier es).Yields Context.Labelled := by
  unfold read
  split
  · exact Extraction.yields_none rfl
  · split
    · exact Extraction.yields_none rfl
    · refine Extraction.yields_some (Context.labelled_new _ _ _ ?_)
      cases findEntry es baggageKey with
      | none => simp
      | some value => exact parseBaggage_named value

end TraceContext

namespace Propagator

variable {P : Context → Prop}

theorem extractFirst_yields {m : C} {ps : List (Propagator C)} (h : ∀ p ∈ ps, (p.extract m).Yields P) :
    (extractFirst m ps).Yields P := by
  induction ps with
  | nil => exact Extraction.yields_none rfl
  | cons p ps ih =>
    obtain ⟨r, hr, hP⟩ := h p (by simp)
    cases r with
    | none =>
      obtain ⟨s, hs, hlater⟩ := ih fun q hq => h q (by simp [hq])
      refine ⟨s, ?_, hlater⟩
      simp only [extractFirst, hr, hs]
    | some c =>
      refine ⟨some c, ?_, hP⟩
      simp only [extractFirst, hr]

theorem extractLenient_yields [TextMap C] {p : Propagator C} {m : C} (h : (p.extract m).Yields P) :
    (p.extractLenient m).Yields fun c => P c ∧ c.trace ≠ 0 ∧ c.span ≠ 0 := by
  obtain ⟨r, hr, hP⟩ := h
  cases r with
  | none =>
    refine Extraction.yields_none ?_
    simp only [extractLenient, hr]
  | some c =>
    simp only [extractLenient, hr]
    by_cases hc : c.isValid = true
    · have hids := hc
      rw [Context.isValid, Bool.and_eq_true, bne_iff_ne, bne_iff_ne] at hids
      rw [if_pos hc]
      exact Extraction.yields_some ⟨hP c rfl, hids⟩
    · rw [if_neg hc]
      exact Extraction.yields_none rfl

theorem ofEntries_yields [TextMap C] {m : C} {l : Entries} (hm : TextMap.entries m = .ok l) {fields : List String}
    {written : Context → Entries} {read : String → Entries → Extraction}
    (h : (read (TextMap.name m) l).Yields P) : ((ofEntries fields written read).extract m).Yields P := by
  simpa only [ofEntries, hm] using h

end Propagator

namespace Format

theorem extract_yields [TextMap C] (f : Format) {m : C} {l : Entries} (hm : TextMap.entries m = .ok l) :
    ((f.propagator : Propagator C).extractLenient m).Yields Context.Portable := by
  have hb3 (p : String) : ((B3.propagator p : Propagator C).extract m).Yields Context.Labelled :=
    Propagator.ofEntries_yields hm (B3.read_yields _ _ _)
  have hw3c : ((TraceContext.propagator : Propagator C).extract m).Yields Context.Labelled :=
    Propagator.ofEntries_yields hm (TraceContext.read_yields _ _)
  have hread : ((f.propagator : Propagator C).extract m).Yields Context.Labelled := by
    cases f with
    | b3 p => exact hb3 p
    | w3c => exact hw3c
    | b3First p => exact Propagator.extractFirst_yields (by simp [hb3, hw3c])
    | b3Last p => exact Propagator.extractFirst_yields (by simp [hb3, hw3c])
  obtain ⟨r, hr, hP⟩ := Propagator.extractLenient_yields hread
  exact ⟨r, hr, fun c hc => ⟨(hP c hc).2.1, (hP c hc).2.2, (hP c hc).1⟩⟩

def Forwards [TextMap C] (f : Format) (c : Context) (m : C) : Prop :=
  ∃ m', (f.propagator : Propagator C).inject c m = .ok () m' ∧
    (f.propagator : Propagator C).extractLenient m' = ⟨[], .ok (some c)⟩

theorem forwards_of_faithful [TextMap C] {f : Format} (hf : f.Fit) {c : Context} (hc : c.Portable) {m : C}
    (hm : Faithful m fun _ => True) : f.Forwards c m := by
  obtain ⟨m', hput, hread, -⟩ := roundTrips_of_faithful hf hc.trace hc.span hc.lowered hm fun _ _ => trivial
  rw [hc.carried_eq] at hread
  exact ⟨m', hput, hread⟩

/-- Whatever entries a carrier lists, reading them is no error; a context that is read has identifiers
that are not zero and baggage under keys in small letters that are not empty; and through an empty map
with the same format it goes on unchanged. -/
theorem extracted_is_forwarded [TextMap C] {f : Format} (hf : f.Fit) {m : C} {l : Entries}
    (hm : TextMap.entries m = .ok l) :
    ∃ r, ((f.propagator : Propagator C).extractLenient m).answer = .ok r ∧
      ∀ c, r = some c → c.trace ≠ 0 ∧ c.span ≠ 0 ∧
        (∀ e ∈ c.baggage.entries, e.1 ≠ "" ∧ Ascii.lower e.1 = e.1) ∧
        f.Forwards c (KeyMap.empty : KeyMap String) ∧
        ∀ order : KeyMap String → Entries, (∀ n, (order n).Perm n.entries) →
          f.Forwards c (⟨.empty⟩ : Unordered order) := by
  obtain ⟨r, hr, hP⟩ := f.extract_yields hm
  refine ⟨r, hr, fun c hc => ?_⟩
  have hportable := hP c hc
  refine ⟨hportable.trace, hportable.span, hportable.labelled, ?_, ?_⟩
  · exact forwards_of_faithful hf hportable faithful_map
  · exact fun order horder => forwards_of_faithful hf hportable (faithful_unordered horder)

/-- Short identifiers in capitals, keys that differ in case only, and a key with nothing but the prefix. -/
theorem extracted_is_forwarded_garbled :
    let f := Format.b3First "Baggage-"
    let l := [("x-b3-TRACEID", "00aBC"), ("X-B3-SpanId", "7"), ("x-b3-spanid", "zz"), ("X-B3-Sampled", "perhaps"),
      ("Baggage-A b", "1"), ("baggage-", "2"), ("BAGGAGE-a B", " 3,é"), ("traceparent", "?")]
    let m : Unordered fun _ => l := ⟨.empty⟩
    f.Fit ∧ TextMap.entries m = .ok l ∧
      ∃ c, (f.propagator.extractLenient m).answer = .ok (some c) ∧ c.baggage.entries = [("a b", " 3,é")] ∧
        c.trace ≠ 0 ∧ c.span ≠ 0 ∧ (∀ e ∈ c.baggage.entries, e.1 ≠ "" ∧ Ascii.lower e.1 = e.1) ∧
        f.Forwards c (KeyMap.empty : KeyMap String) ∧
        ∀ order : KeyMap String → Entries, (∀ n, (order n).Perm n.entries) →
          f.Forwards c (⟨.empty⟩ : Unordered order) := by
  intro f l m
  have hf : f.Fit := by
    rintro p ⟨⟩
    exact (by decide : Separate (Ascii.lower "Baggage-") (f.propagator : Propagator (KeyMap String)).fields)
  obtain ⟨r, hr, hc⟩ := extracted_is_forwarded hf (m := m) (l := l) rfl
  let c := (Context.new 0xABC 7 true).withBaggage [("a b", " 3,é")]
  have hanswer : (f.propagator.extractLenient m).answer = .ok (some c) := by decide +kernel
  have hsome : r = some c := Except.ok.inj (hr.symm.trans hanswer)
  exact ⟨hf, rfl, c, hanswer, by decide +kernel, hc c hsome⟩

end Format

end SpanFlow
