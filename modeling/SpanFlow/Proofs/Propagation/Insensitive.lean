import SpanFlow.Proofs.Carrier.Faithful
import SpanFlow.Proofs.Propagation.RoundTrip
import SpanFlow.Proofs.Propagation.Tree

/-!
What reading does not depend on. The entries that concern a tree of formats are those under its fixed
keys and those under its prefixes, compared without case. Main statement: a context is read from these
alone, whatever the case of their keys, whatever stands between them, and in whatever order they come as
long as no two of them have the same key.
-/

namespace SpanFlow

variable {C D : Type}

theorem findEntry_lowered (es : Entries) (key : String) : findEntry (lowered es) key = findEntry es key := by
  rw [findEntry_eq, findEntry_eq, lowered_lowered]

theorem findEntry_filter {es : Entries} {keep : String → Bool} {key : String}
    (h : ∀ k, Ascii.lower k = Ascii.lower key → keep k = true) :
    findEntry (es.filter fun e => keep e.1) key = findEntry es key := by
  rw [findEntry, findEntry, List.find?_filter]
  congr 2
  funext e
  by_cases he : Ascii.lower e.1 = Ascii.lower key
  · simp [Ascii.sameIgnoringCase, he, h e.1 he]
  · simp [Ascii.sameIgnoringCase, he]

theorem findEntry_of_perm {es fs : Entries} (hd : Distinct es) (h : fs.Perm es) (key : String) :
    findEntry fs key = findEntry es key := by
  have hlists : Lists fs es := .of_perm h
  have hnd : ((lowered fs).map (·.1)).Nodup := (List.Perm.map _ hlists).nodup_iff.2 hd
  refine Option.ext fun v => ?_
  rw [findEntry_eq, findEntry_eq, find?_key_iff hnd, find?_key_iff hd, List.Perm.mem_iff hlists]

theorem Context.withBaggage_perm {items more : List (String × String)} (hl : ∀ e ∈ items, Ascii.lower e.1 = e.1)
    (hnd : (items.map (·.1)).Nodup) (h : more.Perm items) (trace : TraceId) (span : SpanId) (sampled : Bool) :
    (new trace span sampled).withBaggage more = (new trace span sampled).withBaggage items := by
  have hperm := perm_withBaggage (new trace span sampled) hl (by simpa [new] using hnd)
  simp only [new, KeyMap.entries_empty, List.append_nil] at hperm
  have hlowered := lowered_new trace span sampled items
  have hmore := withBaggage_of_perm hlowered (h.trans hperm.symm) trace span sampled
  have hitems := withBaggage_of_perm hlowered hperm.symm trace span sampled
  exact hmore.trans hitems.symm

namespace B3

theorem lower_itemName? {p key name : String} (hp : Ascii.lower p = p) (h : itemName? p key = some name) :
    Ascii.lower name = name := by
  have hname := (itemName?_eq_some_iff.1 h).1
  have hkey := congrArg Ascii.lower hname
  rw [Ascii.lower_lower, hname, Ascii.lower_append, hp] at hkey
  exact (String.append_right_inj p |>.1 hkey).symm

theorem lower_items {p : String} (hp : Ascii.lower p = p) (es : Entries) : ∀ e ∈ items p es, Ascii.lower e.1 = e.1 := by
  intro e he
  obtain ⟨x, -, hx⟩ := List.mem_filterMap.1 he
  obtain ⟨name, hname, rfl⟩ := Option.map_eq_some_iff.1 hx
  exact lower_itemName? hp hname

theorem nodup_items {p : String} {es : Entries} (hd : Distinct es) : ((items p es).map (·.1)).Nodup := by
  rw [Distinct, lowered, List.map_map] at hd
  refine List.pairwise_map.2 (List.pairwise_filterMap.2 ((List.pairwise_map.1 hd).imp ?_))
  intro x y hne a ha b hb heq
  obtain ⟨name, hname, rfl⟩ := Option.map_eq_some_iff.1 ha
  obtain ⟨other, hother, rfl⟩ := Option.map_eq_some_iff.1 hb
  refine hne ?_
  simp only [Function.comp_apply, (itemName?_eq_some_iff.1 hname).1, (itemName?_eq_some_iff.1 hother).1]
  exact congrArg (p ++ ·) heq

theorem items_filter {p : String} {es : Entries} {keep : String → Bool}
    (h : ∀ k, underPrefix p k = true → keep k = true) : items p (es.filter fun e => keep e.1) = items p es := by
  rw [items_eq, items_eq, List.filterMap_filter]
  refine List.filterMap_congr fun e _ => ?_
  cases hunder : underPrefix p e.1 with
  | true => simp [h e.1 hunder]
  | false => simp [item?, itemName?_of_not_under hunder]

theorem answer_read (p a b : String) (es : Entries) : (read p a es).answer = (read p b es).answer := by
  unfold read
  split
  · rfl
  · rfl
  · split <;> rfl

end B3

theorem TraceContext.answer_read (a b : String) (es : Entries) : (read a es).answer = (read b es).answer := by
  unfold read
  split
  · rfl
  · split <;> rfl

namespace SingleFormat

/-- The format finds the same in both lists. -/
structure Alike (f : SingleFormat) (es fs : Entries) : Prop where
  found : ∀ key ∈ f.fields, findEntry fs key = findEntry es key
  items : ∀ p, f.usedPrefix? = some p → ∀ trace span sampled,
    (Context.new trace span sampled).withBaggage (B3.items p fs) =
      (Context.new trace span sampled).withBaggage (B3.items p es)

theorem read_of_alike {f : SingleFormat} {es fs : Entries} (h : f.Alike es fs) (carrier : String) :
    f.read carrier fs = f.read carrier es := by
  cases f with
  | b3 p =>
    have htrace : findEntry fs B3.traceKey = findEntry es B3.traceKey := h.found _ (by simp [fields, B3.fields])
    have hspan : findEntry fs B3.spanKey = findEntry es B3.spanKey := h.found _ (by simp [fields, B3.fields])
    have hsampled : findEntry fs B3.sampledKey = findEntry es B3.sampledKey := h.found _ (by simp [fields, B3.fields])
    have hflags : findEntry fs B3.flagsKey = findEntry es B3.flagsKey := h.found _ (by simp [fields, B3.fields])
    simp only [read, B3.read, B3.sampled, htrace, hspan, hsampled, hflags, h.items _ rfl]
  | w3c =>
    have hparent : findEntry fs TraceContext.parentKey = findEntry es TraceContext.parentKey :=
      h.found _ (by simp [fields, TraceContext.fields])
    have hbaggage : findEntry fs TraceContext.baggageKey = findEntry es TraceContext.baggageKey :=
      h.found _ (by simp [fields, TraceContext.fields])
    simp only [read, TraceContext.read, hparent, hbaggage]

theorem answer_read (f : SingleFormat) (a b : String) (es : Entries) : (f.read a es).answer = (f.read b es).answer := by
  cases f with
  | b3 p => exact B3.answer_read _ a b es
  | w3c => exact TraceContext.answer_read a b es

theorem lower_usedPrefix {f : SingleFormat} {p : String} (h : f.usedPrefix? = some p) : Ascii.lower p = p := by
  cases f with
  | b3 q =>
    cases h
    exact B3.lower_usedPrefix q
  | w3c => cases h

end SingleFormat

namespace Extraction

theorem answer_orElse {x x' y y' : Extraction} (hx : x.answer = x'.answer) (hy : y.answer = y'.answer) :
    (x.orElse y).answer = (x'.orElse y').answer := by
  obtain ⟨events, answer⟩ := x
  obtain ⟨more, answer'⟩ := x'
  cases hx
  rcases answer with e | (_ | c)
  · rfl
  · exact hy
  · rfl

end Extraction

def usable : Except CarrierError (Option Context) → Except CarrierError (Option Context)
  | .ok (some c) => .ok (if c.isValid then some c else none)
  | .ok none => .ok none
  | .error e => if e.isUnsupported then .error e else .ok none

theorem Propagator.answer_extractLenient [TextMap C] (p : Propagator C) (m : C) :
    (p.extractLenient m).answer = usable (p.extract m).answer := by
  unfold extractLenient usable
  rcases h : (p.extract m).answer with e | (_ | c)
  · by_cases he : e.isUnsupported = true <;> simp [he, h]
  · simp [h]
  · simp [h]

namespace FormatTree

variable {t : FormatTree} {es fs : Entries}

def concerns (t : FormatTree) (key : String) : Bool :=
  t.fields.any (fun f => Ascii.lower key == Ascii.lower f) || t.usedPrefixes.any fun p => underPrefix p key

def concerned (t : FormatTree) (es : Entries) : Entries :=
  es.filter fun e => t.concerns e.1

theorem concerns_of_field {f : SingleFormat} (hf : f ∈ t.leaves) {key k : String} (hkey : key ∈ f.fields)
    (h : Ascii.lower k = Ascii.lower key) : t.concerns k = true := by
  have hany : t.fields.any (fun f => Ascii.lower k == Ascii.lower f) = true :=
    List.any_eq_true.2 ⟨key, mem_fields_iff.2 ⟨f, hf, hkey⟩, by simpa using h⟩
  rw [concerns, hany, Bool.true_or]

theorem concerns_of_prefix {f : SingleFormat} (hf : f ∈ t.leaves) {p k : String} (hp : f.usedPrefix? = some p)
    (h : underPrefix p k = true) : t.concerns k = true := by
  have hany : t.usedPrefixes.any (fun p => underPrefix p k) = true :=
    List.any_eq_true.2 ⟨p, mem_usedPrefixes_iff.2 ⟨f, hf, hp⟩, h⟩
  rw [concerns, hany, Bool.or_true]

theorem read_of_alike (h : ∀ f ∈ t.leaves, f.Alike es fs) (carrier : String) :
    t.read carrier fs = t.read carrier es := by
  rw [read, read, List.map_congr_left fun f hf => SingleFormat.read_of_alike (h f hf) carrier]

theorem read_concerned (t : FormatTree) (carrier : String) (es : Entries) :
    t.read carrier (t.concerned es) = t.read carrier es := by
  refine read_of_alike (fun f hf => ⟨fun key hkey => ?_, fun p hp trace span sampled => ?_⟩) carrier
  · exact findEntry_filter fun k hk => concerns_of_field hf hkey hk
  · rw [concerned, B3.items_filter fun k hk => concerns_of_prefix hf hp hk]

theorem read_lowered (t : FormatTree) (carrier : String) (es : Entries) :
    t.read carrier (lowered es) = t.read carrier es := by
  refine read_of_alike (fun f _ => ⟨fun key _ => findEntry_lowered es key, fun p _ trace span sampled => ?_⟩) carrier
  rw [B3.items_lowered]

theorem read_of_perm (hd : Distinct es) (h : fs.Perm es) (carrier : String) : t.read carrier fs = t.read carrier es := by
  refine read_of_alike (fun f _ => ⟨fun key _ => findEntry_of_perm hd h key, fun p hp trace span sampled => ?_⟩) carrier
  exact Context.withBaggage_perm (B3.lower_items (SingleFormat.lower_usedPrefix hp) es) (B3.nodup_items hd)
    (h.filterMap _) trace span sampled

theorem answer_read (t : FormatTree) (a b : String) (es : Entries) : (t.read a es).answer = (t.read b es).answer := by
  rw [read, read]
  induction t.leaves with
  | nil => rfl
  | cons f fs ih => exact Extraction.answer_orElse (f.answer_read a b es) ih

/-- Both carriers give the same answers, and if they have the same name, they tell the same events. -/
structure ReadsAlike [TextMap C] [TextMap D] (t : FormatTree) (m : C) (n : D) : Prop where
  raw : (t.propagator.extract m).answer = (t.propagator.extract n).answer
  lenient : (t.propagator.extractLenient m).answer = (t.propagator.extractLenient n).answer
  events : TextMap.name m = TextMap.name n → t.propagator.extract m = t.propagator.extract n

theorem readsAlike_of_read [TextMap C] [TextMap D] {m : C} {n : D} (hm : TextMap.entries m = .ok es)
    (hn : TextMap.entries n = .ok fs) (h : ∀ carrier, t.read carrier fs = t.read carrier es) : t.ReadsAlike m n := by
  have hraw : (t.propagator.extract m).answer = (t.propagator.extract n).answer := by
    rw [t.extract_eq hm, t.extract_eq hn, h, t.answer_read]
  refine ⟨hraw, ?_, fun hname => ?_⟩
  · rw [Propagator.answer_extractLenient, Propagator.answer_extractLenient, hraw]
  · rw [t.extract_eq hm, t.extract_eq hn, h, hname]

/-- What is read from a carrier stays the same if the case of keys is changed; if entries that do not
concern the formats are put in or taken out anywhere; and, where no two of the entries that do have keys
that are the same without case, if the entries are listed in another order. -/
theorem extract_depends_on_concerned [TextMap C] [TextMap D] (t : FormatTree) {m : C} {n : D} {es fs : Entries}
    (hm : TextMap.entries m = .ok es) (hn : TextMap.entries n = .ok fs) :
    (lowered fs = lowered es → t.ReadsAlike m n) ∧
    (t.concerned fs = t.concerned es → t.ReadsAlike m n) ∧
    (Distinct (t.concerned es) → fs.Perm es → t.ReadsAlike m n) := by
  refine ⟨fun h => ?_, fun h => ?_, fun hd h => ?_⟩
  · exact readsAlike_of_read hm hn fun carrier => by rw [← t.read_lowered, h, t.read_lowered]
  · exact readsAlike_of_read hm hn fun carrier => by rw [← t.read_concerned, h, t.read_concerned]
  · refine readsAlike_of_read hm hn fun carrier => ?_
    rw [← t.read_concerned, ← t.read_concerned carrier es]
    exact read_of_perm hd (h.filter _) carrier

/-- Two maps with the same content list it forwards and backwards; only keys that nobody asks for differ
in case alone. -/
theorem extract_depends_on_concerned_reversed :
    let t : FormatTree := .composite [.leaf .w3c, .composite [.leaf (.b3 "Baggage-")]]
    let es := [("Accept", "1"), ("BAGGAGE-b", "2"), ("X-B3-SPANID", "7"), ("accept", "3"), ("baggage-A", "4"),
      ("x-b3-traceid", "2a")]
    let m : Unordered fun _ => es := ⟨.ofList es⟩
    let n : Unordered fun _ => es.reverse := ⟨.ofList es⟩
    TextMap.entries m = .ok es ∧ TextMap.entries n = .ok es.reverse ∧ Distinct (t.concerned es) ∧ t.ReadsAlike m n ∧
      (t.propagator.extract n).answer =
        .ok (some ((Context.new 0x2A 7 true).withBaggage [("a", "4"), ("b", "2")])) := by
  intro t es m n
  have hd : Distinct (t.concerned es) :=
    (by decide +kernel : ((lowered (t.concerned es)).map (·.1)).Nodup)
  have halike := (extract_depends_on_concerned t (m := m) (n := n) rfl rfl).2.2 hd (List.reverse_perm es)
  exact ⟨rfl, rfl, hd, halike, by decide +kernel⟩

end FormatTree

end SpanFlow
