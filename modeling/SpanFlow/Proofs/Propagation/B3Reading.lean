import SpanFlow.Proofs.Propagation.Insensitive
import SpanFlow.Proofs.Text.Numeral

/-!
What B3 reads from entries of any sort, whatever is repeated in them and under whatever spelling. Of the
fixed headers the first entry counts, and of a baggage item the last. Main statement: a context is read
exactly if both identifiers are given in full, and then with these identifiers, with the sampling decision
of the flags and of the header for it, and with no baggage but what stands under the prefix.
-/

namespace SpanFlow

/-- The first entry under the key, compared without case, has this value. -/
def FirstUnder (es : Entries) (key value : String) : Prop :=
  ∃ before k after, es = before ++ (k, value) :: after ∧ Ascii.lower k = Ascii.lower key ∧
    ∀ e ∈ before, Ascii.lower e.1 ≠ Ascii.lower key

def LastUnder (es : Entries) (key value : String) : Prop :=
  ∃ before k after, es = before ++ (k, value) :: after ∧ Ascii.lower k = Ascii.lower key ∧
    ∀ e ∈ after, Ascii.lower e.1 ≠ Ascii.lower key

theorem findEntry_eq_some_iff {es : Entries} {key v : String} : findEntry es key = some v ↔ FirstUnder es key v := by
  rw [findEntry, Option.map_eq_some_iff]
  constructor
  · rintro ⟨⟨k, u⟩, hfound, rfl⟩
    obtain ⟨hk, before, after, hes, hbefore⟩ := List.find?_eq_some_iff_append.1 hfound
    exact ⟨before, k, after, hes, by simpa [Ascii.sameIgnoringCase] using hk,
      fun e he => by simpa [Ascii.sameIgnoringCase] using hbefore e he⟩
  · rintro ⟨before, k, after, hes, hk, hbefore⟩
    refine ⟨(k, v), List.find?_eq_some_iff_append.2 ⟨by simpa [Ascii.sameIgnoringCase] using hk, before, after, hes, ?_⟩, rfl⟩
    exact fun e he => by simpa [Ascii.sameIgnoringCase] using hbefore e he

section LastUnder

variable {es : Entries} {e : String × String} {key v : String}

theorem not_lastUnder_nil : ¬LastUnder [] key v := by
  rintro ⟨before, k, after, hes, -, -⟩
  exact absurd hes (by simp)

theorem lastUnder_snoc_self (he : Ascii.lower e.1 = Ascii.lower key) : LastUnder (es ++ [e]) key v ↔ e.2 = v := by
  constructor
  · rintro ⟨before, k, after, hes, -, hafter⟩
    rcases after.eq_nil_or_concat' with rfl | ⟨after, x, rfl⟩
    · cases (List.append_inj' hes rfl).2
      rfl
    · rw [← List.cons_append, ← List.append_assoc] at hes
      cases (List.append_inj' hes rfl).2
      exact absurd he (hafter e (by simp))
  · rintro rfl
    exact ⟨es, e.1, [], rfl, he, by simp⟩

theorem lastUnder_snoc_of_ne (he : Ascii.lower e.1 ≠ Ascii.lower key) :
    LastUnder (es ++ [e]) key v ↔ LastUnder es key v := by
  constructor
  · rintro ⟨before, k, after, hes, hk, hafter⟩
    rcases after.eq_nil_or_concat' with rfl | ⟨after, x, rfl⟩
    · cases (List.append_inj' hes rfl).2
      exact absurd hk he
    · rw [← List.cons_append, ← List.append_assoc] at hes
      exact ⟨before, k, after, (List.append_inj' hes rfl).1, hk, fun y hy => hafter y (by simp [hy])⟩
  · rintro ⟨before, k, after, rfl, hk, hafter⟩
    refine ⟨before, k, after ++ [e], by simp, hk, fun y hy => ?_⟩
    rcases List.mem_append.1 hy with hy | hy
    · exact hafter y hy
    · rw [List.mem_singleton.1 hy]
      exact he

end LastUnder

namespace B3

/-- The first entry under the key is a row of at most so many digits for this number, which is not zero. -/
def Gives (bound : Nat) (es : Entries) (key : String) (n : Nat) : Prop :=
  ∃ value, FirstUnder es key value ∧ Hex.MixedRow bound value.toList ∧ Hex.number value.toList = n ∧ n ≠ 0

/-- The headers say that the trace is not sampled, and the flags do not say otherwise. -/
structure Unsampled (es : Entries) : Prop where
  flags : ∀ v, FirstUnder es flagsKey v → v ≠ "1"
  header : ∃ v, FirstUnder es sampledKey v ∧ (v = "0" ∨ Ascii.lower v = "false")

/-- What the entries say of a context, with baggage under a prefix in small letters. -/
structure Reading (p : String) (es : Entries) (c : Context) : Prop where
  trace : Gives 32 es traceKey c.trace.toNat
  span : Gives 16 es spanKey c.span.toNat
  sampled : c.sampled = false ↔ Unsampled es
  baggage : ∀ n v, c.baggage.get? n = some v ↔ n ≠ "" ∧ Ascii.lower n = n ∧ LastUnder es (p ++ n) v

variable {p : String} {es : Entries}

def id? (bound : Nat) (es : Entries) (key : String) : Option Nat :=
  (findEntry es key).bind (Hex.bounded? bound)

theorem id?_eq_some_iff {bound : Nat} {key : String} {n : Nat} : id? bound es key = some n ↔ Gives bound es key n := by
  simp only [id?, Option.bind_eq_some_iff, findEntry_eq_some_iff, Hex.bounded?_eq_some_iff, Gives]

theorem Gives.lt {bound n : Nat} {key : String} (h : Gives bound es key n) : n < 16 ^ bound := by
  obtain ⟨value, -, hrow, rfl, -⟩ := h
  exact hrow.number_lt

theorem Gives.unique {bound m n : Nat} {key : String} (hm : Gives bound es key m) (hn : Gives bound es key n) :
    m = n :=
  Option.some.inj ((id?_eq_some_iff.2 hm).symm.trans (id?_eq_some_iff.2 hn))

theorem same_as_false_iff {v : String} : Ascii.sameIgnoringCase v "false" = true ↔ Ascii.lower v = "false" := by
  have hfalse : Ascii.lower "false" = "false" := by decide
  rw [Ascii.sameIgnoringCase, beq_iff_eq, hfalse]

theorem sampled_eq_false_iff : (sampled es).1 = false ↔ Unsampled es := by
  constructor
  · intro h
    unfold sampled at h
    split at h
    · cases h
    · next hflags =>
      split at h
      · cases h
      · next v hv =>
        split at h
        · cases h
        · split at h
          · next hno =>
            refine ⟨fun u hu hone => hflags ?_, v, findEntry_eq_some_iff.1 hv, ?_⟩
            · rw [findEntry_eq_some_iff.2 hu, hone]
            · rwa [same_as_false_iff] at hno
          · cases h
  · rintro ⟨hflags, v, hv, hno⟩
    have hflag : findEntry es flagsKey ≠ some "1" := fun h => hflags "1" (findEntry_eq_some_iff.1 h) rfl
    have hyes : ¬(v = "1" ∨ Ascii.sameIgnoringCase v "true") := by
      rcases hno with rfl | hfalse
      · decide
      · rintro (rfl | htrue)
        · exact absurd hfalse (by decide)
        · rw [Ascii.sameIgnoringCase, hfalse] at htrue
          exact absurd htrue (by decide)
    have hsame : v = "0" ∨ Ascii.sameIgnoringCase v "false" := by rwa [same_as_false_iff]
    rw [sampled, if_neg hflag, findEntry_eq_some_iff.2 hv]
    simp only [if_neg hyes, if_pos hsame]

theorem baggage_items_snoc (c : Context) (e : String × String) :
    (c.withBaggage (items p (es ++ [e]))).baggage =
      match itemName? p e.1 with
      | some name => (c.withBaggage (items p es)).baggage.insert (Ascii.lower name) e.2
      | none => (c.withBaggage (items p es)).baggage := by
  rw [items_append, Context.withBaggage, List.foldl_append]
  cases hname : itemName? p e.1 with
  | none => simp [items, hname, Context.withBaggage]
  | some name => simp [items, hname, Context.withBaggage, Context.withItem]

/-- The baggage that is read maps a name to the value of the last entry for it, and nothing else. -/
theorem get?_items (hp : Ascii.lower p = p) (trace : TraceId) (span : SpanId) (isSampled : Bool) (n v : String) :
    ((Context.new trace span isSampled).withBaggage (items p es)).baggage.get? n = some v ↔
      n ≠ "" ∧ Ascii.lower n = n ∧ LastUnder es (p ++ n) v := by
  induction es using List.reverseRecOn with
  | nil => exact ⟨(fun h => nomatch h), fun h => absurd h.2.2 not_lastUnder_nil⟩
  | append_singleton es e ih =>
    rw [baggage_items_snoc]
    -- Only a name that is in small letters and not empty can be the name of an entry.
    have hkey (hlower : Ascii.lower n = n) : Ascii.lower (p ++ n) = p ++ n := by rw [Ascii.lower_append, hp, hlower]
    cases hname : itemName? p e.1 with
    | none =>
      rw [ih]
      refine and_congr_right fun hn => and_congr_right fun hlower => (lastUnder_snoc_of_ne ?_).symm
      rw [hkey hlower]
      exact fun heq => nomatch hname.symm.trans (itemName?_eq_some_iff.2 ⟨heq, hn⟩)
    | some name =>
      obtain ⟨heq, hne⟩ := itemName?_eq_some_iff.1 hname
      have hsmall := lower_itemName? hp hname
      simp only [hsmall]
      by_cases hn : name = n
      · subst hn
        rw [KeyMap.get?_insert_self, lastUnder_snoc_self (heq.trans (hkey hsmall).symm), Option.some.injEq]
        exact ⟨fun h => ⟨hne, hsmall, h⟩, fun h => h.2.2⟩
      · rw [KeyMap.get?_insert_of_ne _ hn, ih]
        refine and_congr_right fun _ => and_congr_right fun hlower => (lastUnder_snoc_of_ne ?_).symm
        rw [heq, hkey hlower]
        exact fun h => hn (String.append_right_inj p |>.1 h)

theorem answer_read_eq (carrier : String) : (read p carrier es).answer =
    .ok ((id? 32 es traceKey).bind fun t => (id? 16 es spanKey).map fun s =>
      (Context.new (BitVec.ofNat 128 t) (BitVec.ofNat 64 s) (sampled es).1).withBaggage (items p es)) := by
  unfold read id?
  cases findEntry es traceKey with
  | none => rfl
  | some rawTrace =>
    cases findEntry es spanKey with
    | none =>
      simp [Extraction.ignored]
    | some rawSpan =>
      simp only [Option.bind_some]
      cases Hex.bounded? 32 rawTrace with
      | none => rfl
      | some t =>
        cases Hex.bounded? 16 rawSpan with
        | none => rfl
        | some s => rfl

theorem reading_of_gives (hp : Ascii.lower p = p) {t s : Nat} (ht : Gives 32 es traceKey t) (hs : Gives 16 es spanKey s) :
    Reading p es ((Context.new (BitVec.ofNat 128 t) (BitVec.ofNat 64 s) (sampled es).1).withBaggage (items p es)) where
  trace := by
    have hfits : t % 2 ^ 128 = t := Nat.mod_eq_of_lt ht.lt
    rw [Context.trace_withBaggage, Context.new, BitVec.toNat_ofNat, hfits]
    exact ht
  span := by
    have hfits : s % 2 ^ 64 = s := Nat.mod_eq_of_lt hs.lt
    rw [Context.span_withBaggage, Context.new, BitVec.toNat_ofNat, hfits]
    exact hs
  sampled := by
    rw [Context.sampled_withBaggage]
    exact sampled_eq_false_iff
  baggage n v := get?_items hp _ _ _ n v

theorem Reading.unique {c d : Context} (hc : Reading p es c) (hd : Reading p es d) : c = d := by
  obtain ⟨trace, span, isSampled, baggage⟩ := c
  obtain ⟨trace', span', isSampled', baggage'⟩ := d
  have htrace : trace = trace' := BitVec.eq_of_toNat_eq (hc.trace.unique hd.trace)
  have hspan : span = span' := BitVec.eq_of_toNat_eq (hc.span.unique hd.span)
  have hsampled : isSampled = false ↔ isSampled' = false := hc.sampled.trans hd.sampled.symm
  have hbaggage : baggage = baggage' := KeyMap.eq_of_get? fun n v => (hc.baggage n v).trans (hd.baggage n v).symm
  subst htrace hspan hbaggage
  have hsame : isSampled = isSampled' := by
    cases isSampled' with
    | false => exact hsampled.2 rfl
    | true => exact Bool.eq_true_of_not_eq_false fun h => nomatch hsampled.1 h
  rw [hsame]

/-- Whatever entries a carrier lists, reading them is no error. A context is read exactly if the first entry
for each of the identifiers has digits for a number that is not zero, and then what is read is the one context
of which the entries speak. -/
theorem read_iff_reading {C : Type} [TextMap C] (baggagePrefix : String) {m : C} (hm : TextMap.entries m = .ok es) :
    ∃ r, ((propagator baggagePrefix : Propagator C).extract m).answer = .ok r ∧
      (r.isSome = true ↔ ∃ t s, Gives 32 es traceKey t ∧ Gives 16 es spanKey s) ∧
      ∀ c, r = some c ↔ Reading (Ascii.lower baggagePrefix) es c := by
  have hanswer : ((propagator baggagePrefix : Propagator C).extract m).answer =
      (read (usedPrefix baggagePrefix) (TextMap.name m) es).answer := by
    simp only [propagator, Propagator.ofEntries, hm]
  rw [hanswer, answer_read_eq]
  have hsome {c : Context} {t s : Nat} (ht : id? 32 es traceKey = some t) (hs : id? 16 es spanKey = some s) :
      Reading (Ascii.lower baggagePrefix) es c ↔
        (Context.new (BitVec.ofNat 128 t) (BitVec.ofNat 64 s) (sampled es).1).withBaggage
          (items (usedPrefix baggagePrefix) es) = c := by
    have hreading := reading_of_gives (lower_usedPrefix baggagePrefix) (id?_eq_some_iff.1 ht) (id?_eq_some_iff.1 hs)
    exact ⟨fun hc => hreading.unique hc, fun hc => hc ▸ hreading⟩
  refine ⟨_, rfl, ?_, fun c => ?_⟩
  · simp only [Option.isSome_iff_exists, Option.bind_eq_some_iff, Option.map_eq_some_iff, id?_eq_some_iff]
    constructor
    · rintro ⟨-, t, ht, s, hs, -⟩
      exact ⟨t, s, ht, hs⟩
    · rintro ⟨t, s, ht, hs⟩
      exact ⟨_, t, ht, s, hs, rfl⟩
  · simp only [Option.bind_eq_some_iff, Option.map_eq_some_iff]
    constructor
    · rintro ⟨t, ht, s, hs, hc⟩
      exact (hsome ht hs).2 hc
    · intro hc
      have ht := id?_eq_some_iff.2 hc.trace
      have hs := id?_eq_some_iff.2 hc.span
      exact ⟨_, ht, _, hs, (hsome ht hs).1 hc⟩

/-- Identifiers in several spellings, and a prefix under which the fixed headers are baggage too. -/
theorem read_iff_reading_repeated :
    let es := [("x-b3-TRACEID", "00fF"), ("X-B3-Flags", "0"), ("X-B3-TraceId", "x"), ("x-b3-spanid", "7"),
      ("X-B3-SAMPLED", "FALSE"), ("X-B3-Flags", "1"), ("X-B3-", "y")]
    let m : Unordered fun _ => es := ⟨.empty⟩
    TextMap.entries m = .ok es ∧
      ∃ c, ((propagator "X-b3-" : Propagator (Unordered fun _ => es)).extract m).answer = .ok (some c) ∧
        c.trace.toNat = 0xFF ∧ c.span.toNat = 7 ∧ c.sampled = false ∧ c.baggage.get? "traceid" = some "x" ∧
        c.baggage.get? "flags" = some "1" ∧ c.baggage.get? "" = none := by
  intro es m
  have hentries : TextMap.entries m = .ok es := rfl
  obtain ⟨r, hr, hsome, hreading⟩ := read_iff_reading "X-b3-" hentries
  have htrace : Gives 32 es traceKey 0xFF :=
    ⟨"00fF", ⟨[], _, _, rfl, by decide, by simp⟩, ⟨by decide, by decide, forall_mem_of_all (by decide)⟩,
      by decide, by decide⟩
  have hspan : Gives 16 es spanKey 7 :=
    ⟨"7", ⟨es.take 3, _, _, rfl, by decide, by decide⟩,
      ⟨by decide, by decide, forall_mem_of_all (by decide)⟩, by decide, by decide⟩
  obtain ⟨c, rfl⟩ := Option.isSome_iff_exists.1 (hsome.2 ⟨_, _, htrace, hspan⟩)
  have hc := (hreading c).1 rfl
  have hflags : findEntry es flagsKey = some "0" := by decide
  have hno : Unsampled es :=
    ⟨fun v hv hone => by rw [← findEntry_eq_some_iff, hflags, hone] at hv; exact absurd hv (by decide),
      "FALSE", ⟨es.take 4, _, _, rfl, by decide, by decide⟩, .inr (by decide)⟩
  refine ⟨hentries, c, hr, hc.trace.unique htrace, hc.span.unique hspan, hc.sampled.2 hno, ?_, ?_, ?_⟩
  · exact (hc.baggage _ _).2 ⟨by decide, by decide, es.take 2, _, _, rfl, by decide, by decide⟩
  · exact (hc.baggage _ _).2 ⟨by decide, by decide, es.take 5, _, _, rfl, by decide, by decide⟩
  · exact Option.eq_none_iff_forall_ne_some.2 fun v hv => ((hc.baggage "" v).1 hv).1 rfl

end B3

end SpanFlow
