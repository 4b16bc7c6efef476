import SpanFlow.Proofs.Carrier.Faithful
import SpanFlow.Proofs.Propagation.B3
import SpanFlow.Proofs.Propagation.TraceContext

namespace SpanFlow

variable {C : Type}

inductive Format where
  | b3 (baggagePrefix : String)
  | w3c
  | b3First (baggagePrefix : String)
  | b3Last (baggagePrefix : String)

namespace Format

def propagator [TextMap C] : Format → Propagator C
  | .b3 p => B3.propagator p
  | .w3c => TraceContext.propagator
  | .b3First p => .composite [B3.propagator p, TraceContext.propagator]
  | .b3Last p => .composite [TraceContext.propagator, B3.propagator p]

def baggagePrefix? : Format → Option String
  | .b3 p => some p
  | .w3c => none
  | .b3First p => some p
  | .b3Last p => some p

/-- None of the fixed keys in use starts with the prefix, compared without case. -/
def Fit (f : Format) : Prop :=
  ∀ p, f.baggagePrefix? = some p → Separate (Ascii.lower p) (f.propagator : Propagator (KeyMap String)).fields

def written (f : Format) (c : Context) : Entries :=
  match f with
  | .b3 p => B3.written (B3.usedPrefix p) c
  | .w3c => TraceContext.written c
  | .b3First p => B3.written (B3.usedPrefix p) c ++ TraceContext.written c
  | .b3Last p => TraceContext.written c ++ B3.written (B3.usedPrefix p) c

theorem injectAll_two [TextMap C] (p q : Propagator C) (a b : Entries) (c : Context)
    (hp : p.inject c = putAll a) (hq : q.inject c = putAll b) :
    (Propagator.composite [p, q]).inject c = putAll (a ++ b) := by
  funext m
  rw [putAll_append]
  simp only [Propagator.composite, Propagator.injectAll, hp, hq, bind, EStateM.bind]
  cases putAll a m with
  | error e x => rfl
  | ok u x =>
    simp only []
    cases putAll b x with
    | error e y => rfl
    | ok u y => rfl

theorem inject_eq [TextMap C] (f : Format) (c : Context) :
    (f.propagator : Propagator C).inject c = putAll (f.written c) := by
  cases f with
  | b3 p => rfl
  | w3c => rfl
  | b3First p => exact injectAll_two _ _ _ _ c rfl rfl
  | b3Last p => exact injectAll_two _ _ _ _ c rfl rfl

theorem mem_fields_of_mem_written {c : Context} {e : String × String} (he : e ∈ TraceContext.written c) :
    e.1 ∈ TraceContext.fields := by
  rcases TraceContext.eq_of_mem_written he with rfl | rfl
  · exact (by decide : TraceContext.parentKey ∈ TraceContext.fields)
  · exact (by decide : TraceContext.baggageKey ∈ TraceContext.fields)

theorem distinct_w3c (c : Context) : Distinct (TraceContext.written c) := by
  unfold TraceContext.written
  split
  · exact (by decide : [Ascii.lower TraceContext.parentKey].Nodup)
  · exact (by decide : [Ascii.lower TraceContext.parentKey, Ascii.lower TraceContext.baggageKey].Nodup)

theorem beside_w3c {p : String} (h : Separate p TraceContext.fields) (c : Context) :
    B3.Beside p (TraceContext.written c) where
  distinct := distinct_w3c c
  separate k hk := by
    obtain ⟨e, he, rfl⟩ := List.mem_map.1 hk
    exact h _ (mem_fields_of_mem_written he)
  fields e he f hf := by
    have hother : ∀ k ∈ TraceContext.fields, ∀ f ∈ B3.fields, Ascii.lower f ≠ Ascii.lower k := by decide
    exact hother _ (mem_fields_of_mem_written he) f hf

theorem Fit.b3 {p : String} (h : (Format.b3 p).Fit) : Separate (B3.usedPrefix p) B3.fields := h p rfl

theorem Fit.b3First {p : String} (h : (Format.b3First p).Fit) :
    Separate (B3.usedPrefix p) B3.fields ∧ Separate (B3.usedPrefix p) TraceContext.fields :=
  ⟨fun k hk => h p rfl k (List.mem_append_left _ hk),
    fun k hk => h p rfl k (List.mem_append_right _ (List.mem_append_left _ hk))⟩

theorem Fit.b3Last {p : String} (h : (Format.b3Last p).Fit) :
    Separate (B3.usedPrefix p) B3.fields ∧ Separate (B3.usedPrefix p) TraceContext.fields :=
  ⟨fun k hk => h p rfl k (List.mem_append_right _ (List.mem_append_left _ hk)),
    fun k hk => h p rfl k (List.mem_append_left _ hk)⟩

theorem fit_default : (Format.b3 B3.defaultPrefix).Fit ∧ Format.w3c.Fit ∧ (Format.b3First B3.defaultPrefix).Fit ∧
    (Format.b3Last B3.defaultPrefix).Fit := by
  have hb3 : ∀ k ∈ B3.fields, underPrefix (Ascii.lower B3.defaultPrefix) k = false := by decide
  have hw3c : ∀ k ∈ TraceContext.fields ++ [], underPrefix (Ascii.lower B3.defaultPrefix) k = false := by decide
  refine ⟨?_, (fun p hp => nomatch hp), ?_, ?_⟩
  · rintro p ⟨⟩
    exact hb3
  · rintro p ⟨⟩ k hk
    rcases List.mem_append.1 hk with hk | hk
    · exact hb3 k hk
    · exact hw3c k hk
  · rintro p ⟨⟩ k hk
    rcases List.mem_append.1 hk with hk | hk
    · exact hw3c k (List.mem_append_left _ hk)
    · have hk : k ∈ B3.fields ++ [] := hk
      exact hb3 k (by simpa using hk)

theorem distinct_written {f : Format} (hf : f.Fit) {c : Context} (hc : c.baggage.Lowered) :
    Distinct (f.written c) := by
  have hboth {p : String} (hb3 : Separate (B3.usedPrefix p) B3.fields)
      (hw3c : Separate (B3.usedPrefix p) TraceContext.fields) :
      Distinct (B3.written (B3.usedPrefix p) c ++ TraceContext.written c) :=
    B3.distinct_written (B3.lower_usedPrefix p) hb3 hc (beside_w3c hw3c c)
  cases f with
  | b3 p =>
    have h := B3.distinct_written (B3.lower_usedPrefix p) hf.b3 hc (B3.beside_nil _)
    rwa [List.append_nil] at h
  | w3c => exact distinct_w3c c
  | b3First p => exact hboth hf.b3First.1 hf.b3First.2
  | b3Last p => exact ((List.perm_append_comm.map _).map _).nodup_iff.1 (hboth hf.b3Last.1 hf.b3Last.2)

theorem extract_of_lists [TextMap C] {f : Format} (hf : f.Fit) {c : Context} (htrace : c.trace ≠ 0)
    (hspan : c.span ≠ 0) (hc : c.baggage.Lowered) {m : C} {l : Entries} (hm : TextMap.entries m = .ok l)
    (hl : Lists l (f.written c)) : (f.propagator : Propagator C).extract m = ⟨[], .ok (some c.carried)⟩ := by
  have hd := distinct_written hf hc
  have hfirst {p q : Propagator C} (h : p.extract m = ⟨[], .ok (some c.carried)⟩) :
      (Propagator.composite [p, q]).extract m = ⟨[], .ok (some c.carried)⟩ := by
    simp only [Propagator.composite, Propagator.extractFirst, h]
  have hb3 (p : String) (h : B3.read (B3.usedPrefix p) (TextMap.name m) l = ⟨[], .ok (some c.carried)⟩) :
      (B3.propagator p : Propagator C).extract m = ⟨[], .ok (some c.carried)⟩ := by
    simp only [B3.propagator, Propagator.ofEntries, hm, h]
  have hw3c (h : TraceContext.read (TextMap.name m) l = ⟨[], .ok (some c.carried)⟩) :
      (TraceContext.propagator : Propagator C).extract m = ⟨[], .ok (some c.carried)⟩ := by
    simp only [TraceContext.propagator, Propagator.ofEntries, hm, h]
  cases f with
  | b3 p =>
    have hnil : Lists l (B3.written (B3.usedPrefix p) c ++ []) := by rwa [List.append_nil]
    exact hb3 p (B3.read_of_lists (B3.lower_usedPrefix p) hf.b3 htrace hspan hc (B3.beside_nil _) hnil _)
  | w3c =>
    have hnil : Lists l (TraceContext.written c ++ []) := by rwa [List.append_nil]
    refine hw3c (TraceContext.read_of_lists htrace hspan hc ?_ (by simp) hnil _)
    rwa [List.append_nil]
  | b3First p =>
    have hbeside := beside_w3c hf.b3First.2 c
    exact hfirst (hb3 p (B3.read_of_lists (B3.lower_usedPrefix p) hf.b3First.1 htrace hspan hc hbeside hl _))
  | b3Last p =>
    refine hfirst (hw3c (TraceContext.read_of_lists htrace hspan hc hd (fun e he => ?_) hl _))
    rw [B3.written_eq] at he
    rcases List.mem_append.1 he with he | he
    · have hother : ∀ f ∈ B3.fields, Ascii.lower f ≠ Ascii.lower TraceContext.baggageKey := by decide
      exact hother _ (B3.mem_fields_of_mem_writtenParts he)
    · obtain ⟨i, -, rfl⟩ := List.mem_map.1 he
      exact hf.b3Last.2.lower_ne (B3.lower_usedPrefix p) (by decide) i.1

/-- Writing the context into the carrier succeeds, and extracting from it, or from a view that can only
be read, gives the context back without an item under the empty key. -/
def RoundTrips [TextMap C] (f : Format) (c : Context) (m : C) : Prop :=
  ∃ m', (f.propagator : Propagator C).inject c m = .ok () m' ∧
    (f.propagator : Propagator C).extractLenient m' = ⟨[], .ok (some c.carried)⟩ ∧
    (f.propagator : Propagator (ReadOnly C)).extractLenient ⟨m'⟩ = ⟨[], .ok (some c.carried)⟩

theorem extractLenient_of_extract [TextMap C] {p : Propagator C} {c : Context} (htrace : c.trace ≠ 0)
    (hspan : c.span ≠ 0) {m : C} (h : p.extract m = ⟨[], .ok (some c)⟩) : p.extractLenient m = ⟨[], .ok (some c)⟩ := by
  have hvalid : c.isValid = true := by
    rw [Context.isValid, Bool.and_eq_true, bne_iff_ne, bne_iff_ne]
    exact ⟨htrace, hspan⟩
  rw [Propagator.extractLenient, h]
  simp [hvalid]

theorem roundTrips_of_faithful [TextMap C] {f : Format} (hf : f.Fit) {c : Context} (htrace : c.trace ≠ 0)
    (hspan : c.span ≠ 0) (hc : c.baggage.Lowered) {m : C} {sort : String → Prop} (hm : Faithful m sort)
    (hsort : ∀ e ∈ f.written c, sort e.1) : f.RoundTrips c m := by
  obtain ⟨m', l, hput, hlist, hperm⟩ := hm (f.written c) (distinct_written hf hc).nodup hsort
  have ht : c.carried.trace ≠ 0 := htrace
  have hs : c.carried.span ≠ 0 := hspan
  refine ⟨m', by rw [inject_eq, hput], ?_, ?_⟩
  · exact extractLenient_of_extract ht hs (extract_of_lists hf htrace hspan hc hlist (.of_perm hperm))
  · exact extractLenient_of_extract ht hs
      (extract_of_lists hf htrace hspan hc (m := (⟨m'⟩ : ReadOnly C)) hlist (.of_perm hperm))

/-- A context that was built from parts and baggage makes the round trip through every empty carrier
that tells the case of keys apart; through a JMS message only if no key that is written spells out what
stands for a dash there. -/
theorem context_round_trip (f : Format) (hf : f.Fit) {trace : TraceId} {span : SpanId} (htrace : trace ≠ 0)
    (hspan : span ≠ 0) (sampled : Bool) (items : List (String × String)) :
    let c := (Context.new trace span sampled).withBaggage items
    (∀ order : KeyMap String → Entries, (∀ m, (order m).Perm m.entries) →
      f.RoundTrips c (⟨.empty⟩ : Unordered order)) ∧
    f.RoundTrips c (KeyMap.empty : KeyMap String) ∧
    (∀ m : AmqpMessage, m.headers = .empty → f.RoundTrips c m) ∧
    f.RoundTrips c (⟨.empty, .empty⟩ : StompMessage) ∧
    ((∀ e ∈ f.written c, JmsKey.Clear e.1) →
      ∀ m : JmsMessage, m.properties = .empty → m.readOnly = false → f.RoundTrips c m) := by
  intro c
  have ht : c.trace ≠ 0 := by simpa [c, Context.new] using htrace
  have hs : c.span ≠ 0 := by simpa [c, Context.new] using hspan
  have hc : c.baggage.Lowered := Context.lowered_new trace span sampled items
  refine ⟨fun order horder => ?_, ?_, fun m hm => ?_, ?_, fun hclear m hm hw => ?_⟩
  · exact roundTrips_of_faithful hf ht hs hc (faithful_unordered horder) fun _ _ => trivial
  · exact roundTrips_of_faithful hf ht hs hc faithful_map fun _ _ => trivial
  · exact roundTrips_of_faithful hf ht hs hc (faithful_amqp hm) fun _ _ => trivial
  · exact roundTrips_of_faithful hf ht hs hc faithful_stomp fun _ _ => trivial
  · exact roundTrips_of_faithful hf ht hs hc (faithful_jms hm hw) hclear

theorem context_round_trip_both :
    let f := Format.b3First "Baggage-"
    let c := (Context.new 1 2 true).withBaggage [("", "not carried"), ("Zoë", " 50% of a,b;c=d "), ("a-b", "")]
    f.Fit ∧ f.RoundTrips c (KeyMap.empty : KeyMap String) ∧ f.RoundTrips c (⟨.empty, "", false⟩ : JmsMessage) := by
  intro f c
  have hf : f.Fit := by
    rintro p ⟨⟩
    exact (by decide : Separate (Ascii.lower "Baggage-") (f.propagator : Propagator (KeyMap String)).fields)
  have h := context_round_trip f hf (by decide : (1 : TraceId) ≠ 0) (by decide : (2 : SpanId) ≠ 0) true
    [("", "not carried"), ("Zoë", " 50% of a,b;c=d "), ("a-b", "")]
  have hclear : ∀ e ∈ f.written c, JmsKey.Clear e.1 := by decide +kernel
  exact ⟨hf, h.2.1, h.2.2.2.2 hclear _ rfl rfl⟩

end Format

end SpanFlow
