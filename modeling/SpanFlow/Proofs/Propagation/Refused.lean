import SpanFlow.Proofs.Propagation.Http
import SpanFlow.Proofs.Propagation.Replacement

/-!
Injection that fails. Only HTTP can refuse an entry after it took others, and what it took stays. Main
statements: every other transport object takes all entries or is left as it was; HTTP has written exactly
the entries before the first that it does not admit; and these always include the identifiers, so that a
receiver of the headers continues the trace all the same.
-/

namespace SpanFlow

variable {C : Type}

theorem putAll_ok_of_put [TextMap C] (Open : C → Prop)
    (hput : ∀ m k v, Open m → ∃ m', TextMap.put k v m = .ok () m' ∧ Open m') {m : C} (hm : Open m) (es : Entries) :
    ∃ m', putAll es m = .ok () m' := by
  induction es generalizing m with
  | nil => exact ⟨m, rfl⟩
  | cons e es ih =>
    obtain ⟨n, hn, hopen⟩ := hput m e.1 e.2 hm
    obtain ⟨m', hm'⟩ := ih hopen
    refine ⟨m', ?_⟩
    simp only [putAll, bind, EStateM.bind, hn, hm']

theorem eq_of_putAll_error [TextMap C] {m m' : C} (hput : ∀ k v, ∃ err, TextMap.put k v m = .error err m) {es : Entries}
    {err : CarrierError} (h : putAll es m = .error err m') : m' = m := by
  cases es with
  | nil => exact nomatch h
  | cons e es =>
    obtain ⟨err', he⟩ := hput e.1 e.2
    simp only [putAll, bind, EStateM.bind, he] at h
    cases h
    rfl

theorem putAll_writeOnly [TextMap C] (es : Entries) (m : C) : putAll es (WriteOnly.mk m) =
    match putAll es m with
    | .ok () m' => .ok () ⟨m'⟩
    | .error e m' => .error e ⟨m'⟩ := by
  induction es generalizing m with
  | nil => rfl
  | cons e es ih =>
    simp only [putAll, bind, EStateM.bind, TextMap.put]
    cases TextMap.put e.1 e.2 m with
    | ok u m' => exact ih m'
    | error x m' => rfl

theorem JmsMessage.putAll_ok {m : JmsMessage} (hm : m.readOnly = false) (es : Entries) :
    ∃ m', putAll es m = .ok () m' := by
  refine putAll_ok_of_put (fun m : JmsMessage => m.readOnly = false) (fun m k v hm => ?_) hm es
  exact ⟨{ m with properties := m.properties.insert (JmsKey.encode k) v }, if_neg (by simp [hm]), hm⟩

theorem JmsMessage.eq_of_putAll_error {m m' : JmsMessage} {es : Entries} {err : CarrierError}
    (h : putAll es m = .error err m') : m' = m := by
  -- A message that is read-only refuses at once, and any other one does not refuse at all.
  cases hm : m.readOnly with
  | true => exact SpanFlow.eq_of_putAll_error (fun k v => ⟨_, if_pos hm⟩) h
  | false =>
    obtain ⟨n, hn⟩ := putAll_ok hm es
    rw [hn] at h
    cases h

namespace HeaderMap

def refusal (e : String × String) : CarrierError :=
  .invalidEntry e.1 (if isHeaderName e.1 then "failed to parse header value" else "invalid HTTP header name")

theorem put_of_not_admitted (m : HeaderMap) {k v : String} (h : ¬Admitted (k, v)) :
    (TextMap.put k v : EStateM CarrierError HeaderMap Unit) m = .error (refusal (k, v)) m := by
  have hput : m.put k v = .error (refusal (k, v)) := by
    rw [put, refusal]
    by_cases hk : isHeaderName k = true
    · have hv : (Utf8.encode v.toList).all isHeaderByte ≠ true := fun hv => h ⟨hk, (all_isHeaderByte_encode _).1 hv⟩
      simp [hk, hv]
    · simp [hk]
  simp only [TextMap.put, hput]

/-- A row is refused at the first entry that is not admitted, and the entries before it are written. -/
theorem putAll_error_iff {es : Entries} {m m' : HeaderMap} {err : CarrierError} : putAll es m = .error err m' ↔
    ∃ before x after, es = before ++ x :: after ∧ ¬Admitted x ∧ putAll before m = .ok () m' ∧ err = refusal x := by
  constructor
  · intro h
    obtain ⟨before, x, after, mid, hes, hbefore, hx⟩ := split_of_putAll_error h
    have hno : ¬Admitted x := by
      intro hadmitted
      rw [put_of_admitted mid hadmitted] at hx
      cases hx
    rw [put_of_not_admitted mid hno] at hx
    cases hx
    exact ⟨before, x, after, hes, hno, hbefore, rfl⟩
  · rintro ⟨before, x, after, rfl, hno, hbefore, rfl⟩
    exact putAll_error_of_split hbefore (put_of_not_admitted m' hno)

theorem findEntry_putAll {es : Entries} {m m' : HeaderMap} {key v : String} (h : putAll es m = .ok () m')
    (hkey : ∃ e ∈ es, Ascii.lower e.1 = Ascii.lower key) (hsame : ∀ e ∈ es, Ascii.lower e.1 = Ascii.lower key → e.2 = v) :
    findEntry m'.entries key = some v := by
  induction es generalizing m with
  | nil =>
    obtain ⟨e, he, -⟩ := hkey
    exact nomatch he
  | cons x es ih =>
    obtain ⟨n, hn, hrest⟩ := putAll_cons_of_ok h
    by_cases hlater : ∃ e ∈ es, Ascii.lower e.1 = Ascii.lower key
    · exact ih hrest hlater fun e he => hsame e (by simp [he])
    · have hothers : ∀ e ∈ es, Ascii.lower (Storage.shownAs HeaderMap e.1) ≠ Ascii.lower key :=
        fun e he heq => hlater ⟨e, he, heq⟩
      have hx : Ascii.lower x.1 = Ascii.lower key := by
        obtain ⟨e, he, hkey⟩ := hkey
        rcases List.mem_cons.1 he with rfl | he
        · exact hkey
        · exact absurd hkey (hothers e he)
      have hput : shown? n key = some x.2 := Storage.shown_put (C := HeaderMap) hx (m.leads _ _) hn
      have hkept : shown? m' key = shown? n key := Storage.shown_putAll_of_ne hothers hrest
      rw [← hsame x (by simp) hx]
      exact hkept.trans hput

end HeaderMap

namespace SingleFormat

/-- What a format writes for every context, before any baggage of its own. -/
def parts : SingleFormat → Context → Entries
  | .b3 _ => B3.writtenParts
  | .w3c => TraceContext.written

def items : SingleFormat → Context → Entries
  | .b3 p => B3.writtenItems (B3.usedPrefix p)
  | .w3c => fun _ => []

theorem written_eq (f : SingleFormat) (c : Context) : f.written c = f.parts c ++ f.items c := by
  cases f with
  | b3 p => rfl
  | w3c => exact (List.append_nil _).symm

theorem admitted_parts {f : SingleFormat} {c : Context} {e : String × String} (he : e ∈ f.parts c) : Admitted e := by
  cases f with
  | b3 p => exact B3.admitted_writtenParts he
  | w3c => exact TraceContext.admitted_written he

def allParts (c : Context) : Entries :=
  B3.writtenParts c ++ TraceContext.written c

theorem mem_allParts {f : SingleFormat} {c : Context} {e : String × String} (he : e ∈ f.parts c) : e ∈ allParts c := by
  cases f with
  | b3 p => exact List.mem_append_left _ he
  | w3c => exact List.mem_append_right _ he

theorem distinct_allParts (c : Context) : Distinct (allParts c) := by
  have hother : ∀ k ∈ B3.fields, ∀ j ∈ TraceContext.fields, Ascii.lower k ≠ Ascii.lower j := by decide
  refine distinct_append (B3.distinct_writtenParts c) (Format.distinct_w3c c) fun x hx y hy => ?_
  exact hother _ (B3.mem_fields_of_mem_writtenParts hx) _ (Format.mem_fields_of_mem_written hy)

theorem mem_fields_of_mem_parts {f : SingleFormat} {c : Context} {e : String × String} (he : e ∈ f.parts c) :
    e.1 ∈ f.fields := by
  cases f with
  | b3 p => exact B3.mem_fields_of_mem_writtenParts he
  | w3c => exact Format.mem_fields_of_mem_written he

theorem read_of_parts {f : SingleFormat} {c : Context} (htrace : c.trace ≠ 0) (hspan : c.span ≠ 0) {es : Entries}
    (h : ∀ e ∈ f.parts c, findEntry es e.1 = some e.2) (carrier : String) :
    ∃ events r, f.read carrier es = ⟨events, .ok (some r)⟩ ∧ r.trace = c.trace ∧ r.span = c.span := by
  cases f with
  | b3 p =>
    have ht := h (B3.traceKey, B3.traceText c.trace) (by simp [parts, B3.writtenParts])
    have hs := h (B3.spanKey, Hex.text 16 c.span.toNat) (by simp [parts, B3.writtenParts])
    exact ⟨_, _, B3.read_of_found htrace hspan ht hs _ carrier, by simp [Context.new], by simp [Context.new]⟩
  | w3c =>
    have hparent := h (TraceContext.parentKey, TraceContext.parentText c) (TraceContext.parent_mem_written c)
    exact ⟨_, _, TraceContext.read_of_parent htrace hspan hparent carrier, by simp [Context.new], by simp [Context.new]⟩

end SingleFormat

namespace FormatTree

/-- The fixed keys and the baggage of a tree cannot be taken for one another. -/
def Fit (t : FormatTree) : Prop :=
  ∀ p ∈ t.usedPrefixes, Separate p t.fields

theorem mem_written {t : FormatTree} {c : Context} {e : String × String} (he : e ∈ t.written c) :
    e ∈ SingleFormat.allParts c ∨ ∃ p ∈ t.usedPrefixes, Ascii.lower p = p ∧ ∃ k, e.1 = p ++ k := by
  obtain ⟨f, hf, he⟩ := List.mem_flatMap.1 he
  rw [f.written_eq] at he
  rcases List.mem_append.1 he with he | he
  · exact .inl (SingleFormat.mem_allParts he)
  · cases f with
    | w3c => exact nomatch he
    | b3 p =>
      obtain ⟨i, -, rfl⟩ := List.mem_map.1 he
      exact .inr ⟨B3.usedPrefix p, mem_usedPrefixes_iff.2 ⟨.b3 p, hf, rfl⟩, B3.lower_usedPrefix p, i.1, rfl⟩

theorem Fit.value_eq {t : FormatTree} (ht : t.Fit) {c : Context} {f : SingleFormat} (hf : f ∈ t.leaves)
    {part e : String × String} (hpart : part ∈ f.parts c) (he : e ∈ t.written c)
    (hkey : Ascii.lower e.1 = Ascii.lower part.1) : e.2 = part.2 := by
  have hfield : part.1 ∈ t.fields := mem_fields_iff.2 ⟨f, hf, SingleFormat.mem_fields_of_mem_parts hpart⟩
  rcases mem_written he with hall | ⟨p, hp, hlower, k, hk⟩
  · obtain ⟨a, b, hab, hne⟩ := (SingleFormat.distinct_allParts c).exists_split (SingleFormat.mem_allParts hpart)
    rw [hab, List.perm_middle.mem_iff] at hall
    rcases List.mem_cons.1 hall with rfl | hall
    · rfl
    · exact absurd hkey (hne e hall)
  · rw [hk] at hkey
    exact absurd hkey ((ht p hp).lower_ne hlower hfield k)

theorem mem_before {α : Type} {parts rest before after : List α} {x : α} (h : parts ++ rest = before ++ x :: after)
    (hx : x ∉ parts) : ∀ e ∈ parts, e ∈ before := by
  rcases List.append_eq_append_iff.1 h with ⟨more, rfl, -⟩ | ⟨more, rfl, hmore⟩
  · exact fun e he => List.mem_append_left _ he
  · cases more with
    | nil => exact fun e he => by simpa using he
    | cons y more =>
      cases hmore
      exact absurd (by simp) hx

theorem parts_written {t : FormatTree} {c : Context} {f : SingleFormat} {fs : List SingleFormat}
    (hleaves : t.leaves = f :: fs) {before after : Entries} {x : String × String}
    (hsplit : t.written c = before ++ x :: after) (hx : ¬Admitted x) : ∀ e ∈ f.parts c, e ∈ before := by
  have hwritten : t.written c = f.parts c ++ (f.items c ++ fs.flatMap fun f => f.written c) := by
    rw [written, hleaves, List.flatMap_cons, f.written_eq, List.append_assoc]
  exact mem_before (hwritten.symm.trans hsplit) fun hmem => hx (SingleFormat.admitted_parts hmem)

theorem Fit.read_refused {t : FormatTree} (ht : t.Fit) {c : Context} (htrace : c.trace ≠ 0) (hspan : c.span ≠ 0)
    {m m' : HeaderMap} {err : CarrierError} (h : t.propagator.inject c m = .error err m') :
    ∃ r, (readHeaders t.propagator m').answer = .ok (some r) ∧ r.trace = c.trace ∧ r.span = c.span := by
  rw [inject_eq] at h
  obtain ⟨before, x, after, hsplit, hx, hbefore, -⟩ := HeaderMap.putAll_error_iff.1 h
  cases hleaves : t.leaves with
  | nil =>
    rw [written, hleaves, List.flatMap_nil] at hsplit
    exact absurd hsplit (by simp)
  | cons f fs =>
    have hf : f ∈ t.leaves := by simp [hleaves]
    -- HTTP admits the parts of the first format, so that they stand before the entry that it refused.
    have hparts : ∀ e ∈ f.parts c, findEntry m'.entries e.1 = some e.2 := by
      intro e he
      refine HeaderMap.findEntry_putAll hbefore ⟨e, parts_written hleaves hsplit hx e he, rfl⟩ fun y hy hkey => ?_
      exact ht.value_eq hf he (by rw [hsplit]; exact List.mem_append_left _ hy) hkey
    let view : ReadOnly HeaderMap := ⟨m'⟩
    have hentries : TextMap.entries view = .ok m'.entries := rfl
    obtain ⟨events, r, hread, hrt, hrs⟩ := SingleFormat.read_of_parts htrace hspan hparts (TextMap.name view)
    have hfirst : t.propagator.extract view = ⟨events, .ok (some r)⟩ := by
      rw [t.extract_eq hentries, FormatTree.read, hleaves, List.map_cons, List.foldr_cons, hread]
      rfl
    have hrestored : Restored t.propagator c False c.sampled view :=
      restored_of_extract htrace hspan hfirst hrt hrs fun hno => hno.elim
    obtain ⟨r', -, hlenient, hrt', hrs', -⟩ := hrestored
    exact ⟨r', hlenient, hrt', hrs'⟩

def FailsWhole [TextMap C] (t : FormatTree) (c : Context) (m : C) : Prop :=
  ∀ err m', t.propagator.inject c m = .error err m' → m' = m

/-- Maps, AMQP and STOMP messages take every context, JMS messages too unless they are read-only; these, and
readers of any object, are left as they were. HTTP refuses a context at the first entry that it does not
admit, and keeps what was written before it. The identifiers always were, so that a receiver of the headers
continues the span though its injection failed. -/
theorem refused_injection (t : FormatTree) (c : Context) :
    (∀ m : KeyMap String, ∃ m', t.propagator.inject c m = .ok () m') ∧
    (∀ order, ∀ m : Unordered order, ∃ m', t.propagator.inject c m = .ok () m') ∧
    (∀ m : AmqpMessage, ∃ m', t.propagator.inject c m = .ok () m') ∧
    (∀ m : StompMessage, ∃ m', t.propagator.inject c m = .ok () m') ∧
    (∀ m : JmsMessage, (m.readOnly = false → ∃ m', t.propagator.inject c m = .ok () m') ∧ t.FailsWhole c m) ∧
    (∀ {C : Type} [TextMap C] (m : ReadOnly C), t.FailsWhole c m) ∧
    (∀ (m m' : HeaderMap) (err : CarrierError), (t.propagator.inject c m = .error err m' ↔
        ∃ before x after, t.written c = before ++ x :: after ∧ ¬Admitted x ∧ putAll before m = .ok () m' ∧
          err = HeaderMap.refusal x) ∧
      (t.propagator.inject c (WriteOnly.mk m) = .error err ⟨m'⟩ ↔ t.propagator.inject c m = .error err m') ∧
      (t.propagator.inject c m = .error err m' → t.Fit → c.trace ≠ 0 → c.span ≠ 0 →
        ∃ r, (readHeaders t.propagator m').answer = .ok (some r) ∧ r.trace = c.trace ∧ r.span = c.span)) := by
  have hopen {C : Type} [TextMap C] (hput : ∀ (m : C) k v, ∃ m', TextMap.put k v m = .ok () m') (m : C) :
      ∃ m', t.propagator.inject c m = .ok () m' := by
    rw [inject_eq]
    refine putAll_ok_of_put (fun _ => True) (fun m k v _ => ?_) trivial _
    obtain ⟨m', hm'⟩ := hput m k v
    exact ⟨m', hm', trivial⟩
  refine ⟨hopen fun m k v => ⟨_, rfl⟩, fun order => hopen fun m k v => ⟨_, rfl⟩, hopen fun m k v => ⟨_, rfl⟩,
    hopen fun m k v => ⟨_, rfl⟩, fun m => ⟨fun hm => ?_, fun err m' h => ?_⟩, fun m err m' h => ?_,
    fun m m' err => ⟨?_, ?_, fun h ht htrace hspan => ht.read_refused htrace hspan h⟩⟩
  · rw [inject_eq]
    exact JmsMessage.putAll_ok hm _
  · rw [inject_eq] at h
    exact JmsMessage.eq_of_putAll_error h
  · rw [inject_eq] at h
    exact eq_of_putAll_error (fun k v => ⟨_, rfl⟩) h
  · rw [inject_eq]
    exact HeaderMap.putAll_error_iff
  · rw [inject_eq, inject_eq, putAll_writeOnly]
    cases putAll (t.written c) m with
    | ok u n => exact ⟨(fun h => nomatch h), (fun h => nomatch h)⟩
    | error e n =>
      constructor
      · rintro ⟨⟩
        rfl
      · rintro ⟨⟩
        rfl

theorem exists_error {α : Type} {r : EStateM.Result CarrierError C Unit} {f : CarrierError → C → α} {a : α}
    (h : (match r with
      | .ok () _ => none
      | .error e m => some (f e m)) = some a) : ∃ e m, r = .error e m ∧ f e m = a := by
  cases r with
  | ok u m => cases h
  | error e m => exact ⟨e, m, rfl, Option.some.inj h⟩

/-- B3 is refused in the middle of its baggage, over a header of another trace; W3C is not reached. -/
theorem refused_injection_midway :
    let t : FormatTree := .composite [.composite [], .leaf (.b3 "Baggage-"), .leaf .w3c]
    let c := (Context.new 1 2 true).withBaggage [("a", "1"), ("b", "\x7f"), ("c", "3")]
    let m := HeaderMap.empty.set "x-b3-traceid" [[50, 97]]
    t.Fit ∧ ∃ m', t.propagator.inject c m = .error (HeaderMap.refusal ("baggage-b", "\x7f")) m' ∧
      m'.fields.map (·.1) = ["x-b3-traceid", "x-b3-spanid", "x-b3-sampled", "baggage-a"] ∧
      ∃ r, (readHeaders t.propagator m').answer = .ok (some r) ∧ r.trace = 1 ∧ r.span = 2 := by
  intro t c m
  have hfit : t.Fit :=
    (by decide +kernel : ∀ p ∈ t.usedPrefixes, ∀ k ∈ t.fields, underPrefix p k = false)
  obtain ⟨e, m', hrefused, he⟩ := exists_error (r := t.propagator.inject c m)
    (f := fun e m' => (e, m'.fields.map (·.1)))
    (a := (HeaderMap.refusal ("baggage-b", "\x7f"), ["x-b3-traceid", "x-b3-spanid", "x-b3-sampled", "baggage-a"]))
    (by decide +kernel)
  obtain ⟨rfl, hnames⟩ := Prod.mk.inj he
  obtain ⟨-, -, -, -, -, -, hhttp⟩ := refused_injection t c
  exact ⟨hfit, m', hrefused, hnames, (hhttp m m' _).2.2 hrefused hfit (by decide +kernel) (by decide +kernel)⟩

/-- A blank in a name, which HTTP refuses, and headers from which the span is continued. -/
theorem refused_headers_stay :
    let t : FormatTree := .leaf (.b3 B3.defaultPrefix)
    let c := (Context.new 1 2 true).withBaggage [("a b", "1")]
    ¬t.FailsWhole c HeaderMap.empty ∧ ∃ m', t.propagator.inject c HeaderMap.empty = .error
        (.invalidEntry "baggage-a b" "invalid HTTP header name") m' ∧
      (readHeaders t.propagator m').answer = .ok (some (Context.new 1 2 true)) := by
  intro t c
  obtain ⟨e, m', hrefused, he⟩ := exists_error (r := t.propagator.inject c HeaderMap.empty)
    (f := fun e m' => (e, m'.fields.isEmpty, (readHeaders t.propagator m').answer))
    (a := (.invalidEntry "baggage-a b" "invalid HTTP header name", false, .ok (some (Context.new 1 2 true))))
    (by decide +kernel)
  obtain ⟨rfl, hrest⟩ := Prod.mk.inj he
  obtain ⟨hfields, hread⟩ := Prod.mk.inj hrest
  refine ⟨fun hwhole => ?_, m', hrefused, hread⟩
  rw [hwhole _ _ hrefused] at hfields
  cases hfields

end FormatTree

end SpanFlow
