import SpanFlow.Proofs.Guarded.Start
import SpanFlow.Proofs.Propagation.B3Reading

/-!
Looking baggage items up, in contexts of every origin. Items that are added, read from a carrier or handed
on to a child get keys in small letters, as look-up expects them; a document's items keep the keys they
have. Main statement: but for documents with capitals in their keys, looking a key up in any spelling finds
the last item given under it, and no item is out of reach.
-/

namespace SpanFlow

namespace SingleFormat

def baggageOf : SingleFormat → Entries → Entries
  | .b3 p, es => B3.items (B3.usedPrefix p) es
  | .w3c, es => ((findEntry es TraceContext.baggageKey).map TraceContext.parseBaggage).getD []

theorem eq_withBaggage_of_read {f : SingleFormat} {carrier : String} {es : Entries} {c : Context}
    (h : (f.read carrier es).answer = .ok (some c)) :
    c = (Context.new c.trace c.span c.sampled).withBaggage (f.baggageOf es) := by
  cases f with
  | b3 p =>
    rw [read, B3.answer_read_eq] at h
    obtain ⟨t, -, ht⟩ := Option.bind_eq_some_iff.1 (Except.ok.inj h)
    obtain ⟨s, -, rfl⟩ := Option.map_eq_some_iff.1 ht
    simp [baggageOf, Context.new]
  | w3c =>
    rw [read, TraceContext.read] at h
    split at h
    · cases h
    · split at h
      · cases h
      · cases h
        simp [baggageOf, Context.new]

end SingleFormat

def Extraction.finds (x : Extraction) : Bool :=
  match x.answer with
  | .ok (some _) => true
  | _ => false

namespace FormatTree

/-- The items that a tree takes for baggage: those of its first format that finds a context. -/
def baggageOf (t : FormatTree) (carrier : String) (es : Entries) : Entries :=
  match t.leaves.find? fun f => (f.read carrier es).finds with
  | some f => f.baggageOf es
  | none => []

theorem eq_withBaggage_of_read {t : FormatTree} {carrier : String} {es : Entries} {c : Context}
    (h : (t.read carrier es).answer = .ok (some c)) :
    c = (Context.new c.trace c.span c.sampled).withBaggage (t.baggageOf carrier es) := by
  rw [read] at h
  rw [baggageOf]
  generalize t.leaves = formats at h ⊢
  induction formats with
  | nil => cases h
  | cons f fs ih =>
    rw [List.map_cons, List.foldr_cons] at h
    rw [List.find?_cons]
    unfold Extraction.orElse at h
    cases hf : (f.read carrier es).answer with
    | error e => simp [hf] at h
    | ok found =>
      cases found with
      | none =>
        simp only [hf] at h
        simp only [Extraction.finds, hf]
        exact ih h
      | some d =>
        simp only [hf] at h
        simp only [Extraction.finds, hf]
        exact SingleFormat.eq_withBaggage_of_read (hf.trans h)

end FormatTree

namespace Context

def ofText? (text : String) : Option Context :=
  (Json.parse? text).bind ofJson?

def itemsOfText? (text : String) : Option Entries := do
  let j ← Json.parse? text
  let fs ← Json.fields? fieldNames false j
  fs.required "baggage" (Json.entries? Json.text?)

theorem exists_items_of_ofText? {text : String} {c : Context} (h : ofText? text = some c) :
    ∃ items, itemsOfText? text = some items ∧ c.baggage = .ofList items := by
  simp only [ofText?, ofJson?, Option.bind_eq_bind, Option.bind_eq_some_iff, Option.pure_def] at h
  obtain ⟨j, hj, fs, hfs, trace, -, span, -, sampled, -, items, hitems, hc⟩ := h
  cases hc
  refine ⟨items, ?_, rfl⟩
  rw [itemsOfText?, hj, Option.bind_eq_bind, Option.bind_some, hfs]
  exact hitems

/-- The ways to come by a context, with the items that were given for its baggage, in order. The keys of
documents are held to a condition. -/
inductive Obtained (allowed : String → Prop) : Context → Entries → Prop
  | new (trace : TraceId) (span : SpanId) (sampled : Bool) : Obtained allowed (.new trace span sampled) []
  | withItem {c : Context} {given : Entries} (h : Obtained allowed c given) (key value : String) :
    Obtained allowed (c.withItem key value) (given ++ [(key, value)])
  | withBaggage {c : Context} {given : Entries} (h : Obtained allowed c given) (items : Entries) :
    Obtained allowed (c.withBaggage items) (given ++ items)
  | document {text : String} {c : Context} {items : Entries} (hc : ofText? text = some c)
    (hitems : itemsOfText? text = some items) (hkeys : ∀ e ∈ items, allowed e.1) : Obtained allowed c items
  | extracted {C : Type} [TextMap C] (t : FormatTree) {m : C} {es : Entries} {c : Context}
    (hes : TextMap.entries m = .ok es) (hc : (t.propagator.extract m).answer = .ok (some c)) :
    Obtained allowed c (t.baggageOf (TextMap.name m) es)
  | child {ν ε C : Type} (t : Tracer C) (name : String) (kind : Kind) {w v : World ν ε} {r : SpanRef} {s : Span}
    {parent : Context} {given : Entries} (h : Obtained allowed parent given)
    (hr : t.start name kind (some parent) w = (.done r, v)) (hs : v.span? r = some s) : Obtained allowed s.context given

structure Carries (c : Context) (given : Entries) : Prop where
  lowered : c.baggage.Lowered
  item : ∀ q v, c.item? q = some v ↔ LastUnder given q v

variable {allowed : String → Prop} {c d : Context} {given : Entries}

theorem Carries.of_baggage (h : c.Carries given) (heq : d.baggage = c.baggage) : d.Carries given where
  lowered := heq ▸ h.lowered
  item q v := by
    rw [item?, heq]
    exact h.item q v

theorem carries_new (trace : TraceId) (span : SpanId) (sampled : Bool) : (new trace span sampled).Carries [] where
  lowered := KeyMap.lowered_empty
  item _ _ := ⟨(fun h => nomatch h), fun h => absurd h not_lastUnder_nil⟩

theorem Carries.withItem (h : c.Carries given) (key value : String) :
    (c.withItem key value).Carries (given ++ [(key, value)]) where
  lowered := KeyMap.lowered_insert h.lowered key value
  item q v := by
    rw [item?, Context.withItem]
    by_cases hq : Ascii.lower key = Ascii.lower q
    · rw [lastUnder_snoc_self (e := (key, value)) hq, hq, KeyMap.get?_insert_self, Option.some.injEq]
    · rw [lastUnder_snoc_of_ne (e := (key, value)) hq, KeyMap.get?_insert_of_ne _ hq]
      exact h.item q v

theorem Carries.withBaggage (h : c.Carries given) (items : Entries) : (c.withBaggage items).Carries (given ++ items) := by
  induction items generalizing c given with
  | nil => rwa [List.append_nil]
  | cons e items ih =>
    have hrest := ih (h.withItem e.1 e.2)
    rwa [List.append_assoc] at hrest

theorem baggage_withBaggage_of_small {items : Entries} (h : ∀ e ∈ items, Ascii.lower e.1 = e.1) (c : Context) :
    (c.withBaggage items).baggage = items.foldl (fun m e => m.insert e.1 e.2) c.baggage := by
  induction items generalizing c with
  | nil => rfl
  | cons e items ih =>
    rw [withBaggage_cons, ih (fun x hx => h x (by simp [hx])), List.foldl_cons, withItem, h e (by simp)]

theorem carries_document {items : Entries} (h : ∀ e ∈ items, Ascii.lower e.1 = e.1) (hc : c.baggage = .ofList items) :
    c.Carries items := by
  refine ((carries_new c.trace c.span c.sampled).withBaggage items).of_baggage ?_
  rw [baggage_withBaggage_of_small h, hc]
  rfl

theorem context_eq_of_start {ν ε C : Type} {t : Tracer C} {name : String} {kind : Kind} {w v : World ν ε} {r : SpanRef}
    {s : Span} {parent : Context} (hr : t.start name kind (some parent) w = (.done r, v)) (hs : v.span? r = some s) :
    s.context = Tracer.childContext parent (w.supply.spanIds w.used.spans) := by
  obtain ⟨v', s', hr', -, hs', hstarted⟩ := t.start_apply name kind (some parent) w
  cases hr.symm.trans hr'
  cases hs.symm.trans hs'
  exact hstarted.child parent rfl

theorem Carries.child (h : c.Carries given) (id : SpanId) : (Tracer.childContext c id).Carries given := by
  refine h.of_baggage ?_
  rw [Tracer.childContext, withBaggage_of_perm h.lowered (.refl _)]

theorem Obtained.carries (h : Obtained allowed c given) (hallowed : ∀ k, allowed k → Ascii.lower k = k) :
    c.Carries given := by
  induction h with
  | new trace span sampled => exact carries_new trace span sampled
  | withItem _ key value ih => exact ih.withItem key value
  | withBaggage _ items ih => exact ih.withBaggage items
  | document hc hitems hkeys =>
    obtain ⟨items, hfound, hbaggage⟩ := exists_items_of_ofText? hc
    cases hitems.symm.trans hfound
    exact carries_document (fun e he => hallowed e.1 (hkeys e he)) hbaggage
  | extracted t hes hc =>
    rw [t.extract_eq hes] at hc
    rw [FormatTree.eq_withBaggage_of_read hc]
    exact (carries_new _ _ _).withBaggage _
  | child t name kind _ hr hs ih =>
    rw [context_eq_of_start hr hs]
    exact ih.child _

theorem Obtained.lowered_or_document (h : Obtained allowed c given) :
    c.baggage.Lowered ∨ ∃ text d items, ofText? text = some d ∧ c = d.withBaggage items := by
  induction h with
  | new => exact .inl KeyMap.lowered_empty
  | withItem _ key value ih =>
    rcases ih with hlowered | ⟨text, d, items, hd, rfl⟩
    · exact .inl (KeyMap.lowered_insert hlowered key value)
    · exact .inr ⟨text, d, items ++ [(key, value)], hd, by simp [Context.withBaggage]⟩
  | withBaggage _ more ih =>
    rcases ih with hlowered | ⟨text, d, items, hd, rfl⟩
    · exact .inl (lowered_withBaggage hlowered more)
    · exact .inr ⟨text, d, items ++ more, hd, by simp [Context.withBaggage]⟩
  | document hc _ _ => exact .inr ⟨_, _, [], hc, rfl⟩
  | extracted t hes hc =>
    rw [t.extract_eq hes] at hc
    rw [FormatTree.eq_withBaggage_of_read hc]
    exact .inl (lowered_new _ _ _ _)
  | child t name kind _ hr hs _ =>
    rw [context_eq_of_start hr hs]
    exact .inl (lowered_new _ _ _ _)

theorem item?_eq_some_iff (h : c.baggage.Lowered) {q v : String} :
    c.item? q = some v ↔ ∃ k, Ascii.lower k = Ascii.lower q ∧ (k, v) ∈ c.baggage.entries := by
  rw [item?, KeyMap.get?_eq_some_iff]
  constructor
  · exact fun hmem => ⟨Ascii.lower q, Ascii.lower_lower q, hmem⟩
  · rintro ⟨k, hk, hmem⟩
    rwa [← hk, h _ hmem]

/-- Where the keys of documents are in small letters, the keys of every context are, and looking a key up finds
the item that is stored under it in some spelling, the last that was given. Whatever the documents are, no
context has a key with capitals but one from a document, with items added. -/
theorem obtained_reached (h : Obtained allowed c given) :
    ((∀ k, allowed k → Ascii.lower k = k) → c.baggage.Lowered ∧
      (∀ q v, c.item? q = some v ↔ LastUnder given q v) ∧
      ∀ q v, c.item? q = some v ↔ ∃ k, Ascii.lower k = Ascii.lower q ∧ (k, v) ∈ c.baggage.entries) ∧
    (c.baggage.Lowered ∨ ∃ text d items, ofText? text = some d ∧ c = d.withBaggage items) := by
  refine ⟨fun hallowed => ?_, h.lowered_or_document⟩
  have hcarries := h.carries hallowed
  exact ⟨hcarries.lowered, hcarries.item, fun q v => item?_eq_some_iff hcarries.lowered⟩

/-- A document, an item in place of one of its own, and the child of both. -/
theorem obtained_reached_child :
    ∃ c given, Obtained (fun k => Ascii.lower k = k) c given ∧ given.length = 3 ∧
      c.item? "TENANT" = some "b" ∧ c.item? "Region" = some "eu" ∧ c.item? "ténant" = none := by
  let text := "\x7b\"trace_id\":1,\"span_id\":2,\"sampled\":true,\"baggage\":\x7b\"tenant\":\"a\",\"region\":\"eu\"\x7d\x7d"
  let d : Context := ⟨1, 2, true, .ofList [("tenant", "a"), ("region", "eu")]⟩
  have htext : ofText? text = some d := by decide +kernel
  have hd : Obtained (fun k => Ascii.lower k = k) d [("tenant", "a"), ("region", "eu")] :=
    .document htext (by decide +kernel) (by decide)
  let w : World Unit Unit := World.initial .constant ()
  let t : Tracer (KeyMap String) := .default
  obtain ⟨v, s, hr, -, hs, hstarted⟩ := t.start_apply "op" .client (some (d.withItem "Tenant" "b")) w
  have hchild := (hd.withItem "Tenant" "b").child t "op" .client hr hs
  obtain ⟨-, hlast, -⟩ := (obtained_reached hchild).1 fun _ h => h
  refine ⟨_, _, hchild, rfl, (hlast _ _).2 ?_, (hlast _ _).2 ?_, ?_⟩
  · exact ⟨[("tenant", "a"), ("region", "eu")], "Tenant", [], rfl, by decide, by decide⟩
  · exact ⟨[("tenant", "a")], "region", [("Tenant", "b")], rfl, by decide, by decide⟩
  · rw [hstarted.child _ rfl]
    decide

/-- An item of a document that no spelling of its key finds. -/
theorem document_item_hidden :
    ∃ c given, Obtained (fun _ => True) c given ∧ c.baggage.entries = [("Tenant", "acme")] ∧
      ¬c.baggage.Lowered ∧ ∀ q, c.item? q = none := by
  let text := "\x7b\"trace_id\":1,\"span_id\":2,\"sampled\":true,\"baggage\":\x7b\"Tenant\":\"acme\"\x7d\x7d"
  let d : Context := ⟨1, 2, true, .ofList [("Tenant", "acme")]⟩
  have htext : ofText? text = some d := by decide +kernel
  refine ⟨d, [("Tenant", "acme")], .document htext (by decide +kernel) (by simp), by decide,
    fun h => absurd (h ("Tenant", "acme") (by decide)) (by decide), fun q => ?_⟩
  have hq : "Tenant" ≠ Ascii.lower q := by
    intro heq
    have hlower := Ascii.lower_lower q
    rw [← heq] at hlower
    exact absurd hlower (by decide)
  rw [item?, Option.eq_none_iff_forall_ne_some]
  intro v hv
  have hmem : (Ascii.lower q, v) ∈ [("Tenant", "acme")] := KeyMap.get?_eq_some_iff.1 hv
  exact hq (congrArg Prod.fst (List.mem_singleton.1 hmem)).symm

end Context

end SpanFlow
