import SpanFlow.Proofs.Carrier.Storage
import SpanFlow.Proofs.Propagation.RoundTrip
import SpanFlow.Proofs.Propagation.Tree

/-!
Injection over headers that are there already, as where a message is passed on. A write replaces the
header that is stored under the very same name, while a header is found under any case of its name; and
the flags of B3 are read but never written. Main statement: the identifiers that were injected are the
ones that are read back unless an older spelling stands in front of them, and so is the sampling decision
unless older flags force sampling.
-/

namespace SpanFlow

variable {C : Type}

/-- Extraction gives the identifiers of the context, and this sampling decision as far as it is known. -/
def Restored [TextMap C] (p : Propagator C) (c : Context) (known : Prop) (sampled : Bool) (m : C) : Prop :=
  ∃ r, (p.extract m).answer = .ok (some r) ∧ (p.extractLenient m).answer = .ok (some r) ∧
    r.trace = c.trace ∧ r.span = c.span ∧ (known → r.sampled = sampled)

theorem restored_of_extract [TextMap C] {p : Propagator C} {c r : Context} {m : C} {events : List Event}
    {known : Prop} {b : Bool} (htrace : c.trace ≠ 0) (hspan : c.span ≠ 0)
    (h : p.extract m = ⟨events, .ok (some r)⟩) (ht : r.trace = c.trace) (hs : r.span = c.span)
    (hb : known → r.sampled = b) : Restored p c known b m := by
  have hvalid : r.isValid = true := by
    rw [Context.isValid, ht, hs, Bool.and_eq_true, bne_iff_ne, bne_iff_ne]
    exact ⟨htrace, hspan⟩
  exact ⟨r, by rw [h], by simp [Propagator.extractLenient, h, hvalid], ht, hs, hb⟩

theorem entries_of_shown [TextMap C] {m : C} {key v : String} (h : shown? m key = some v) :
    ∃ es, TextMap.entries m = .ok es ∧ ∀ k, shown? m k = findEntry es k := by
  unfold shown? at h
  split at h
  · next es hes => exact ⟨es, hes, fun k => by rw [shown?, hes]⟩
  · cases h

/-- No other spelling of these headers stands before the one that would be written. -/
def Leading [TextMap C] [Storage C] (keys : List String) (m : C) : Prop :=
  ∀ key ∈ keys, Leads (Storage.slots m) (Storage.storedAs C key) key

/-- The carrier lists fixed keys as they are, and no baggage under any of them. -/
structure TellsApart (C : Type) [TextMap C] [Storage C] : Prop where
  fixed : ∀ key ∈ B3.fields ++ TraceContext.fields, Storage.shownAs C key = key
  baggage : ∀ k, ∀ key ∈ B3.fields,
    Ascii.lower (Storage.shownAs C (B3.usedPrefix B3.defaultPrefix ++ k)) ≠ Ascii.lower key

section Apart

variable [TextMap C] [Storage C] {key : String}

theorem tellsApart_of_id (h : ∀ k, Storage.shownAs C k = k) : TellsApart C where
  fixed key _ := h key
  baggage k key hkey := by
    rw [h]
    exact (Format.fit_default.1).b3.lower_ne (B3.lower_usedPrefix _) hkey k

theorem TellsApart.b3 (h : TellsApart C) (hkey : key ∈ B3.fields) : Storage.shownAs C key = key :=
  h.fixed key (List.mem_append_left _ hkey)

theorem TellsApart.w3c (h : TellsApart C) (hkey : key ∈ TraceContext.fields) : Storage.shownAs C key = key :=
  h.fixed key (List.mem_append_right _ hkey)

end Apart

theorem tellsApart_jms : TellsApart JmsMessage where
  fixed := (by decide +kernel : ∀ key ∈ B3.fields ++ TraceContext.fields, JmsKey.decode (JmsKey.encode key) = key)
  baggage k key hkey heq := by
    -- The first letter of the prefix is kept, and no fixed key has it.
    have hprefix : (B3.usedPrefix B3.defaultPrefix).toList = 'b' :: "aggage-".toList := by decide +kernel
    have hno (cs : List Char) : ¬JmsKey.dash <+: 'b' :: cs := fun h => by simp [JmsKey.dash] at h
    have hhead : (JmsKey.decode (JmsKey.encode (B3.usedPrefix B3.defaultPrefix ++ k))).toList.head? = some 'b' := by
      rw [JmsKey.decode, JmsKey.encode, String.toList_ofList, String.toList_append, hprefix, List.cons_append,
        JmsKey.encodeChars_cons_of_ne (by decide), String.toList_ofList, JmsKey.decodeChars_cons (hno _),
        List.head?_cons]
    have hother : ∀ key ∈ B3.fields, (Ascii.lower key).toList.head? ≠ some 'b' := by decide +kernel
    refine hother key hkey ?_
    rw [← heq, Ascii.toList_lower, List.head?_map]
    exact congrArg (Option.map Char.toLower) hhead

namespace B3

theorem sampled_of_found {es : Entries} {b : Bool} (h : findEntry es sampledKey = some (if b then "1" else "0")) :
    (sampled es).1 = (b || findEntry es flagsKey == some "1") := by
  unfold sampled
  by_cases hflags : findEntry es flagsKey = some "1"
  · simp [hflags]
  · have hzero : Ascii.sameIgnoringCase "0" "true" = false := by decide
    cases b with
    | true => simp [hflags, h]
    | false => simp [hflags, h, hzero, beq_eq_false_iff_ne.2 hflags]

theorem read_of_found {c : Context} (htrace : c.trace ≠ 0) (hspan : c.span ≠ 0) {es : Entries}
    (ht : findEntry es traceKey = some (traceText c.trace))
    (hs : findEntry es spanKey = some (Hex.text 16 c.span.toNat)) (p carrier : String) : read p carrier es =
      ⟨(sampled es).2, .ok (some ((Context.new c.trace c.span (sampled es).1).withBaggage (items p es)))⟩ := by
  rw [read, ht, hs]
  simp only [bounded?_traceText htrace, bounded?_spanText hspan, BitVec.ofNat_toNat, BitVec.setWidth_eq]

variable [TextMap C] [Storage C] {c : Context} {m m' : C}

theorem lower_ne_of_item (hC : TellsApart C) {key : String} (hkey : key ∈ fields) {e : String × String}
    (he : e ∈ writtenItems (usedPrefix defaultPrefix) c) : Ascii.lower (Storage.shownAs C e.1) ≠ Ascii.lower key := by
  obtain ⟨i, -, rfl⟩ := List.mem_map.1 he
  exact hC.baggage i.1 key hkey

theorem shown_part (hC : TellsApart C) (hput : putAll (written (usedPrefix defaultPrefix) c) m = .ok () m')
    {key value : String} (he : (key, value) ∈ writtenParts c)
    (hlead : Leads (Storage.slots m) (Storage.storedAs C key) key) : shown? m' key = some value := by
  have hfield : key ∈ fields := mem_fields_of_mem_writtenParts he
  obtain ⟨a, b, hab, hne⟩ := (distinct_writtenParts c).exists_split he
  -- No two parts have the same key, so that none is written over another.
  have hothers : ∀ x ∈ a ++ b, Ascii.lower (Storage.shownAs C x.1) ≠ Ascii.lower key := by
    intro x hx
    have hpart : x ∈ writtenParts c := by
      rw [hab]
      exact List.perm_middle.mem_iff.2 (List.mem_cons_of_mem _ hx)
    rw [hC.b3 (mem_fields_of_mem_writtenParts hpart)]
    exact hne x hx
  rw [written_eq, hab, List.append_assoc, List.cons_append] at hput
  refine Storage.shown_putAll (by rw [hC.b3 hfield]) (fun x hx => hothers x (by simp [hx])) (fun x hx => ?_) hlead hput
  rcases List.mem_append.1 hx with hx | hx
  · exact hothers x (by simp [hx])
  · exact lower_ne_of_item hC hfield hx

theorem shown_flags (hC : TellsApart C) (hput : putAll (written (usedPrefix defaultPrefix) c) m = .ok () m') :
    shown? m' flagsKey = shown? m flagsKey := by
  have hflags : flagsKey ∈ fields := by simp [fields]
  refine Storage.shown_putAll_of_ne (fun e he => ?_) hput
  rw [written_eq] at he
  rcases List.mem_append.1 he with he | he
  · have hne : ∀ key ∈ [traceKey, spanKey, sampledKey], Ascii.lower key ≠ Ascii.lower flagsKey := by decide
    rw [hC.b3 (mem_fields_of_mem_writtenParts he)]
    exact hne _ (List.mem_map_of_mem (f := (·.1)) he)
  · exact lower_ne_of_item hC hflags he

theorem restored_inject (hC : TellsApart C) (htrace : c.trace ≠ 0) (hspan : c.span ≠ 0)
    (hm : Leading [traceKey, spanKey] m) (hput : (propagator defaultPrefix).inject c m = .ok () m') :
    Restored (propagator defaultPrefix) c (Leading [sampledKey] m) (c.sampled || shown? m flagsKey == some "1") m' := by
  have hflags := shown_flags hC hput
  have ht : shown? m' traceKey = some (traceText c.trace) :=
    shown_part hC hput (by simp [writtenParts]) (hm _ (by simp))
  have hs : shown? m' spanKey = some (Hex.text 16 c.span.toNat) :=
    shown_part hC hput (by simp [writtenParts]) (hm _ (by simp))
  obtain ⟨es, hes, hfound⟩ := entries_of_shown ht
  rw [hfound] at ht hs hflags
  have hextract : (propagator defaultPrefix).extract m' = read (usedPrefix defaultPrefix) (TextMap.name m') es := by
    simp only [propagator, Propagator.ofEntries, hes]
  refine restored_of_extract htrace hspan (hextract.trans (read_of_found htrace hspan ht hs _ _)) ?_ ?_ fun hlead => ?_
  · simp [Context.new]
  · simp [Context.new]
  · have hb : shown? m' sampledKey = some (if c.sampled then "1" else "0") :=
      shown_part hC hput (by simp [writtenParts]) (hlead _ (by simp))
    rw [hfound] at hb
    simp [Context.new, sampled_of_found hb, hflags]

end B3

namespace TraceContext

variable [TextMap C] [Storage C] {c : Context} {m m' : C}

theorem restored_inject (hC : TellsApart C) (htrace : c.trace ≠ 0) (hspan : c.span ≠ 0)
    (hm : Leading [parentKey] m) (hput : propagator.inject c m = .ok () m') (known : Prop) :
    Restored propagator c known c.sampled m' := by
  have hput : putAll ([] ++ (parentKey, parentText c) ::
      if c.baggage.isEmpty then [] else [(baggageKey, baggageText c.baggage.entries)]) m = .ok () m' := hput
  have hrest : ∀ e ∈ (if c.baggage.isEmpty then [] else [(baggageKey, baggageText c.baggage.entries)] : Entries),
      Ascii.lower (Storage.shownAs C e.1) ≠ Ascii.lower parentKey := by
    intro e he
    split at he
    · cases he
    · rw [List.mem_singleton.1 he, hC.w3c (by simp [fields])]
      exact (by decide : Ascii.lower baggageKey ≠ Ascii.lower parentKey)
  have hparent := Storage.shown_putAll (by rw [hC.w3c (by simp [fields])]) (by simp) hrest (hm _ (by simp)) hput
  obtain ⟨es, hes, hfound⟩ := entries_of_shown hparent
  rw [hfound] at hparent
  have hextract : propagator.extract m' = read (TextMap.name m') es := by
    simp only [propagator, Propagator.ofEntries, hes]
  refine restored_of_extract htrace hspan (hextract.trans (read_of_parent htrace hspan hparent _)) ?_ ?_ fun _ => ?_
  · simp [Context.new]
  · simp [Context.new]
  · simp [Context.new]

end TraceContext

namespace SingleFormat

def idKeys : SingleFormat → List String
  | .b3 _ => [B3.traceKey, B3.spanKey]
  | .w3c => [TraceContext.parentKey]

def sampledKey : SingleFormat → String
  | .b3 _ => B3.sampledKey
  | .w3c => TraceContext.parentKey

def forced [TextMap C] (m : C) : SingleFormat → Bool
  | .b3 _ => shown? m B3.flagsKey == some "1"
  | .w3c => false

theorem restored_inject [TextMap C] [Storage C] (hC : TellsApart C) {f : SingleFormat}
    (hf : f = .b3 B3.defaultPrefix ∨ f = .w3c) {c : Context} (htrace : c.trace ≠ 0) (hspan : c.span ≠ 0) {m m' : C}
    (hm : Leading f.idKeys m) (hput : f.propagator.inject c m = .ok () m') :
    Restored f.propagator c (Leading [f.sampledKey] m) (c.sampled || f.forced m) m' := by
  rcases hf with rfl | rfl
  · exact B3.restored_inject hC htrace hspan hm hput
  · rw [forced, Bool.or_false]
    exact TraceContext.restored_inject hC htrace hspan hm hput _

/-- A context that was injected is read back, whatever the carrier held. Older flags may turn sampling on.
Only in HTTP headers is an older spelling of a header always replaced. -/
theorem injection_replaces {f : SingleFormat} (hf : f = .b3 B3.defaultPrefix ∨ f = .w3c) {c : Context}
    (htrace : c.trace ≠ 0) (hspan : c.span ≠ 0) :
    (∀ m m' : KeyMap String, Leading f.idKeys m → f.propagator.inject c m = .ok () m' →
      Restored f.propagator c (Leading [f.sampledKey] m) (c.sampled || f.forced m) m') ∧
    (∀ m m' : AmqpMessage, Leading f.idKeys m → f.propagator.inject c m = .ok () m' →
      Restored f.propagator c (Leading [f.sampledKey] m) (c.sampled || f.forced m) m') ∧
    (∀ m m' : StompMessage, Leading f.idKeys m → f.propagator.inject c m = .ok () m' →
      Restored f.propagator c (Leading [f.sampledKey] m) (c.sampled || f.forced m) m') ∧
    (∀ m m' : JmsMessage, Leading f.idKeys m → f.propagator.inject c m = .ok () m' →
      Restored f.propagator c (Leading [f.sampledKey] m) (c.sampled || f.forced m) m') ∧
    (∀ m m' : HeaderMap, f.propagator.inject c m = .ok () m' →
      Restored f.propagator c True (c.sampled || f.forced m) m') := by
  refine ⟨fun m m' => ?_, fun m m' => ?_, fun m m' => ?_, fun m m' => ?_, fun m m' hput => ?_⟩
  · exact restored_inject (tellsApart_of_id fun _ => rfl) hf htrace hspan
  · exact restored_inject (tellsApart_of_id fun _ => rfl) hf htrace hspan
  · exact restored_inject (tellsApart_of_id fun _ => rfl) hf htrace hspan
  · exact restored_inject tellsApart_jms hf htrace hspan
  · have hm (keys : List String) : Leading keys m := fun _ _ => m.leads _ _
    obtain ⟨r, hraw, hlenient, ht, hs, hb⟩ :=
      restored_inject (tellsApart_of_id fun _ => rfl) hf htrace hspan (hm _) hput
    exact ⟨r, hraw, hlenient, ht, hs, fun _ => hb (hm _)⟩

theorem exists_ok {ε σ α : Type} {r : EStateM.Result ε σ Unit} {f : σ → α} {a : α}
    (h : (match r with
      | .ok () s => some (f s)
      | .error _ _ => none) = some a) : ∃ s, r = .ok () s ∧ f s = a := by
  cases r with
  | ok u s => exact ⟨s, rfl, Option.some.inj h⟩
  | error e s => cases h

/-- Small letters stand behind capital ones, so that a peer's headers in small letters are not found. -/
theorem injection_replaces_lowered :
    let c := Context.new 1 2 false
    let m := (KeyMap.empty.insert "x-b3-traceid" "2a").insert "x-b3-sampled" "1"
    let p : Propagator (KeyMap String) := B3.propagator B3.defaultPrefix
    ∃ m' r, p.inject c m = .ok () m' ∧ m'.get? "x-b3-traceid" = some "2a" ∧ (p.extractLenient m').answer = .ok (some r) ∧
      r.trace = 1 ∧ r.span = 2 ∧ r.sampled = false := by
  intro c m p
  have hids : Leading (SingleFormat.b3 B3.defaultPrefix).idKeys m := by
    unfold Leading Leads
    decide +kernel
  have hsampled : Leading [B3.sampledKey] m := by
    unfold Leading Leads
    decide +kernel
  obtain ⟨r, -, hr, ht, hs, hb⟩ := (injection_replaces (.inl rfl) (by decide : c.trace ≠ 0) (by decide)).1 m _ hids rfl
  exact ⟨_, r, rfl, by decide +kernel, hr, ht, hs, hb hsampled⟩

/-- A peer's headers in capital letters are found first, and its flags force sampling. -/
theorem older_headers_found :
    let c := Context.new 1 2 false
    let p : Propagator (KeyMap String) := B3.propagator B3.defaultPrefix
    let q : Propagator HeaderMap := B3.propagator B3.defaultPrefix
    (∃ m', p.inject c (KeyMap.empty.insert "X-B3-TRACEID" "2a") = .ok () m' ∧
      (p.extractLenient m').answer = .ok (some (Context.new 42 2 false))) ∧
    (∃ m', TraceContext.propagator.inject c
        (KeyMap.empty.insert "Traceparent" "00-0000000000000000000000000000002a-0000000000000007-01") = .ok () m' ∧
      (TraceContext.propagator.extractLenient m').answer = .ok (some (Context.new 42 7 true))) ∧
    (∃ m', q.inject c (HeaderMap.empty.set "x-b3-flags" [[49]]) = .ok () m' ∧
      (q.extractLenient m').answer = .ok (some (Context.new 1 2 true))) := by
  intro c p q
  exact ⟨exists_ok (by decide +kernel), exists_ok (by decide +kernel), exists_ok (by decide +kernel)⟩

end SingleFormat

end SpanFlow
