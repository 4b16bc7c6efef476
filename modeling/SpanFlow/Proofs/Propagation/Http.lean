import SpanFlow.Proofs.Carrier.Http
import SpanFlow.Proofs.Propagation.RoundTrip

/-!
Contexts through HTTP headers. W3C writes nothing that HTTP does not admit, whatever the baggage; B3
writes baggage as it is. Main statement: W3C makes the round trip through every map of headers, and B3
through an empty one exactly with the contexts whose baggage HTTP can carry.
-/

namespace SpanFlow

theorem not_isControl_of_range {c : Char} (h : 0x20 ≤ c.toNat ∧ c.toNat < 0x7F) : isControl c = false := by
  simp [isControl]
  omega

theorem not_isControl_of_mem_fixed {width n : Nat} {c : Char} (h : c ∈ Hex.fixed width n) : isControl c = false := by
  have hdigit : ∀ k < 16, isControl (Hex.digit k) = false := by decide
  obtain ⟨k, hk, rfl⟩ := Hex.mem_fixed h
  exact hdigit k hk

namespace TraceContext

theorem admitted_parent (c : Context) : Admitted (parentKey, parentText c) := by
  refine ⟨(by decide : isHeaderName parentKey = true), fun d hd => ?_⟩
  rw [toList_parentText] at hd
  rcases mem_joined hd with rfl | ⟨p, hp, hd⟩
  · decide
  · obtain ⟨n, -, rfl⟩ := List.mem_map.1 hp
    exact not_isControl_of_mem_fixed hd

theorem admitted_baggage (items : Entries) : Admitted (baggageKey, baggageText items) := by
  refine ⟨(by decide : isHeaderName baggageKey = true), fun d hd => ?_⟩
  rw [baggageText, String.toList_ofList] at hd
  rcases mem_joined hd with rfl | ⟨p, hp, hd⟩
  · decide
  · obtain ⟨item, -, rfl⟩ := List.mem_map.1 hp
    rcases mem_memberChars hd with rfl | hd
    · decide
    · have hrange := Percent.range_of_isEncoded hd
      exact not_isControl_of_range ⟨by omega, hrange.2⟩

theorem admitted_written {c : Context} {e : String × String} (he : e ∈ written c) : Admitted e := by
  rcases eq_of_mem_written he with rfl | rfl
  · exact admitted_parent c
  · exact admitted_baggage c.baggage.entries

def headed (c : Context) (m : HeaderMap) : HeaderMap :=
  let m := m.set parentKey [Utf8.encode (parentText c).toList]
  if c.baggage.isEmpty then m else m.set baggageKey [Utf8.encode (baggageText c.baggage.entries).toList]

theorem inject_http (c : Context) (m : HeaderMap) : putAll (written c) m = .ok () (headed c m) := by
  have hparent := HeaderMap.put_of_admitted m (admitted_parent c)
  unfold written headed
  split
  · simp only [putAll, bind, EStateM.bind, hparent]
    rfl
  · have hbaggage := HeaderMap.put_of_admitted (m.set parentKey [Utf8.encode (parentText c).toList])
      (admitted_baggage c.baggage.entries)
    simp only [putAll, bind, EStateM.bind, hparent, hbaggage]
    rfl

theorem findEntry_parent_headed (c : Context) (m : HeaderMap) :
    findEntry (headed c m).entries parentKey = some (parentText c) := by
  have hkeys : Ascii.lower baggageKey ≠ Ascii.lower parentKey := by decide
  unfold headed
  split
  · rw [HeaderMap.findEntry_set, if_pos rfl, headerText_encode]
  · rw [HeaderMap.findEntry_set, if_neg hkeys, HeaderMap.findEntry_set, if_pos rfl, headerText_encode]

theorem findEntry_baggage_headed (c : Context) (m : HeaderMap) :
    findEntry (headed c m).entries baggageKey =
      if c.baggage.isEmpty then findEntry m.entries baggageKey else some (baggageText c.baggage.entries) := by
  have hkeys : Ascii.lower parentKey ≠ Ascii.lower baggageKey := by decide
  unfold headed
  split
  · rw [HeaderMap.findEntry_set, if_neg hkeys]
  · rw [HeaderMap.findEntry_set, if_pos rfl, headerText_encode]

end TraceContext

namespace B3

theorem admitted_writtenParts {c : Context} {e : String × String} (he : e ∈ writtenParts c) : Admitted e := by
  rcases eq_of_mem_writtenParts he with rfl | rfl | rfl
  · refine ⟨(by decide : isHeaderName traceKey = true), fun d hd => ?_⟩
    unfold traceText at hd
    split at hd <;>
    · rw [Hex.text, String.toList_ofList] at hd
      exact not_isControl_of_mem_fixed hd
  · refine ⟨(by decide : isHeaderName spanKey = true), fun d hd => ?_⟩
    rw [Hex.text, String.toList_ofList] at hd
    exact not_isControl_of_mem_fixed hd
  · cases c.sampled with
    | true =>
      exact ⟨(by decide : isHeaderName sampledKey = true),
        List.forall_mem_singleton.2 (by decide : isControl '1' = false)⟩
    | false =>
      exact ⟨(by decide : isHeaderName sampledKey = true),
        List.forall_mem_singleton.2 (by decide : isControl '0' = false)⟩

theorem admitted_written_iff (p : String) (c : Context) :
    (∀ e ∈ written p c, Admitted e) ↔ ∀ e ∈ c.baggage.entries, Admitted (p ++ e.1, e.2) := by
  rw [written_eq, List.forall_mem_append, writtenItems, List.forall_mem_map]
  exact and_iff_right fun e => admitted_writtenParts

end B3

def readHeaders (p : Propagator (ReadOnly HeaderMap)) (m : HeaderMap) : Extraction :=
  p.extractLenient ⟨m⟩

theorem TraceContext.readHeaders_headed {c : Context} (htrace : c.trace ≠ 0) (hspan : c.span ≠ 0)
    (hc : c.baggage.Lowered) (m : HeaderMap) :
    ∃ r, readHeaders propagator (headed c m) = ⟨[], .ok (some r)⟩ ∧ r.trace = c.trace ∧ r.span = c.span ∧
      r.sampled = c.sampled ∧
      (c.baggage.isEmpty = false ∨ m.values baggageKey = [] → r.baggage = c.baggage.erase "") := by
  let view : ReadOnly HeaderMap := ⟨headed c m⟩
  have hextract : (propagator : Propagator (ReadOnly HeaderMap)).extract view =
      read (TextMap.name view) (headed c m).entries := rfl
  have hread := read_of_parent htrace hspan (findEntry_parent_headed c m) (TextMap.name view)
  generalize hr : (Context.new c.trace c.span c.sampled).withBaggage
    (((findEntry (headed c m).entries baggageKey).map parseBaggage).getD []) = r at hread
  have ht : r.trace = c.trace := by simp [← hr, Context.new]
  have hs : r.span = c.span := by simp [← hr, Context.new]
  have hb : r.sampled = c.sampled := by simp [← hr, Context.new]
  refine ⟨r, ?_, ht, hs, hb, fun hbaggage => ?_⟩
  · exact Format.extractLenient_of_extract (by rwa [ht]) (by rwa [hs]) (hextract.trans hread)
  · -- The baggage header is the one of this context, or there is none.
    have hfound : findEntry (headed c m).entries baggageKey =
        if c.baggage.isEmpty then none else some (baggageText c.baggage.entries) := by
      rw [findEntry_baggage_headed]
      by_cases hempty : c.baggage.isEmpty = true
      · have hvalues : m.values (Ascii.lower baggageKey) = [] := by
          rcases hbaggage with h | h
          · rw [hempty] at h
            cases h
          · exact h
        rw [if_pos hempty, if_pos hempty, HeaderMap.findEntry_of_values_nil hvalues]
      · rw [if_neg hempty, if_neg hempty]
    have hsame := read_of_headers htrace hspan hc (findEntry_parent_headed c m) hfound (TextMap.name view)
    rw [hread] at hsame
    cases hsame
    rfl

theorem B3.inject_http {p : String} (hp : Ascii.lower p = p) (c : Context) :
    (propagator p : Propagator HeaderMap).inject c = putAll (written p c) := by
  rw [propagator, usedPrefix, hp]
  rfl

theorem B3.inject_http_iff {p : String} (hp : Ascii.lower p = p) (c : Context) :
    (∃ m', (propagator p).inject c HeaderMap.empty = .ok () m') ↔
      ∀ e ∈ c.baggage.entries, Admitted (p ++ e.1, e.2) := by
  rw [inject_http hp, HeaderMap.putAll_ok_iff, admitted_written_iff]

theorem B3.readHeaders_inject {p : String} (hp : Ascii.lower p = p) (hsep : Separate p fields) {c : Context}
    (htrace : c.trace ≠ 0) (hspan : c.span ≠ 0) (hc : c.baggage.Lowered) {m' : HeaderMap}
    (h : (propagator p).inject c HeaderMap.empty = .ok () m') :
    readHeaders (propagator p) m' = ⟨[], .ok (some c.carried)⟩ := by
  have hfit : (Format.b3 p).Fit := by
    rintro q ⟨⟩
    rwa [hp]
  have hinject : putAll ((Format.b3 p).written c) HeaderMap.empty = .ok () m' := h
  have hadmitted := (HeaderMap.putAll_ok_iff _ HeaderMap.empty).1 ⟨m', hinject⟩
  obtain ⟨m, hm, hlists⟩ := HeaderMap.lists_putAll_empty (Format.distinct_written hfit hc) hadmitted
  rw [hinject] at hm
  cases hm
  let view : ReadOnly HeaderMap := ⟨m'⟩
  have hentries : TextMap.entries view = .ok m'.entries := rfl
  have hextract := Format.extract_of_lists hfit htrace hspan hc hentries hlists
  exact Format.extractLenient_of_extract (c := c.carried) htrace hspan hextract

theorem admitted_item_iff (p : String) (e : String × String) : Admitted (p ++ e.1, e.2) ↔
    Token.isToken (p ++ e.1) = true ∧ (p ++ e.1).toList.length ≤ maxNameLength ∧ ∀ d ∈ e.2.toList, isControl d = false := by
  rw [Admitted, isHeaderName_iff, and_assoc]

theorem B3.hasRoom_written_iff {p : String} (hp : Ascii.lower p = p) (hsep : Separate p fields) {c : Context}
    (hc : c.baggage.Lowered) : HeaderMap.HasRoom (fun m => decide (HeaderMap.maxNames ≤ m.fields.length)) (written p c)
      HeaderMap.empty ↔ 3 + c.baggage.entries.length ≤ HeaderMap.maxNames := by
  have hfit : (Format.b3 p).Fit := by
    rintro q ⟨⟩
    rwa [hp]
  have hdistinct : Distinct (written p c) := by
    have h := Format.distinct_written hfit hc
    rwa [Format.written, usedPrefix, hp] at h
  have hlength : (written p c).length = 3 + c.baggage.entries.length := by
    rw [written_eq, List.length_append, writtenItems, List.length_map]
    rfl
  have hne : written p c ≠ [] := List.ne_nil_of_length_pos (by omega)
  have hnone : HeaderMap.empty.fields.length = 0 := rfl
  rw [HeaderMap.hasRoom_iff hdistinct hne (by simp [HeaderMap.empty]), hnone, hlength, Nat.zero_add]

def letters (n : Nat) : String :=
  String.ofList (List.replicate n 'a')

theorem toList_letters (n : Nat) : (letters n).toList = List.replicate n 'a' :=
  String.toList_ofList

theorem lower_letters (n : Nat) : Ascii.lower (letters n) = letters n := by
  have ha : 'a'.toLower = 'a' := by decide
  rw [Ascii.lower, toList_letters, List.map_replicate, ha, letters]

theorem letters_injective : Function.Injective letters := fun n k h => by
  have hlength := congrArg (fun s => s.toList.length) h
  simpa [toList_letters] using hlength

def crowd (n : Nat) : HeaderMap where
  fields := (List.range n).map fun k => (letters (k + 1), [[]])
  nodup := by
    rw [List.map_map]
    refine List.Pairwise.map _ (fun _ _ hne => ?_) List.nodup_range
    exact letters_injective.ne fun h => hne (Nat.succ_injective h)
  lower name h := by
    obtain ⟨f, hf, rfl⟩ := List.mem_map.1 h
    obtain ⟨k, -, rfl⟩ := List.mem_map.1 hf
    exact lower_letters (k + 1)

theorem isToken_letters (n : Nat) : Token.isToken ("baggage-" ++ letters n) = true := by
  have hprefix : "baggage-".toList.all Token.isTokenChar = true := by decide
  have ha : Token.isTokenChar 'a' = true := by decide
  rw [Token.isToken, String.toList_append, List.all_append, hprefix, toList_letters, List.all_replicate, ha]
  simp

end SpanFlow
