import Mathlib.Data.List.Basic
import SpanFlow.Proofs.Propagation.Entries
import SpanFlow.Proofs.Text.Hex
import SpanFlow.Propagation.B3

namespace SpanFlow

def underPrefix (baggagePrefix key : String) : Bool :=
  baggagePrefix.toList.isPrefixOf (Ascii.lower key).toList

/-- No one of these keys could be taken for a baggage item under the prefix. -/
def Separate (baggagePrefix : String) (keys : List String) : Prop :=
  ∀ k ∈ keys, underPrefix baggagePrefix k = false

instance (baggagePrefix : String) (keys : List String) : Decidable (Separate baggagePrefix keys) :=
  inferInstanceAs (Decidable (∀ k ∈ keys, underPrefix baggagePrefix k = false))

theorem underPrefix_append {p : String} (hp : Ascii.lower p = p) (k : String) : underPrefix p (p ++ k) = true := by
  simp [underPrefix, hp]

theorem Separate.lower_ne {p : String} {keys : List String} (h : Separate p keys) (hp : Ascii.lower p = p) {f : String}
    (hf : f ∈ keys) (k : String) : Ascii.lower (p ++ k) ≠ Ascii.lower f := by
  intro heq
  have hk := underPrefix_append hp k
  rw [underPrefix, heq] at hk
  exact absurd hk (by rw [← underPrefix, h f hf]; decide)

namespace B3

theorem lower_usedPrefix (p : String) : Ascii.lower (usedPrefix p) = usedPrefix p :=
  Ascii.lower_lower p

theorem bounded?_traceText {t : TraceId} (ht : t ≠ 0) : Hex.bounded? 32 (traceText t) = some t.toNat := by
  have hne : t.toNat ≠ 0 := fun h => ht (BitVec.eq_of_toNat_eq h)
  have hlt : t.toNat < 2 ^ 128 := t.isLt
  unfold traceText
  split
  · next h => exact Hex.bounded?_text (by decide) (by decide) hne (h : t.toNat < 16 ^ 16)
  · exact Hex.bounded?_text (by decide) (by decide) hne (hlt : t.toNat < 16 ^ 32)

theorem bounded?_spanText {s : SpanId} (hs : s ≠ 0) : Hex.bounded? 16 (Hex.text 16 s.toNat) = some s.toNat :=
  have hlt : s.toNat < 2 ^ 64 := s.isLt
  Hex.bounded?_text (by decide) (by decide) (fun h => hs (BitVec.eq_of_toNat_eq h)) (hlt : s.toNat < 16 ^ 16)

theorem itemName?_lower (p key : String) : itemName? p (Ascii.lower key) = itemName? p key := by
  simp only [itemName?, Ascii.lower_lower]

theorem itemName?_eq_some_iff {p key name : String} :
    itemName? p key = some name ↔ Ascii.lower key = p ++ name ∧ name ≠ "" := by
  simp only [itemName?]
  constructor
  · intro h
    split at h
    · next hp =>
      obtain ⟨r, hr⟩ := List.isPrefixOf_iff_prefix.1 hp.1
      have hname : name.toList = r := by
        rw [← hr, List.drop_left, Option.some.injEq] at h
        rw [← h, String.toList_ofList]
      refine ⟨?_, fun hempty => ?_⟩
      · rw [← String.toList_inj, ← hr, String.toList_append, hname]
      · rw [← String.toList_eq_nil_iff, hname] at hempty
        rw [← hr, hempty, List.append_nil] at hp
        exact absurd hp.2 (Nat.lt_irrefl _)
    · cases h
  · rintro ⟨hkey, hname⟩
    rw [hkey]
    simp [hname]

theorem itemName?_append {p k : String} (hp : Ascii.lower p = p) (hk : Ascii.lower k = k) :
    itemName? p (p ++ k) = if k = "" then none else some k := by
  have hkey : Ascii.lower (p ++ k) = p ++ k := by rw [Ascii.lower_append, hp, hk]
  split
  · next hempty =>
    refine Option.eq_none_iff_forall_ne_some.2 fun name hname => ?_
    obtain ⟨heq, hne⟩ := itemName?_eq_some_iff.1 hname
    rw [hkey, String.append_right_inj] at heq
    exact hne (heq.symm.trans hempty)
  · next hne => exact itemName?_eq_some_iff.2 ⟨hkey, hne⟩

theorem itemName?_of_not_under {p key : String} (h : underPrefix p key = false) : itemName? p key = none := by
  refine if_neg fun hp => ?_
  exact absurd h (by rw [underPrefix, hp.1]; decide)

def item? (p : String) (e : String × String) : Option (String × String) :=
  (itemName? p e.1).map fun name => (name, e.2)

theorem items_eq (p : String) (es : Entries) : items p es = es.filterMap (item? p) := rfl

theorem items_append (p : String) (a b : Entries) : items p (a ++ b) = items p a ++ items p b :=
  List.filterMap_append

theorem items_lowered (p : String) (es : Entries) : items p (lowered es) = items p es := by
  have hitem : (item? p ∘ fun e => (Ascii.lower e.1, e.2)) = item? p :=
    funext fun e => by rw [Function.comp_apply, item?, item?, itemName?_lower]
  rw [items_eq, items_eq, lowered, List.filterMap_map, hitem]

theorem items_of_lists {p : String} {l es : Entries} (h : Lists l es) : (items p l).Perm (items p es) := by
  rw [← items_lowered p l, ← items_lowered p es]
  exact List.Perm.filterMap _ h

theorem items_of_separate {p : String} {es : Entries} (h : Separate p (es.map (·.1))) : items p es = [] := by
  refine List.filterMap_eq_nil_iff.2 fun e he => ?_
  change item? p e = none
  rw [item?, itemName?_of_not_under (h e.1 (List.mem_map_of_mem he)), Option.map_none]

def writtenParts (c : Context) : Entries :=
  [(traceKey, traceText c.trace), (spanKey, Hex.text 16 c.span.toNat), (sampledKey, if c.sampled then "1" else "0")]

def writtenItems (p : String) (c : Context) : Entries :=
  c.baggage.entries.map fun e => (p ++ e.1, e.2)

theorem written_eq (p : String) (c : Context) : written p c = writtenParts c ++ writtenItems p c := rfl

theorem eq_of_mem_writtenParts {c : Context} {e : String × String} (he : e ∈ writtenParts c) :
    e = (traceKey, traceText c.trace) ∨ e = (spanKey, Hex.text 16 c.span.toNat) ∨
      e = (sampledKey, if c.sampled then "1" else "0") := by
  simpa [writtenParts] using he

theorem mem_fields_of_mem_writtenParts {c : Context} {e : String × String} (he : e ∈ writtenParts c) :
    e.1 ∈ fields := by
  rcases eq_of_mem_writtenParts he with rfl | rfl | rfl <;> simp [fields]

theorem items_writtenItems {p : String} (hp : Ascii.lower p = p) {c : Context} (hc : c.baggage.Lowered) :
    items p (writtenItems p c) = (c.baggage.erase "").entries := by
  rw [items_eq, writtenItems, List.filterMap_map, KeyMap.entries_erase, ← List.filterMap_eq_filter]
  refine List.filterMap_congr fun e he => ?_
  rw [Function.comp_apply, item?, itemName?_append hp (hc e he)]
  by_cases h : e.1 = "" <;> simp [Option.guard, h]

theorem items_written {p : String} (hp : Ascii.lower p = p) (hsep : Separate p fields) {c : Context}
    (hc : c.baggage.Lowered) : items p (written p c) = (c.baggage.erase "").entries := by
  have hparts : Separate p ((writtenParts c).map (·.1)) := by
    intro k hk
    obtain ⟨e, he, rfl⟩ := List.mem_map.1 hk
    exact hsep _ (mem_fields_of_mem_writtenParts he)
  rw [written_eq, items_append, items_of_separate hparts, items_writtenItems hp hc, List.nil_append]

theorem distinct_writtenParts (c : Context) : Distinct (writtenParts c) := by
  change [Ascii.lower traceKey, Ascii.lower spanKey, Ascii.lower sampledKey].Nodup
  decide

theorem distinct_writtenItems {p : String} (hp : Ascii.lower p = p) {c : Context} (hc : c.baggage.Lowered) :
    Distinct (writtenItems p c) := by
  rw [Distinct, lowered, writtenItems, List.map_map, List.map_map]
  refine List.pairwise_map.2 ((List.pairwise_map.1 c.baggage.nodup_keys).imp_of_mem fun {a b} ha hb hne heq => hne ?_)
  simp only [Function.comp_apply, Ascii.lower_append, hp, hc a ha, hc b hb] at heq
  exact String.append_right_inj p |>.1 heq

/-- Entries that may stand beside those of the format: none of them is taken for one of these. -/
structure Beside (p : String) (extra : Entries) : Prop where
  distinct : Distinct extra
  separate : Separate p (extra.map (·.1))
  fields : ∀ e ∈ extra, ∀ f ∈ fields, Ascii.lower f ≠ Ascii.lower e.1

theorem beside_nil (p : String) : Beside p [] :=
  ⟨List.nodup_nil, (fun _ h => nomatch h), (fun _ h => nomatch h)⟩

theorem distinct_written {p : String} (hp : Ascii.lower p = p) (hsep : Separate p fields) {c : Context}
    (hc : c.baggage.Lowered) {extra : Entries} (h : Beside p extra) : Distinct (written p c ++ extra) := by
  have hitem {e : String × String} (he : e ∈ writtenItems p c) : ∃ k, e.1 = p ++ k := by
    obtain ⟨i, -, rfl⟩ := List.mem_map.1 he
    exact ⟨i.1, rfl⟩
  rw [written_eq]
  refine distinct_append (distinct_append (distinct_writtenParts c) (distinct_writtenItems hp hc) ?_) h.distinct ?_
  · intro x hx y hy
    obtain ⟨k, hk⟩ := hitem hy
    rw [hk]
    exact (hsep.lower_ne hp (mem_fields_of_mem_writtenParts hx) k).symm
  · intro x hx y hy
    rcases List.mem_append.1 hx with hx | hx
    · exact h.fields y hy _ (mem_fields_of_mem_writtenParts hx)
    · obtain ⟨k, hk⟩ := hitem hx
      rw [hk]
      exact h.separate.lower_ne hp (List.mem_map_of_mem hy) k

theorem sampled_of_lists {p : String} (hp : Ascii.lower p = p) (hsep : Separate p fields) {c : Context}
    (hc : c.baggage.Lowered) {extra l : Entries} (h : Beside p extra) (hl : Lists l (written p c ++ extra)) :
    sampled l = (c.sampled, []) := by
  have hflags : findEntry l flagsKey = none := by
    refine hl.findEntry_of_not_mem fun e he => ?_
    rcases List.mem_append.1 he with he | he
    · rw [written_eq] at he
      rcases List.mem_append.1 he with he | he
      · have hkeys : ∀ key ∈ [traceKey, spanKey, sampledKey], Ascii.lower key ≠ Ascii.lower flagsKey := by decide
        exact hkeys _ (List.mem_map_of_mem (f := (·.1)) he)
      · obtain ⟨i, -, rfl⟩ := List.mem_map.1 he
        exact hsep.lower_ne hp (by simp [fields]) i.1
    · exact (h.fields e he flagsKey (by simp [fields])).symm
  have hmem : (sampledKey, if c.sampled then "1" else "0") ∈ written p c ++ extra := by
    simp [written_eq, writtenParts]
  rw [sampled, hflags, hl.findEntry_of_mem (distinct_written hp hsep hc h) hmem rfl]
  cases c.sampled with
  | true => rfl
  | false => rfl

theorem read_of_lists {p : String} (hp : Ascii.lower p = p) (hsep : Separate p fields) {c : Context}
    (htrace : c.trace ≠ 0) (hspan : c.span ≠ 0) (hc : c.baggage.Lowered) {extra l : Entries} (h : Beside p extra)
    (hl : Lists l (written p c ++ extra)) (carrier : String) :
    read p carrier l = ⟨[], .ok (some c.carried)⟩ := by
  have hd := distinct_written hp hsep hc h
  have ht : findEntry l traceKey = some (traceText c.trace) :=
    hl.findEntry_of_mem hd (e := (traceKey, traceText c.trace)) (by simp [written_eq, writtenParts]) rfl
  have hs : findEntry l spanKey = some (Hex.text 16 c.span.toNat) :=
    hl.findEntry_of_mem hd (e := (spanKey, Hex.text 16 c.span.toNat)) (by simp [written_eq, writtenParts]) rfl
  have hitems : (items p l).Perm (c.baggage.erase "").entries := by
    have hperm := items_of_lists (p := p) hl
    rwa [items_append, items_written hp hsep hc, items_of_separate h.separate, List.append_nil] at hperm
  have hread := Context.withBaggage_of_perm (KeyMap.lowered_erase hc "") hitems c.trace c.span c.sampled
  rw [read, ht, hs]
  simp only [bounded?_traceText htrace, bounded?_spanText hspan, sampled_of_lists hp hsep hc h hl, BitVec.ofNat_toNat,
    BitVec.setWidth_eq, hread]
  rfl

end B3

end SpanFlow
