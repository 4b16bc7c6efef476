import Mathlib.Data.List.Basic
import SpanFlow.Proofs.Carrier.Others
import SpanFlow.Proofs.Carrier.Storage

/-!
What a write makes of the slots of a transport object: the place of a key in a map, the property with the
encoded name, the header of that name in small letters. Main statement: a write that is taken leaves one entry
in its slot, with its value, and nothing of what was there before; the entries of all other slots stay as they
are; and a write that is refused changes nothing.
-/

namespace SpanFlow

variable {α C : Type}

/-- How a transport object is laid out in slots. -/
class Slotted (C : Type) [TextMap C] where
  /-- All that a slot can hold, whether or not it is listed. -/
  Held : Type
  held : C → String → Held
  /-- What a slot holds when a value was written to it. -/
  written : String → Held
  /-- The entries in the order in which they are listed, each behind the slot that it comes from. -/
  listing : C → List (String × String × String)
  entries_eq : ∀ m : C, TextMap.entries m = .ok ((listing m).map (·.2))

/-- The entries that come from the slots that are kept. -/
def shownFrom [TextMap C] [Slotted C] (keep : String → Bool) (m : C) : Entries :=
  ((Slotted.listing m).filter fun x => keep x.1).map (·.2)

/-- What writing a value under a key means, where the key has this slot, is listed as another key, and is taken
under a condition. Of the other slots together the entries are the same up to a relation, in which carriers
without an order of their own differ. -/
structure PutLaw [TextMap C] [Slotted C] (same : Entries → Entries → Prop) (m : C) (k v slot key : String)
    (takes : Prop) : Prop where
  succeeds : (∃ m', TextMap.put k v m = .ok () m') ↔ takes
  refused : ∀ e m', TextMap.put k v m = .error e m' → m' = m
  listed : ∀ m', TextMap.put k v m = .ok () m' → shownFrom (· == slot) m' = [(key, v)]
  held : ∀ m', TextMap.put k v m = .ok () m' → Slotted.held m' slot = Slotted.written v
  others : ∀ m', TextMap.put k v m = .ok () m' → ∀ other, other ≠ slot →
    shownFrom (· == other) m' = shownFrom (· == other) m ∧ Slotted.held m' other = Slotted.held m other
  rest : ∀ m', TextMap.put k v m = .ok () m' → same (shownFrom (· != slot) m') (shownFrom (· != slot) m)

theorem PutLaw.of_result [TextMap C] [Slotted C] {same : Entries → Entries → Prop} {m n : C} {k v slot key : String}
    {takes : Prop} (htaken : takes → TextMap.put k v m = .ok () n) (hrefused : ¬takes → ∃ e, TextMap.put k v m = .error e m)
    (hlisted : shownFrom (· == slot) n = [(key, v)]) (hheld : Slotted.held n slot = Slotted.written v)
    (hothers : ∀ other, other ≠ slot →
      shownFrom (· == other) n = shownFrom (· == other) m ∧ Slotted.held n other = Slotted.held m other)
    (hrest : same (shownFrom (· != slot) n) (shownFrom (· != slot) m)) : PutLaw same m k v slot key takes := by
  have hone {m' : C} (h : TextMap.put k v m = .ok () m') : takes ∧ m' = n := by
    by_cases ht : takes
    · refine ⟨ht, ?_⟩
      rw [htaken ht] at h
      cases h
      rfl
    · obtain ⟨e, he⟩ := hrefused ht
      rw [he] at h
      cases h
  refine ⟨⟨fun ⟨m', h⟩ => (hone h).1, fun ht => ⟨n, htaken ht⟩⟩, fun e m' h => ?_, fun m' h => ?_, fun m' h => ?_,
    fun m' h => ?_, fun m' h => ?_⟩
  · by_cases ht : takes
    · rw [htaken ht] at h
      cases h
    · obtain ⟨e', he⟩ := hrefused ht
      rw [he] at h
      cases h
      rfl
  · exact (hone h).2 ▸ hlisted
  · exact (hone h).2 ▸ hheld
  · exact (hone h).2 ▸ hothers
  · exact (hone h).2 ▸ hrest

def tagged (shows : String × α → Option (String × String)) (l : List (String × α)) : List (String × String × String) :=
  l.filterMap fun e => (shows e).map fun x => (e.1, x)

section Tagged

variable (shows : String × α → Option (String × String))

theorem map_tagged (l : List (String × α)) : (tagged shows l).map (·.2) = l.filterMap shows := by
  rw [tagged, List.map_filterMap]
  congr 1
  funext e
  rw [Option.map_map]
  exact Option.map_id'

theorem filter_tagged (keep : String → Bool) (l : List (String × α)) :
    (tagged shows l).filter (fun x => keep x.1) = tagged shows (l.filter fun e => keep e.1) := by
  rw [tagged, List.filter_filterMap, tagged, List.filterMap_filter]
  congr 1
  funext e
  cases shows e with
  | none => simp
  | some x => cases hkeep : keep e.1 <;> simp [hkeep]

theorem filter_tagged_insert {keep : String → Bool} {k : String} (h : keep k = false) (a : α) (m : KeyMap α) :
    (tagged shows (m.insert k a).entries).filter (fun x => keep x.1) =
      (tagged shows m.entries).filter fun x => keep x.1 := by
  rw [filter_tagged, filter_tagged, KeyMap.entries_insert, filter_insertSorted h]

theorem filter_tagged_insert_self {k : String} {a : α} {x : String × String} (hx : shows (k, a) = some x) (m : KeyMap α) :
    (tagged shows (m.insert k a).entries).filter (fun x => x.1 == k) = [(k, x)] := by
  rw [filter_tagged shows (· == k), KeyMap.filter_key, KeyMap.get?_insert_self]
  simp [tagged, hx]

end Tagged

/-- Where a write leaves the listing of every row of other slots alone, it leaves that of each of them alone. -/
theorem PutLaw.of_kept [TextMap C] [Slotted C] {m n : C} {k v slot key : String} {takes : Prop}
    (htaken : takes → TextMap.put k v m = .ok () n) (hrefused : ¬takes → ∃ e, TextMap.put k v m = .error e m)
    (hlisted : (Slotted.listing n).filter (fun x => x.1 == slot) = [(slot, key, v)])
    (hheld : Slotted.held n slot = Slotted.written v)
    (hothers : ∀ other, other ≠ slot → Slotted.held n other = Slotted.held m other)
    (hkept : ∀ keep : String → Bool, keep slot = false →
      (Slotted.listing n).filter (fun x => keep x.1) = (Slotted.listing m).filter fun x => keep x.1) :
    PutLaw Eq m k v slot key takes := by
  refine .of_result htaken hrefused ?_ hheld (fun other hne => ⟨?_, hothers other hne⟩) ?_
  · rw [shownFrom, hlisted]
    rfl
  · rw [shownFrom, shownFrom, hkept (· == other) (beq_eq_false_iff_ne.2 (Ne.symm hne))]
  · rw [shownFrom, shownFrom, hkept (· != slot) (bne_self_eq_false slot)]

instance : Slotted (KeyMap String) where
  Held := Option String
  held := KeyMap.get?
  written := some
  listing m := tagged some m.entries
  entries_eq m := by rw [map_tagged, List.filterMap_some]; rfl

theorem putLaw_map (m : KeyMap String) (k v : String) : PutLaw Eq m k v k k True :=
  .of_kept (n := m.insert k v) (fun _ => rfl) (fun h => absurd trivial h) (filter_tagged_insert_self some rfl m)
    (m.get?_insert_self k v) (fun _ hne => m.get?_insert_of_ne (Ne.symm hne) v) fun _ h => filter_tagged_insert some h v m

section Unordered

variable {order : KeyMap String → Entries}

instance : Slotted (Unordered order) where
  Held := Option String
  held m := m.content.get?
  written := some
  listing m := tagged some (order m.content)
  entries_eq m := by rw [map_tagged, List.filterMap_some]; rfl

theorem listing_unordered (m : Unordered order) : Slotted.listing m = tagged some (order m.content) := rfl

theorem filter_order (horder : ∀ m, (order m).Perm m.entries) (m : KeyMap String) (k : String) :
    (order m).filter (fun x => x.1 == k) = (m.get? k).toList.map fun a => (k, a) := by
  have hperm := (horder m).filter fun x => x.1 == k
  rw [m.filter_key] at hperm
  cases hk : m.get? k with
  | none =>
    rw [hk] at hperm
    exact hperm.eq_nil
  | some a =>
    rw [hk] at hperm
    exact List.perm_singleton.1 hperm

theorem shownFrom_order (horder : ∀ m, (order m).Perm m.entries) (m : Unordered order) (k : String) :
    shownFrom (· == k) m = (m.content.get? k).toList.map fun a => (k, a) := by
  rw [shownFrom, listing_unordered, filter_tagged some (· == k), map_tagged, List.filterMap_some,
    filter_order horder]

theorem putLaw_unordered (horder : ∀ m, (order m).Perm m.entries) (m : Unordered order) (k v : String) :
    PutLaw List.Perm m k v k k True := by
  refine .of_result (n := ⟨m.content.insert k v⟩) (fun _ => rfl) (fun h => absurd trivial h) ?_
    (m.content.get?_insert_self k v) (fun other hne => ⟨?_, m.content.get?_insert_of_ne (Ne.symm hne) v⟩) ?_
  · rw [shownFrom_order horder, KeyMap.get?_insert_self]
    rfl
  · rw [shownFrom_order horder, shownFrom_order horder, KeyMap.get?_insert_of_ne _ (Ne.symm hne)]
  · have hrest {c : KeyMap String} : (shownFrom (· != k) (⟨c⟩ : Unordered order)).Perm (c.entries.filter (·.1 != k)) := by
      rw [shownFrom, listing_unordered, filter_tagged some (· != k), map_tagged, List.filterMap_some]
      exact (horder c).filter _
    have hsame : (m.content.insert k v).entries.filter (·.1 != k) = m.content.entries.filter (·.1 != k) :=
      @filter_insertSorted _ (· != k) k (bne_self_eq_false k) v m.content.entries
    exact hrest.trans ((List.Perm.of_eq hsame).trans hrest.symm)

end Unordered

instance : Slotted AmqpMessage where
  Held := Option AmqpValue
  held m := m.headers.get?
  written v := some (.text v)
  listing m := tagged AmqpMessage.shows m.headers.entries
  entries_eq m := by rw [map_tagged]; rfl

theorem putLaw_amqp (m : AmqpMessage) (k v : String) : PutLaw Eq m k v k k True :=
  .of_kept (n := { m with headers := m.headers.insert k (.text v) }) (fun _ => rfl) (fun h => absurd trivial h)
    (filter_tagged_insert_self AmqpMessage.shows rfl m.headers) (m.headers.get?_insert_self k _)
    (fun _ hne => m.headers.get?_insert_of_ne (Ne.symm hne) _)
    fun _ h => filter_tagged_insert AmqpMessage.shows h _ m.headers

instance : Slotted JmsMessage where
  Held := Option String
  held m := m.properties.get?
  written := some
  listing m := tagged JmsMessage.shows m.properties.entries
  entries_eq m := by
    rw [map_tagged]
    exact congrArg Except.ok (congrFun List.filterMap_eq_map.symm _)

theorem putLaw_jms (m : JmsMessage) (k v : String) :
    PutLaw Eq m k v (JmsKey.encode k) (JmsKey.decode (JmsKey.encode k)) (m.readOnly = false) := by
  refine .of_kept (n := { m with properties := m.properties.insert (JmsKey.encode k) v }) (fun h => ?_) (fun h => ?_)
    (filter_tagged_insert_self JmsMessage.shows rfl m.properties) (m.properties.get?_insert_self _ v)
    (fun _ hne => m.properties.get?_insert_of_ne (Ne.symm hne) v)
    fun _ h => filter_tagged_insert JmsMessage.shows h v m.properties
  · simp [TextMap.put, h]
  · have hro : m.readOnly = true := by simpa using h
    refine ⟨.rejected "jms_properties" k "message properties are read-only", ?_⟩
    simp only [TextMap.put, if_pos hro]

namespace StompMessage

instance : Slotted StompMessage where
  Held := Option String × Option (List String)
  held m k := (m.headers.get? k, m.native.get? k)
  written v := (some v, some [v])
  listing m := tagged shows m.native.entries ++ tagged (showsPlain m.native) m.headers.entries
  entries_eq m := by
    rw [List.map_append, map_tagged, map_tagged, ← entries_eq]
    rfl

theorem listing_eq (m : StompMessage) :
    Slotted.listing m = tagged shows m.native.entries ++ tagged (showsPlain m.native) m.headers.entries := rfl

theorem filter_listing_put_self (m : StompMessage) (k v : String) :
    (Slotted.listing (m.put k v)).filter (fun x => x.1 == k) = [(k, k, v)] := by
  have hnative := filter_tagged_insert_self shows (a := [v]) (k := k) rfl m.native
  have hplain : (tagged (showsPlain (m.put k v).native) (m.headers.insert k v).entries).filter (fun x => x.1 == k) = [] := by
    rw [filter_tagged _ (· == k), KeyMap.filter_key, KeyMap.get?_insert_self]
    simp [tagged, showsPlain, put, KeyMap.contains_insert]
  rw [listing_eq, List.filter_append, put, hnative]
  exact congrArg _ hplain

theorem filter_listing_put {keep : String → Bool} {k : String} (h : keep k = false) (m : StompMessage) (v : String) :
    (Slotted.listing (m.put k v)).filter (fun x => keep x.1) = (Slotted.listing m).filter fun x => keep x.1 := by
  have hnative := filter_tagged_insert shows h [v] m.native
  have hplain : (tagged (showsPlain (m.put k v).native) (m.headers.insert k v).entries).filter (fun x => keep x.1) =
      (tagged (showsPlain m.native) m.headers.entries).filter fun x => keep x.1 := by
    rw [filter_tagged_insert _ h, filter_tagged, filter_tagged, tagged, tagged]
    refine List.filterMap_congr fun e he => ?_
    have hne : k ≠ e.1 := by
      rintro rfl
      rw [(List.mem_filter.1 he).2] at h
      cases h
    rw [showsPlain, showsPlain, put, KeyMap.contains_insert, beq_eq_false_iff_ne.2 hne, Bool.false_or]
  rw [listing_eq, listing_eq, List.filter_append, List.filter_append, ← hplain, ← hnative]
  rfl

theorem putLaw (m : StompMessage) (k v : String) : PutLaw Eq m k v k k True := by
  refine .of_kept (n := m.put k v) (fun _ => rfl) (fun h => absurd trivial h) (m.filter_listing_put_self k v)
    (Prod.ext (m.headers.get?_insert_self k v) (m.native.get?_insert_self k [v])) (fun other hne => ?_)
    fun _ h => filter_listing_put h m v
  exact Prod.ext (m.headers.get?_insert_of_ne (Ne.symm hne) v) (m.native.get?_insert_of_ne (Ne.symm hne) [v])

end StompMessage

namespace HeaderMap

instance : Slotted HeaderMap where
  Held := List HeaderValue
  held := values
  written v := [Utf8.encode v.toList]
  listing m := m.fields.flatMap fun f => f.2.map fun v => (f.1, f.1, headerText v)
  entries_eq m := by
    rw [List.map_flatMap]
    simp only [List.map_map]
    rfl

theorem listing_eq (m : HeaderMap) :
    Slotted.listing m = m.fields.flatMap fun f => f.2.map fun v => (f.1, f.1, headerText v) := rfl

theorem filter_listing (keep : String → Bool) (m : HeaderMap) :
    (Slotted.listing m).filter (fun x => keep x.1) =
      (m.fields.filter fun f => keep f.1).flatMap fun f => f.2.map fun v => (f.1, f.1, headerText v) := by
  rw [listing_eq, List.filter_flatMap]
  induction m.fields with
  | nil => rfl
  | cons f r ih =>
    rw [List.flatMap_cons, ih]
    cases hkeep : keep f.1 with
    | true => rw [List.filter_cons_of_pos (by exact hkeep), List.flatMap_cons, List.filter_eq_self.2 (by simp [hkeep])]
    | false => rw [List.filter_cons_of_neg (by simp [hkeep]), List.filter_eq_nil_iff.2 (by simp [hkeep]), List.nil_append]

theorem filter_listing_set_self (m : HeaderMap) (k v : String) :
    (Slotted.listing (m.set k [Utf8.encode v.toList])).filter (fun x => x.1 == Ascii.lower k) =
      [(Ascii.lower k, Ascii.lower k, v)] := by
  have hone := filter_key_eq (nodup_putValues m.nodup) (mem_putValues_self (Ascii.lower k) [Utf8.encode v.toList] m.fields)
  rw [filter_listing (· == Ascii.lower k), fields_set, hone]
  simp [headerText_encode]

theorem putLaw (m : HeaderMap) (k v : String) :
    PutLaw Eq m k v (Ascii.lower k) (Ascii.lower k) (Admitted (k, v)) := by
  refine .of_kept (n := m.set k [Utf8.encode v.toList]) (fun h => put_of_admitted m h) (fun h => ?_)
    (m.filter_listing_set_self k v) ?_ (fun other hne => ?_) fun keep h => ?_
  · cases hput : m.put k v with
    | ok m' =>
      have hok : (TextMap.put k v : EStateM CarrierError HeaderMap Unit) m = .ok () m' := by
        simp only [TextMap.put, hput]
      exact absurd (admitted_of_put hok) h
    | error e => exact ⟨e, by simp only [TextMap.put, hput]⟩
  · exact congrArg (Option.getD · []) (lookup_putValues_self _ _ m.fields)
  · exact congrArg (Option.getD · []) (lookup_putValues_of_ne hne _ m.fields)
  · rw [filter_listing, filter_listing, fields_set, filter_putValues h]

end HeaderMap

/-- On each carrier, in any state: a map with or without an order of its own, AMQP headers, JMS properties, STOMP
headers, and HTTP headers, which list a key in small letters. -/
theorem put_replaces_slot :
    (∀ order : KeyMap String → Entries, (∀ m, (order m).Perm m.entries) →
      ∀ (m : Unordered order) k v, PutLaw List.Perm m k v k k True) ∧
    (∀ (m : KeyMap String) k v, PutLaw Eq m k v k k True) ∧
    (∀ (m : AmqpMessage) k v, PutLaw Eq m k v k k True) ∧
    (∀ (m : JmsMessage) k v,
      PutLaw Eq m k v (JmsKey.encode k) (JmsKey.decode (JmsKey.encode k)) (m.readOnly = false)) ∧
    (∀ (m : StompMessage) k v, PutLaw Eq m k v k k True) ∧
    ∀ (m : HeaderMap) k v, PutLaw Eq m k v (Ascii.lower k) (Ascii.lower k) (Admitted (k, v)) :=
  ⟨fun _ => putLaw_unordered, putLaw_map, putLaw_amqp, putLaw_jms, StompMessage.putLaw, HeaderMap.putLaw⟩

/-- A map that lists its entries backwards, and a header with two values. -/
theorem put_replaces_slot_backwards :
    let order := fun m : KeyMap String => m.entries.reverse
    let m : Unordered order := ⟨.ofList [("a", "1"), ("b", "2"), ("c", "3")]⟩
    let h : HeaderMap := (HeaderMap.empty.set "via" [[0x31], [0xFF]]).set "host" [[0x61]]
    (∃ m', TextMap.put "b" "x" m = .ok () m' ∧ shownFrom (· == "b") m' = [("b", "x")] ∧
      (shownFrom (· != "b") m').Perm [("c", "3"), ("a", "1")]) ∧
      ∃ h', TextMap.put "Via" "x" h = .ok () h' ∧ shownFrom (· == "via") h' = [("via", "x")] ∧
        h'.values "via" = [[0x78]] ∧ shownFrom (· != "via") h' = [("host", "a")] := by
  intro order m h
  obtain ⟨hunordered, -, -, -, -, hhttp⟩ := put_replaces_slot
  have hm := hunordered order (fun m => List.reverse_perm m.entries) m "b" "x"
  have hh := hhttp h "Via" "x"
  obtain ⟨m', hm'⟩ := hm.succeeds.2 trivial
  obtain ⟨h', hh'⟩ := hh.succeeds.2 ⟨by decide, by simp [isControl]⟩
  refine ⟨⟨m', hm', hm.listed m' hm', hm.rest m' hm'⟩, h', hh', hh.listed h' hh', ?_, ?_⟩
  · have hbytes : Utf8.encode "x".toList = [0x78] := by decide
    exact (hh.held h' hh').trans (congrArg (fun bs => [bs]) hbytes)
  · exact (hh.rest h' hh').trans (by decide +kernel)

/-- The key of an HTTP header is not listed as it was put. -/
theorem put_http_listed_small :
    ∃ m', TextMap.put "X-Tenant" "acme" HeaderMap.empty = .ok () m' ∧
      shownFrom (· == Ascii.lower "X-Tenant") m' = [("x-tenant", "acme")] ∧
      shownFrom (· == Ascii.lower "X-Tenant") m' ≠ [("X-Tenant", "acme")] := by
  have hlaw := HeaderMap.putLaw .empty "X-Tenant" "acme"
  obtain ⟨m', hm'⟩ := hlaw.succeeds.2 ⟨by decide, by simp [isControl]⟩
  have hlisted := hlaw.listed m' hm'
  refine ⟨m', hm', hlisted, ?_⟩
  rw [hlisted]
  decide

end SpanFlow
