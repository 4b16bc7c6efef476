import SpanFlow.Carrier.Amqp
import SpanFlow.Carrier.Stomp
import SpanFlow.Proofs.Carrier.Http
import SpanFlow.Proofs.Carrier.JmsKey

namespace SpanFlow

variable {α β C : Type}

section Sorted

variable {f : String × α → Option β} {name : String}

theorem findSome?_insertSorted_self {a : α} {v : β} {l : List (String × α)} (ha : f (name, a) = some v)
    (hl : ∀ e ∈ l, f e ≠ none → name ≤ e.1) : (insertSorted name a l).findSome? f = some v := by
  induction l with
  | nil => simp [insertSorted, ha]
  | cons e l ih =>
    simp only [insertSorted]
    split
    · simp [ha]
    · next hlt =>
      split
      · simp [ha]
      · next hne =>
        -- What stands before the new entry is not found.
        have hbefore : e.1 < name := lt_of_not_lt_of_ne hlt hne
        have hnone : f e = none :=
          Decidable.by_contra fun hsome => String.not_lt.2 (hl e (by simp) hsome) hbefore
        simp [hnone, ih fun x hx => hl x (by simp [hx])]

theorem findSome?_insertSorted_of_none (h : ∀ a, f (name, a) = none) (a : α) (l : List (String × α)) :
    (insertSorted name a l).findSome? f = l.findSome? f := by
  induction l with
  | nil => simp [insertSorted, h]
  | cons e l ih =>
    simp only [insertSorted]
    split
    · simp [h]
    · split
      · next he =>
        have hold : f e = none := by
          rw [← he] at h
          exact h e.2
        simp [h, hold]
      · simp [List.findSome?_cons, ih]

def probe (shows : String × α → Option (String × String)) (key : String) (e : String × α) : Option String :=
  (shows e).bind fun x => if Ascii.lower x.1 = Ascii.lower key then some x.2 else none

theorem findEntry_filterMap (shows : String × α → Option (String × String)) (key : String) (l : List (String × α)) :
    findEntry (l.filterMap shows) key = l.findSome? (probe shows key) := by
  induction l with
  | nil => rfl
  | cons e l ih =>
    rw [List.filterMap_cons, List.findSome?_cons, ← ih]
    cases hx : shows e with
    | none => simp [probe, hx]
    | some x =>
      by_cases hk : Ascii.lower x.1 = Ascii.lower key
      · simp [probe, hx, findEntry, Ascii.sameIgnoringCase, hk]
      · simp [probe, hx, findEntry, Ascii.sameIgnoringCase, hk]

/-- The stored name and the listed key of every entry for which something is listed. -/
def slotsOf (shows : String × α → Option (String × String)) (l : List (String × α)) : List (String × String) :=
  l.filterMap fun e => (shows e).map fun x => (e.1, x.1)

end Sorted

/-- No entry that is found under the key stands before the name under which the key is stored. -/
def Leads (slots : List (String × String)) (name key : String) : Prop :=
  ∀ s ∈ slots, Ascii.lower s.2 = Ascii.lower key → name ≤ s.1

section Sorted

variable (shows : String × α → Option (String × String)) {name key : String} {l : List (String × α)}

theorem findEntry_insertSorted_self {a : α} {k v : String} (ha : shows (name, a) = some (k, v))
    (hk : Ascii.lower k = Ascii.lower key) (hl : Leads (slotsOf shows l) name key) :
    findEntry ((insertSorted name a l).filterMap shows) key = some v := by
  rw [findEntry_filterMap]
  refine findSome?_insertSorted_self (by simp [probe, ha, hk]) fun e he hfound => ?_
  obtain ⟨u, hu⟩ := Option.ne_none_iff_exists'.1 hfound
  obtain ⟨x, hx, hif⟩ := Option.bind_eq_some_iff.1 hu
  by_cases hsame : Ascii.lower x.1 = Ascii.lower key
  · exact hl (e.1, x.1) (List.mem_filterMap.2 ⟨e, he, by simp [hx]⟩) hsame
  · simp [hsame] at hif

theorem findEntry_insertSorted_of_ne (h : ∀ a x, shows (name, a) = some x → Ascii.lower x.1 ≠ Ascii.lower key)
    (a : α) (l : List (String × α)) :
    findEntry ((insertSorted name a l).filterMap shows) key = findEntry (l.filterMap shows) key := by
  rw [findEntry_filterMap, findEntry_filterMap]
  refine findSome?_insertSorted_of_none (fun b => ?_) a l
  rw [probe, Option.bind_eq_none_iff]
  intro x hx
  exact if_neg (h b x hx)

theorem leads_insertSorted {other : String}
    (h : ∀ a x, shows (name, a) = some x → Ascii.lower x.1 ≠ Ascii.lower key) (a : α)
    (hl : Leads (slotsOf shows l) other key) : Leads (slotsOf shows (insertSorted name a l)) other key := by
  intro s hs hsame
  obtain ⟨e, he, hs⟩ := List.mem_filterMap.1 hs
  rcases mem_insertSorted he with rfl | he
  · obtain ⟨x, hx, rfl⟩ := Option.map_eq_some_iff.1 hs
    exact absurd hsame (h a x hx)
  · exact hl s (List.mem_filterMap.2 ⟨e, he, hs⟩) hsame

end Sorted

/-- What a carrier shows under a key, compared without case; nothing if it cannot be read. -/
def shown? [TextMap C] (m : C) (key : String) : Option String :=
  match TextMap.entries m with
  | .ok es => findEntry es key
  | .error _ => none

/-- How a carrier stores its entries, and what it shows after a write. -/
class Storage (C : Type) [TextMap C] where
  /-- The name under which a key is stored. -/
  storedAs : String → String
  /-- The key that is listed for one that was put. -/
  shownAs : String → String
  /-- The stored name and the listed key of every entry that may come before a written one. -/
  slots : C → List (String × String)
  shown_put : ∀ {m m' : C} {k v key : String}, Ascii.lower (shownAs k) = Ascii.lower key →
    Leads (slots m) (storedAs k) key → TextMap.put k v m = .ok () m' → shown? m' key = some v
  shown_put_of_ne : ∀ {m m' : C} {k v key : String}, Ascii.lower (shownAs k) ≠ Ascii.lower key →
    TextMap.put k v m = .ok () m' → shown? m' key = shown? m key
  leads_put_of_ne : ∀ {m m' : C} {k v name key : String}, Ascii.lower (shownAs k) ≠ Ascii.lower key →
    TextMap.put k v m = .ok () m' → Leads (slots m) name key → Leads (slots m') name key

namespace Storage

variable [TextMap C] [Storage C] {key : String} {m m' : C}

theorem shown_putAll_of_ne {es : Entries} (h : ∀ e ∈ es, Ascii.lower (shownAs C e.1) ≠ Ascii.lower key)
    (hput : putAll es m = .ok () m') : shown? m' key = shown? m key := by
  induction es generalizing m with
  | nil =>
    cases hput
    rfl
  | cons e es ih =>
    obtain ⟨x, hx, hrest⟩ := putAll_cons_of_ok hput
    rw [ih (fun y hy => h y (by simp [hy])) hrest, shown_put_of_ne (h e (by simp)) hx]

theorem leads_putAll_of_ne {es : Entries} {name : String}
    (h : ∀ e ∈ es, Ascii.lower (shownAs C e.1) ≠ Ascii.lower key) (hput : putAll es m = .ok () m')
    (hl : Leads (slots m) name key) : Leads (slots m') name key := by
  induction es generalizing m with
  | nil =>
    cases hput
    exact hl
  | cons e es ih =>
    obtain ⟨x, hx, hrest⟩ := putAll_cons_of_ok hput
    exact ih (fun y hy => h y (by simp [hy])) hrest (leads_put_of_ne (h e (by simp)) hx hl)

/-- A leading key shows what was written under it, whatever else was written. -/
theorem shown_putAll {a b : Entries} {k v : String} (hk : Ascii.lower (shownAs C k) = Ascii.lower key)
    (ha : ∀ e ∈ a, Ascii.lower (shownAs C e.1) ≠ Ascii.lower key)
    (hb : ∀ e ∈ b, Ascii.lower (shownAs C e.1) ≠ Ascii.lower key) (hl : Leads (slots m) (storedAs C k) key)
    (hput : putAll (a ++ (k, v) :: b) m = .ok () m') : shown? m' key = some v := by
  obtain ⟨x, hx, hrest⟩ := putAll_append_of_ok hput
  obtain ⟨y, hy, hlast⟩ := putAll_cons_of_ok hrest
  rw [shown_putAll_of_ne hb hlast, shown_put hk (leads_putAll_of_ne ha hx hl) hy]

end Storage

instance : Storage (KeyMap String) where
  storedAs := id
  shownAs := id
  slots m := slotsOf some m.entries
  shown_put := by
    rintro m _ k v key hk hl ⟨⟩
    have hfound := findEntry_insertSorted_self some (a := v) rfl hk hl
    rwa [List.filterMap_some] at hfound
  shown_put_of_ne := by
    rintro m _ k v key hk ⟨⟩
    have hsame := findEntry_insertSorted_of_ne some (by rintro a _ ⟨⟩; exact hk) v m.entries
    rwa [List.filterMap_some, List.filterMap_some] at hsame
  leads_put_of_ne := by
    rintro m _ k v name key hk ⟨⟩ hl
    exact leads_insertSorted some (by rintro a _ ⟨⟩; exact hk) v hl

namespace AmqpMessage

def shows (e : String × AmqpValue) : Option (String × String) :=
  e.2.asText?.map fun t => (e.1, t)

theorem key_of_shows {k : String} {a : AmqpValue} {x : String × String} (h : shows (k, a) = some x) : x.1 = k := by
  obtain ⟨t, -, rfl⟩ := Option.map_eq_some_iff.1 h
  rfl

instance : Storage AmqpMessage where
  storedAs := id
  shownAs := id
  slots m := slotsOf shows m.headers.entries
  shown_put := by
    rintro m _ k v key hk hl ⟨⟩
    exact findEntry_insertSorted_self shows (a := .text v) rfl hk hl
  shown_put_of_ne := by
    rintro m _ k v key hk ⟨⟩
    exact findEntry_insertSorted_of_ne shows (fun a x hx => by rwa [key_of_shows hx]) _ _
  leads_put_of_ne := by
    rintro m _ k v name key hk ⟨⟩ hl
    exact leads_insertSorted shows (fun a x hx => by rwa [key_of_shows hx]) _ hl

end AmqpMessage

namespace JmsMessage

def shows (e : String × String) : Option (String × String) :=
  some (JmsKey.decode e.1, e.2)

theorem key_of_shows {name a : String} {x : String × String} (h : shows (name, a) = some x) :
    x.1 = JmsKey.decode name := by
  rw [← Option.some.inj h]

theorem put_eq_ok {m m' : JmsMessage} {k v : String}
    (h : (TextMap.put k v : EStateM CarrierError JmsMessage Unit) m = .ok () m') :
    m' = { m with properties := m.properties.insert (JmsKey.encode k) v } := by
  simp only [TextMap.put] at h
  split at h
  · cases h
  · cases h
    rfl

theorem shown?_eq (m : JmsMessage) (key : String) :
    shown? m key = findEntry (m.properties.entries.filterMap shows) key := by
  have hmap : m.properties.entries.filterMap shows = m.properties.entries.map fun e => (JmsKey.decode e.1, e.2) :=
    congrFun List.filterMap_eq_map _
  rw [hmap]
  rfl

instance : Storage JmsMessage where
  storedAs := JmsKey.encode
  shownAs k := JmsKey.decode (JmsKey.encode k)
  slots m := slotsOf shows m.properties.entries
  shown_put := by
    intro m m' k v key hk hl hput
    rw [put_eq_ok hput, shown?_eq]
    exact findEntry_insertSorted_self shows (a := v) rfl hk hl
  shown_put_of_ne := by
    intro m m' k v key hk hput
    rw [put_eq_ok hput, shown?_eq, shown?_eq]
    exact findEntry_insertSorted_of_ne shows (fun a x hx => by rwa [key_of_shows hx]) v _
  leads_put_of_ne := by
    intro m m' k v name key hk hput hl
    rw [put_eq_ok hput]
    exact leads_insertSorted shows (fun a x hx => by rwa [key_of_shows hx]) v hl

end JmsMessage

namespace StompMessage

def shows (e : String × List String) : Option (String × String) :=
  e.2.head?.map fun v => (e.1, v)

theorem key_of_shows {k : String} {a : List String} {x : String × String} (h : shows (k, a) = some x) : x.1 = k := by
  obtain ⟨v, -, rfl⟩ := Option.map_eq_some_iff.1 h
  rfl

def showsPlain (native : KeyMap (List String)) (e : String × String) : Option (String × String) :=
  if native.contains e.1 then none else some e

theorem entries_eq (m : StompMessage) :
    m.entries = m.native.entries.filterMap shows ++ m.headers.entries.filterMap (showsPlain m.native) := by
  have hguard : showsPlain m.native = Option.guard fun e => !m.native.contains e.1 := by
    funext e
    cases h : m.native.contains e.1 <;> simp [showsPlain, Option.guard, h]
  rw [hguard, List.filterMap_eq_filter]
  rfl

theorem shown?_eq (m : StompMessage) (key : String) :
    shown? m key = (findEntry (m.native.entries.filterMap shows) key).or
      (findEntry (m.headers.entries.filterMap (showsPlain m.native)) key) := by
  rw [← findEntry_append, ← entries_eq]
  rfl

theorem findEntry_plain_put {m : StompMessage} {k key : String} (hk : Ascii.lower k ≠ Ascii.lower key) (v : String) :
    findEntry ((m.put k v).headers.entries.filterMap (showsPlain (m.put k v).native)) key =
      findEntry (m.headers.entries.filterMap (showsPlain m.native)) key := by
  have hprobe : probe (showsPlain (m.put k v).native) key = probe (showsPlain m.native) key := by
    funext e
    rw [probe, probe, showsPlain, showsPlain, put, KeyMap.contains_insert]
    -- Only the written key is in the new native map and not in the old one, and it is not asked for.
    by_cases he : k = e.1
    · subst he
      cases m.native.contains e.1 <;> simp [hk]
    · rw [beq_eq_false_iff_ne.2 he, Bool.false_or]
  rw [findEntry_filterMap, hprobe, ← findEntry_filterMap]
  refine findEntry_insertSorted_of_ne _ (fun a x hx => ?_) v m.headers.entries
  unfold showsPlain at hx
  split at hx
  · cases hx
  · cases hx
    exact hk

instance : Storage StompMessage where
  storedAs := id
  shownAs := id
  slots m := slotsOf shows m.native.entries
  shown_put := by
    rintro m _ k v key hk hl ⟨⟩
    have hnative := findEntry_insertSorted_self shows (a := [v]) rfl hk hl
    rw [shown?_eq, put, KeyMap.entries_insert, KeyMap.entries_insert, hnative, Option.some_or]
  shown_put_of_ne := by
    rintro m _ k v key hk ⟨⟩
    have hnative : findEntry ((insertSorted k [v] m.native.entries).filterMap shows) key =
        findEntry (m.native.entries.filterMap shows) key :=
      findEntry_insertSorted_of_ne shows (fun a x hx => by rwa [key_of_shows hx]) [v] m.native.entries
    have hplain := findEntry_plain_put (m := m) (k := k) hk v
    rw [shown?_eq, shown?_eq, hplain, put, KeyMap.entries_insert, hnative]
  leads_put_of_ne := by
    rintro m _ k v name key hk ⟨⟩ hl
    exact leads_insertSorted shows (fun a x hx => by rwa [key_of_shows hx]) [v] hl

end StompMessage

namespace HeaderMap

instance : Storage HeaderMap where
  storedAs := Ascii.lower
  shownAs := id
  slots _ := []
  shown_put := by
    intro m m' k v key hk _ hput
    rw [put_eq_ok hput]
    exact (findEntry_set m k _ key).trans ((if_pos hk).trans (congrArg some (headerText_encode v)))
  shown_put_of_ne := by
    intro m m' k v key hk hput
    rw [put_eq_ok hput]
    exact (findEntry_set m k _ key).trans (if_neg hk)
  leads_put_of_ne := by
    intro m m' k v name key hk hput hl
    exact hl

theorem leads (m : HeaderMap) (name key : String) : Leads (Storage.slots m) name key :=
  fun _ hs => nomatch hs

end HeaderMap

end SpanFlow
