import SpanFlow.Proofs.Carrier.Storage

/-!
What a STOMP message lists, whatever its two maps hold and whatever was written to them. A key can be in the
native map without a value there; no write makes it so. Main statement: each key that has a value is listed
once, with its first native value or else with its plain one, native keys first, but for the plain headers of
keys without a value in the native map, which are not listed.
-/

namespace SpanFlow

inductive StompWrite where
  | native (key value : String)
  | entry (key value : String)
  deriving DecidableEq

def StompWrite.key : StompWrite → String
  | .native k _ => k
  | .entry k _ => k

def StompWrite.natives (before : List String) : StompWrite → List String
  | .native _ v => before ++ [v]
  | .entry _ v => [v]

namespace StompMessage

def write (m : StompMessage) : StompWrite → StompMessage
  | .native k v => m.addNative k v
  | .entry k v => m.put k v

def writeAll (m : StompMessage) (ws : List StompWrite) : StompMessage :=
  ws.foldl write m

/-- The key is in the native map and has no value there. -/
def Hides (m : StompMessage) (key : String) : Prop :=
  m.native.get? key = some []

variable {m : StompMessage}

theorem mem_native_iff {k v : String} : (k, v) ∈ m.native.entries.filterMap shows ↔ m.firstNative? k = some v := by
  rw [List.mem_filterMap, firstNative?, Option.bind_eq_some_iff]
  constructor
  · rintro ⟨⟨j, vs⟩, hmem, hshown⟩
    obtain ⟨u, hu, heq⟩ := Option.map_eq_some_iff.1 hshown
    cases heq
    exact ⟨vs, KeyMap.get?_eq_some_iff.2 hmem, hu⟩
  · rintro ⟨vs, hfound, hv⟩
    exact ⟨(k, vs), KeyMap.get?_eq_some_iff.1 hfound, by rw [shows, hv, Option.map_some]⟩

theorem mem_plain_iff {k v : String} : (k, v) ∈ m.headers.entries.filter (fun e => !m.native.contains e.1) ↔
    m.headers.get? k = some v ∧ m.native.get? k = none := by
  rw [List.mem_filter, KeyMap.contains_eq, KeyMap.get?_eq_some_iff, Bool.not_eq_true', Option.isSome_eq_false_iff,
    Option.isNone_iff_eq_none]

/-- An entry is listed if it has the first value of its key, and the key is not hidden. -/
theorem mem_entries_iff {k v : String} :
    (k, v) ∈ m.entries ↔ (m.firstNative? k).or (m.headers.get? k) = some v ∧ ¬m.Hides k := by
  have hsplit : (k, v) ∈ m.entries ↔ m.firstNative? k = some v ∨ m.headers.get? k = some v ∧ m.native.get? k = none := by
    rw [← mem_native_iff, ← mem_plain_iff, ← List.mem_append]
    rfl
  rw [hsplit, firstNative?, Hides]
  cases m.native.get? k with
  | none => simp
  | some values =>
    cases values with
    | nil => simp
    | cons u r => simp

theorem nodup_native : ((m.native.entries.filterMap shows).map (·.1)).Nodup := by
  refine List.pairwise_map.2 (List.pairwise_filterMap.2 ((List.pairwise_map.1 m.native.nodup_keys).imp ?_))
  intro a b hne x hx y hy
  rwa [key_of_shows hx, key_of_shows hy]

theorem nodup_entries (m : StompMessage) : (m.entries.map (·.1)).Nodup := by
  have hplain : ((m.headers.entries.filter fun e => !m.native.contains e.1).map (·.1)).Nodup :=
    (List.filter_sublist.map _).nodup m.headers.nodup_keys
  rw [entries, List.map_append]
  refine List.nodup_append.2 ⟨nodup_native, hplain, fun k hk j hj => ?_⟩
  obtain ⟨⟨_, v⟩, hv, rfl⟩ := List.mem_map.1 hk
  obtain ⟨⟨_, u⟩, hu, rfl⟩ := List.mem_map.1 hj
  rintro rfl
  -- A key with a native value is in the native map.
  have hnone := (mem_plain_iff.1 hu).2
  have hsome := mem_native_iff.1 hv
  rw [firstNative?, hnone] at hsome
  cases hsome

theorem get?_native_write (w : StompWrite) (k : String) :
    (m.write w).native.get? k =
      if w.key = k then some (w.natives ((m.native.get? k).getD [])) else m.native.get? k := by
  split
  · next h =>
    subst h
    cases w with
    | native j v => exact m.native.get?_insert_self j _
    | entry j v => exact m.native.get?_insert_self j _
  · next h =>
    cases w with
    | native j v => exact m.native.get?_insert_of_ne h _
    | entry j v => exact m.native.get?_insert_of_ne h _

theorem natives_ne_nil (w : StompWrite) (before : List String) : w.natives before ≠ [] := by
  cases w <;> simp [StompWrite.natives]

theorem hides_write_iff (w : StompWrite) (k : String) : (m.write w).Hides k ↔ m.Hides k ∧ w.key ≠ k := by
  rw [Hides, get?_native_write, Hides]
  split
  · next h => simp [h, natives_ne_nil]
  · next h => simp [h]

theorem hides_writeAll_iff (ws : List StompWrite) (k : String) :
    (m.writeAll ws).Hides k ↔ m.Hides k ∧ ∀ w ∈ ws, w.key ≠ k := by
  induction ws generalizing m with
  | nil => simp [writeAll]
  | cons w ws ih =>
    have hstep : m.writeAll (w :: ws) = (m.write w).writeAll ws := rfl
    rw [hstep, ih, hides_write_iff, List.forall_mem_cons, and_assoc]

/-- After any writes to a message with any content, each key is listed at most once, keys with native values
before the others; a key is listed with its first native value or else with its plain one, unless it is hidden;
and hidden keys are those that were hidden before and are not among the written ones. -/
theorem stomp_listing_complete (m : StompMessage) (ws : List StompWrite) :
    ∃ native plain, TextMap.entries (m.writeAll ws) = .ok (native ++ plain) ∧
      ((native ++ plain).map (·.1)).Nodup ∧
      (∀ e ∈ native, (m.writeAll ws).firstNative? e.1 = some e.2) ∧
      (∀ e ∈ plain, (m.writeAll ws).firstNative? e.1 = none) ∧
      (∀ k v, (k, v) ∈ native ++ plain ↔
        ((m.writeAll ws).firstNative? k).or ((m.writeAll ws).headers.get? k) = some v ∧ ¬(m.writeAll ws).Hides k) ∧
      ∀ k, (m.writeAll ws).Hides k ↔ m.Hides k ∧ ∀ w ∈ ws, w.key ≠ k := by
  refine ⟨_, _, rfl, nodup_entries _, fun e he => mem_native_iff.1 he, fun e he => ?_, fun k v => mem_entries_iff,
    hides_writeAll_iff ws⟩
  rw [firstNative?, (mem_plain_iff.1 he).2, Option.bind_none]

/-- A hidden key comes to light when it is written, and another one stays hidden. -/
theorem stomp_listing_complete_written :
    let m : StompMessage := ⟨.ofList [("a", "1"), ("b", "2"), ("c", "3")], .ofList [("a", []), ("b", [])]⟩
    let ws : List StompWrite := [.native "b" "x", .entry "d" "y", .native "d" "z"]
    ∃ es, TextMap.entries (m.writeAll ws) = .ok es ∧ ("b", "x") ∈ es ∧ ("c", "3") ∈ es ∧ ("d", "y") ∈ es ∧
      ∀ v, ("a", v) ∉ es := by
  intro m ws
  obtain ⟨native, plain, hes, -, -, -, hlisted, hhides⟩ := stomp_listing_complete m ws
  have hshown {k : String} (h : ¬m.Hides k ∨ ∃ w ∈ ws, w.key = k) : ¬(m.writeAll ws).Hides k := by
    rw [hhides]
    rintro ⟨hhidden, hunwritten⟩
    rcases h with h | ⟨w, hw, hk⟩
    · exact h hhidden
    · exact hunwritten w hw hk
  refine ⟨_, hes, (hlisted _ _).2 ⟨by decide, hshown (.inr (by decide))⟩, (hlisted _ _).2 ⟨by decide, hshown (.inl ?_)⟩,
    (hlisted _ _).2 ⟨by decide, hshown (.inr (by decide))⟩, fun v hv => ((hlisted _ _).1 hv).2 ?_⟩
  · exact fun h => nomatch (h : none = some [])
  · exact (hhides "a").2 ⟨rfl, by decide⟩

/-- A plain header that is there and is not listed. -/
theorem plain_header_hidden :
    let m : StompMessage := ⟨.ofList [("receipt", "r-1")], .ofList [("receipt", [])]⟩
    m.headers.get? "receipt" = some "r-1" ∧ m.firstNative? "receipt" = none ∧
      TextMap.entries (m.writeAll []) = .ok [] :=
  ⟨rfl, rfl, rfl⟩

end StompMessage

end SpanFlow
