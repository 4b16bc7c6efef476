import SpanFlow.Context

namespace SpanFlow

variable {α : Type}

theorem perm_insertSorted {k : String} {v : α} {l : List (String × α)} (h : ∀ e ∈ l, e.1 ≠ k) :
    (insertSorted k v l).Perm ((k, v) :: l) := by
  induction l with
  | nil => exact .refl _
  | cons e l ih =>
    simp only [insertSorted]
    split
    · exact .refl _
    · rw [if_neg (h e (by simp))]
      exact ((ih fun x hx => h x (by simp [hx])).cons e).trans (.swap _ _ _)

theorem find?_key_iff {l : List (String × α)} (hnd : (l.map (·.1)).Nodup) {k : String} {v : α} :
    (l.find? fun e => e.1 == k).map (·.2) = some v ↔ (k, v) ∈ l := by
  induction l with
  | nil => simp
  | cons e l ih =>
    obtain ⟨j, u⟩ := e
    rw [List.map_cons, List.nodup_cons] at hnd
    by_cases hj : j = k
    · subst hj
      have hout : (j, v) ∉ l := fun h => hnd.1 (List.mem_map.2 ⟨(j, v), h, rfl⟩)
      simp [hout, eq_comm]
    · have hne : ¬(k, v) = (j, u) := fun h => hj (by cases h; rfl)
      rw [List.find?_cons_of_neg (by simpa using hj), ih hnd.2, List.mem_cons]
      simp [hne]

theorem filter_key_eq {l : List (String × α)} (hnd : (l.map (·.1)).Nodup) {e : String × α} (he : e ∈ l) :
    l.filter (fun x => x.1 == e.1) = [e] := by
  induction l with
  | nil => exact nomatch he
  | cons a l ih =>
    rw [List.map_cons, List.nodup_cons] at hnd
    rcases List.mem_cons.1 he with rfl | he
    · have hnone : l.filter (fun x => x.1 == e.1) = [] :=
        List.filter_eq_nil_iff.2 fun x hx heq => hnd.1 (List.mem_map.2 ⟨x, hx, by simpa using heq⟩)
      rw [List.filter_cons_of_pos (by simp), hnone]
    · have hne : a.1 ≠ e.1 := fun heq => hnd.1 (heq ▸ List.mem_map_of_mem he)
      rw [List.filter_cons_of_neg (by simpa using hne), ih hnd.2 he]

theorem insertSorted_of_lt {k : String} {v : α} {l : List (String × α)} (h : ∀ e ∈ l, e.1 < k) :
    insertSorted k v l = l ++ [(k, v)] := by
  induction l with
  | nil => rfl
  | cons e l ih =>
    have hlt := h e List.mem_cons_self
    have hne : e.1 ≠ k := fun heq => String.lt_irrefl k (heq ▸ hlt)
    rw [insertSorted, if_neg (fun hgt => String.lt_irrefl k (String.lt_trans hgt hlt)), if_neg hne,
      ih fun x hx => h x (List.mem_cons_of_mem _ hx), List.cons_append]

namespace KeyMap

theorem entries_ofList {l : List (String × α)} (h : l.Pairwise fun a b => a.1 < b.1) : (ofList l).entries = l := by
  have hfold (m : KeyMap α) {l : List (String × α)} (h : (m.entries ++ l).Pairwise fun a b => a.1 < b.1) :
      (l.foldl (fun m e => m.insert e.1 e.2) m).entries = m.entries ++ l := by
    induction l generalizing m with
    | nil => rw [List.append_nil]; rfl
    | cons e l ih =>
      have hlt : ∀ x ∈ m.entries, x.1 < e.1 := fun x hx => (List.pairwise_append.1 h).2.2 x hx e List.mem_cons_self
      have hinsert : (m.insert e.1 e.2).entries = m.entries ++ [e] := insertSorted_of_lt hlt
      rw [List.append_cons, ← hinsert] at h ⊢
      exact ih _ h
  exact hfold empty h

theorem nodup_keys (m : KeyMap α) : (m.entries.map (·.1)).Nodup := by
  refine List.pairwise_map.2 (m.sorted.imp fun {a b} h heq => ?_)
  rw [heq] at h
  exact String.lt_irrefl _ h

theorem nodup_entries (m : KeyMap α) : m.entries.Nodup :=
  List.Pairwise.of_map Prod.fst (fun _ _ hne heq => hne (congrArg Prod.fst heq)) m.nodup_keys

theorem perm_insert (m : KeyMap α) {k : String} (v : α) (h : ∀ e ∈ m.entries, e.1 ≠ k) :
    (m.insert k v).entries.Perm ((k, v) :: m.entries) :=
  perm_insertSorted h

/-- Two maps with the same entries in some order are the same. -/
theorem eq_of_perm {m n : KeyMap α} (h : m.entries.Perm n.entries) : m = n := by
  refine ext (h.eq_of_pairwise (fun a b _ _ hab hba => ?_) m.sorted n.sorted)
  exact absurd (String.lt_trans hab hba) (String.lt_irrefl _)

theorem get?_eq_some_iff {m : KeyMap α} {k : String} {v : α} : m.get? k = some v ↔ (k, v) ∈ m.entries :=
  find?_key_iff m.nodup_keys

theorem filter_key (m : KeyMap α) (k : String) :
    m.entries.filter (fun x => x.1 == k) = (m.get? k).toList.map fun a => (k, a) := by
  cases hk : m.get? k with
  | none =>
    refine List.filter_eq_nil_iff.2 fun x hx heq => ?_
    have hfound : m.get? x.1 = some x.2 := get?_eq_some_iff.2 hx
    rw [beq_iff_eq.1 heq, hk] at hfound
    cases hfound
  | some a => exact filter_key_eq m.nodup_keys (get?_eq_some_iff.1 hk)

theorem eq_of_get? {m n : KeyMap α} (h : ∀ k v, m.get? k = some v ↔ n.get? k = some v) : m = n := by
  refine eq_of_perm ((List.perm_ext_iff_of_nodup m.nodup_entries n.nodup_entries).2 fun e => ?_)
  rw [← get?_eq_some_iff, h, get?_eq_some_iff]

theorem contains_eq (m : KeyMap α) (k : String) : m.contains k = (m.get? k).isSome := by
  rw [contains, get?, Option.isSome_map, Bool.eq_iff_iff, List.any_eq_true, List.find?_isSome]

theorem contains_insert (m : KeyMap α) (k j : String) (v : α) : (m.insert k v).contains j = (k == j || m.contains j) := by
  rw [contains_eq, contains_eq]
  by_cases h : k = j
  · subst h
    simp
  · rw [m.get?_insert_of_ne h, beq_eq_false_iff_ne.2 h, Bool.false_or]

@[simp] theorem entries_erase (m : KeyMap α) (k : String) :
    (m.erase k).entries = m.entries.filter fun e => e.1 != k := rfl

def Lowered (m : KeyMap α) : Prop :=
  ∀ e ∈ m.entries, Ascii.lower e.1 = e.1

theorem lowered_empty : (empty : KeyMap α).Lowered := fun _ h => nomatch h

theorem lowered_insert {m : KeyMap α} (h : m.Lowered) (k : String) (v : α) : (m.insert (Ascii.lower k) v).Lowered := by
  intro e he
  rcases mem_insertSorted he with rfl | he
  · exact Ascii.lower_lower k
  · exact h e he

theorem lowered_erase {m : KeyMap α} (h : m.Lowered) (k : String) : (m.erase k).Lowered :=
  fun e he => h e (List.mem_filter.1 he).1

end KeyMap

namespace Context

/-- What is left of a context where an item under the empty key cannot be told. -/
def carried (c : Context) : Context :=
  { c with baggage := c.baggage.erase "" }

theorem lowered_withBaggage {c : Context} (h : c.baggage.Lowered) (items : List (String × String)) :
    (c.withBaggage items).baggage.Lowered := by
  induction items generalizing c with
  | nil => exact h
  | cons item items ih => exact ih (KeyMap.lowered_insert h item.1 item.2)

theorem lowered_new (trace : TraceId) (span : SpanId) (sampled : Bool) (items : List (String × String)) :
    ((new trace span sampled).withBaggage items).baggage.Lowered :=
  lowered_withBaggage KeyMap.lowered_empty items

theorem perm_withBaggage (c : Context) {items : List (String × String)} (hl : ∀ e ∈ items, Ascii.lower e.1 = e.1)
    (hnd : ((items ++ c.baggage.entries).map (·.1)).Nodup) :
    (c.withBaggage items).baggage.entries.Perm (items ++ c.baggage.entries) := by
  induction items generalizing c with
  | nil => exact .refl _
  | cons e items ih =>
    have hnew : ∀ x ∈ items ++ c.baggage.entries, x.1 ≠ e.1 := by
      intro x hx heq
      rw [List.cons_append, List.map_cons, List.nodup_cons] at hnd
      exact hnd.1 (heq ▸ List.mem_map_of_mem hx)
    have hinsert : (c.withItem e.1 e.2).baggage.entries.Perm (e :: c.baggage.entries) := by
      rw [withItem, hl e (by simp)]
      exact c.baggage.perm_insert e.2 fun x hx => hnew x (by simp [hx])
    have hmove : (items ++ (c.withItem e.1 e.2).baggage.entries).Perm (e :: (items ++ c.baggage.entries)) :=
      (hinsert.append_left items).trans List.perm_middle
    refine (ih _ (fun x hx => hl x (by simp [hx])) ?_).trans hmove
    exact (hmove.map _).nodup_iff.2 hnd

/-- Baggage is built back from its items, in whatever order they come. -/
theorem withBaggage_of_perm {m : KeyMap String} (hm : m.Lowered) {items : List (String × String)}
    (h : items.Perm m.entries) (trace : TraceId) (span : SpanId) (sampled : Bool) :
    (new trace span sampled).withBaggage items = ⟨trace, span, sampled, m⟩ := by
  have hnd : ((items ++ (new trace span sampled).baggage.entries).map (·.1)).Nodup := by
    rw [new, KeyMap.entries_empty, List.append_nil]
    exact (h.map _).nodup_iff.2 m.nodup_keys
  have hperm := perm_withBaggage (new trace span sampled) (fun e he => hm e (h.mem_iff.1 he)) hnd
  rw [new, KeyMap.entries_empty, List.append_nil] at hperm
  have hbaggage : ((new trace span sampled).withBaggage items).baggage = m := KeyMap.eq_of_perm (hperm.trans h)
  have htrace := trace_withBaggage (new trace span sampled) items
  have hspan := span_withBaggage (new trace span sampled) items
  have hsampled := sampled_withBaggage (new trace span sampled) items
  generalize (new trace span sampled).withBaggage items = c at *
  obtain ⟨t, s, b, n⟩ := c
  cases htrace
  cases hspan
  cases hsampled
  cases hbaggage
  rfl

end Context

end SpanFlow
