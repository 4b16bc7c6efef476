/-!
Maps from text keys, kept in the order of their keys. Two maps are equal as soon as they list the
same entries. Main statements: what `insert` makes of `get?`, and extensionality.
-/

namespace SpanFlow

variable {α β : Type}

def insertSorted (k : String) (v : α) : List (String × α) → List (String × α)
  | [] => [(k, v)]
  | e :: r => if k < e.1 then (k, v) :: e :: r else if e.1 = k then (k, v) :: r else e :: insertSorted k v r

theorem mem_insertSorted {k : String} {v : α} {e : String × α} {l : List (String × α)}
    (h : e ∈ insertSorted k v l) : e = (k, v) ∨ e ∈ l := by
  induction l with
  | nil => simpa [insertSorted] using h
  | cons a r ih =>
    simp only [insertSorted] at h
    split at h
    · simp_all
    · split at h
      · simp_all only [List.mem_cons]
        rcases h with h | h
        · exact Or.inl h
        · exact Or.inr (Or.inr h)
      · simp only [List.mem_cons] at h ⊢
        rcases h with h | h
        · exact Or.inr (Or.inl h)
        · rcases ih h with h | h
          · exact Or.inl h
          · exact Or.inr (Or.inr h)

theorem lt_of_not_lt_of_ne {a b : String} (h : ¬a < b) (hne : b ≠ a) : b < a := by
  rcases Decidable.em (b < a) with hb | hb
  · exact hb
  · exact absurd (String.le_antisymm (String.not_lt.1 h) (String.not_lt.1 hb)) hne

theorem pairwise_insertSorted {k : String} {v : α} {l : List (String × α)}
    (h : l.Pairwise (fun a b => a.1 < b.1)) :
    (insertSorted k v l).Pairwise (fun a b => a.1 < b.1) := by
  induction l with
  | nil => simp [insertSorted]
  | cons e r ih =>
    rw [List.pairwise_cons] at h
    simp only [insertSorted]
    split
    · next hlt =>
      refine List.pairwise_cons.2 ⟨fun x hx => ?_, List.pairwise_cons.2 h⟩
      rcases List.mem_cons.1 hx with rfl | hx
      · exact hlt
      · exact String.lt_trans hlt (h.1 x hx)
    · next hlt =>
      split
      · next heq =>
        subst heq
        exact List.pairwise_cons.2 ⟨fun x hx => h.1 x hx, h.2⟩
      · next hne =>
        refine List.pairwise_cons.2 ⟨fun x hx => ?_, ih h.2⟩
        rcases mem_insertSorted hx with rfl | hx
        · exact lt_of_not_lt_of_ne hlt hne
        · exact h.1 x hx

/-- A map from text keys; its entries stand in the order of their keys, each key once. -/
structure KeyMap (α : Type) where
  entries : List (String × α)
  sorted : entries.Pairwise (fun a b => a.1 < b.1)
  deriving DecidableEq

namespace KeyMap

@[ext] theorem ext {m n : KeyMap α} (h : m.entries = n.entries) : m = n := by
  cases m; cases n; cases h; rfl

def empty : KeyMap α := ⟨[], List.Pairwise.nil⟩

instance : Inhabited (KeyMap α) := ⟨empty⟩

def insert (m : KeyMap α) (k : String) (v : α) : KeyMap α :=
  ⟨insertSorted k v m.entries, pairwise_insertSorted m.sorted⟩

def get? (m : KeyMap α) (k : String) : Option α :=
  (m.entries.find? fun e => e.1 == k).map (·.2)

def erase (m : KeyMap α) (k : String) : KeyMap α :=
  ⟨m.entries.filter fun e => e.1 != k, m.sorted.filter _⟩

def contains (m : KeyMap α) (k : String) : Bool :=
  m.entries.any fun e => e.1 == k

def ofList (l : List (String × α)) : KeyMap α :=
  l.foldl (fun m e => m.insert e.1 e.2) empty

def keys (m : KeyMap α) : List String :=
  m.entries.map (·.1)

def map (f : α → β) (m : KeyMap α) : KeyMap β :=
  ⟨m.entries.map fun e => (e.1, f e.2), by
    rw [List.pairwise_map]; exact m.sorted⟩

def isEmpty (m : KeyMap α) : Bool :=
  m.entries.isEmpty

@[simp] theorem entries_empty : (empty : KeyMap α).entries = [] := rfl

@[simp] theorem entries_insert (m : KeyMap α) (k : String) (v : α) :
    (m.insert k v).entries = insertSorted k v m.entries := rfl

theorem find?_insertSorted_self (k : String) (v : α) (l : List (String × α)) :
    (insertSorted k v l).find? (fun e => e.1 == k) = some (k, v) := by
  induction l with
  | nil => simp [insertSorted]
  | cons e r ih =>
    simp only [insertSorted]
    split
    · simp
    · split
      · simp
      · next hne => simp [hne, ih]

theorem find?_insertSorted_ne {k j : String} (h : k ≠ j) (v : α) (l : List (String × α)) :
    (insertSorted k v l).find? (fun e => e.1 == j) = l.find? (fun e => e.1 == j) := by
  induction l with
  | nil => simp [insertSorted, h]
  | cons e r ih =>
    simp only [insertSorted]
    split
    · simp [h]
    · split
      · next heq => simp [heq, h]
      · simp [List.find?_cons, ih]

@[simp] theorem get?_insert_self (m : KeyMap α) (k : String) (v : α) : (m.insert k v).get? k = some v := by
  simp [get?, find?_insertSorted_self]

theorem get?_insert_of_ne (m : KeyMap α) {k j : String} (h : k ≠ j) (v : α) :
    (m.insert k v).get? j = m.get? j := by
  simp [get?, find?_insertSorted_ne h]

@[simp] theorem get?_empty (k : String) : (empty : KeyMap α).get? k = none := rfl

end KeyMap

end SpanFlow
