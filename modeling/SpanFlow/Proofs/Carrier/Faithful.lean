import SpanFlow.Carrier.Amqp
import SpanFlow.Carrier.Stomp
import SpanFlow.Proofs.Carrier.JmsKey
import SpanFlow.Proofs.KeyMap

namespace SpanFlow

variable {α β C : Type}

structure Unordered (order : KeyMap String → Entries) where
  content : KeyMap String

instance (order : KeyMap String → Entries) : TextMap (Unordered order) where
  name _ := "map"
  entries m := .ok (order m.content)
  put k v := fun m => .ok () ⟨m.content.insert k v⟩

/-- Takes all entries with distinct keys of some sort, and then lists exactly these. -/
def Faithful [TextMap C] (m : C) (sort : String → Prop) : Prop :=
  ∀ es : Entries, (es.map (·.1)).Nodup → (∀ e ∈ es, sort e.1) →
    ∃ m' l, putAll es m = .ok () m' ∧ TextMap.entries m' = .ok l ∧ l.Perm es

/-- What one `put` under a new name preserves, a row of them preserves. -/
theorem putAll_of_step [TextMap C] (sort : String × String → Prop) (name : String → String) (Holds : C → Entries → Prop)
    (hput : ∀ m acc k v, Holds m acc → (∀ e ∈ acc, name e.1 ≠ name k) → sort (k, v) →
      ∃ m', TextMap.put k v m = .ok () m' ∧ Holds m' ((k, v) :: acc))
    {es acc : Entries} {m : C} (h : Holds m acc) (hnd : ((es ++ acc).map fun e => name e.1).Nodup)
    (hsort : ∀ e ∈ es, sort e) : ∃ m', putAll es m = .ok () m' ∧ Holds m' (es.reverse ++ acc) := by
  induction es generalizing m acc with
  | nil => exact ⟨m, rfl, h⟩
  | cons e es ih =>
    rw [List.cons_append, List.map_cons, List.nodup_cons] at hnd
    have hnew : ∀ x ∈ acc, name x.1 ≠ name e.1 :=
      fun x hx heq => hnd.1 (List.mem_map.2 ⟨x, by simp [hx], heq⟩)
    obtain ⟨m', hm', hholds⟩ := hput m acc e.1 e.2 h hnew (hsort e (by simp))
    have hperm : (es ++ e :: acc).Perm (e :: (es ++ acc)) := List.perm_middle
    have hnd' : ((es ++ e :: acc).map fun e => name e.1).Nodup :=
      (hperm.map _).nodup_iff.2 (List.nodup_cons.2 hnd)
    obtain ⟨m'', hm'', hlast⟩ := ih hholds hnd' fun x hx => hsort x (by simp [hx])
    refine ⟨m'', ?_, by simpa using hlast⟩
    simp only [putAll, bind, EStateM.bind, hm']
    exact hm''

theorem Faithful.of_step [TextMap C] {sort : String → Prop} (Holds : C → Entries → Prop)
    (hput : ∀ m acc k v, Holds m acc → (∀ e ∈ acc, e.1 ≠ k) → sort k →
      ∃ m', TextMap.put k v m = .ok () m' ∧ Holds m' ((k, v) :: acc))
    (hlist : ∀ m acc, Holds m acc → ∃ l, TextMap.entries m = .ok l ∧ l.Perm acc) {m : C} (h : Holds m []) :
    Faithful m sort := by
  intro es hnd hsort
  obtain ⟨m', hm', hholds⟩ := putAll_of_step (fun e => sort e.1) id Holds hput h (by simpa using hnd) hsort
  obtain ⟨l, hl, hperm⟩ := hlist _ _ hholds
  rw [List.append_nil] at hperm
  exact ⟨m', l, hm', hl, hperm.trans (List.reverse_perm es)⟩

theorem KeyMap.perm_insert_of_perm {m : KeyMap α} {acc : List β} {f : β → String × α} (h : m.entries.Perm (acc.map f))
    {k : String} (hk : ∀ e ∈ acc, (f e).1 ≠ k) (v : α) : (m.insert k v).entries.Perm ((k, v) :: acc.map f) := by
  refine (m.perm_insert v fun e he => ?_).trans (h.cons _)
  obtain ⟨x, hx, rfl⟩ := List.mem_map.1 (h.mem_iff.1 he)
  exact hk x hx

theorem faithful_map : Faithful (KeyMap.empty : KeyMap String) fun _ => True := by
  refine .of_step (fun m acc => m.entries.Perm acc) (fun m acc k v h hk _ => ?_) (fun m acc h => ?_) (.refl _)
  · exact ⟨m.insert k v, rfl, (m.perm_insert v fun e he => hk e (h.mem_iff.1 he)).trans (h.cons _)⟩
  · exact ⟨m.entries, rfl, h⟩

theorem faithful_unordered {order : KeyMap String → Entries} (horder : ∀ m, (order m).Perm m.entries) :
    Faithful (⟨.empty⟩ : Unordered order) fun _ => True := by
  refine .of_step (fun m acc => m.content.entries.Perm acc) (fun m acc k v h hk _ => ?_) (fun m acc h => ?_)
    (.refl _)
  · exact ⟨⟨m.content.insert k v⟩, rfl, (m.content.perm_insert v fun e he => hk e (h.mem_iff.1 he)).trans (h.cons _)⟩
  · exact ⟨order m.content, rfl, (horder m.content).trans h⟩

theorem faithful_amqp {m : AmqpMessage} (hm : m.headers = .empty) : Faithful m fun _ => True := by
  refine .of_step (fun m acc => m.headers.entries.Perm (acc.map fun e => (e.1, .text e.2)))
    (fun m acc k v h hk _ => ?_) (fun m acc h => ?_) (by rw [hm]; exact .refl _)
  · exact ⟨{ m with headers := m.headers.insert k (.text v) }, rfl, KeyMap.perm_insert_of_perm h hk _⟩
  · refine ⟨_, rfl, (h.filterMap _).trans ?_⟩
    rw [List.filterMap_map]
    exact .of_eq (List.filterMap_some)

theorem faithful_stomp : Faithful (⟨.empty, .empty⟩ : StompMessage) fun _ => True := by
  refine .of_step (fun m acc =>
      m.headers.entries.Perm acc ∧ m.native.entries.Perm (acc.map fun e => (e.1, [e.2])))
    (fun m acc k v h hk _ => ?_) (fun m acc h => ?_) ⟨.refl _, .refl _⟩
  · have hplain := (m.headers.perm_insert v fun e he => hk e (h.1.mem_iff.1 he)).trans (h.1.cons _)
    exact ⟨m.put k v, rfl, hplain, KeyMap.perm_insert_of_perm h.2 hk _⟩
  · obtain ⟨hplain, hnative⟩ := h
    have hfirst : (m.native.entries.filterMap fun e => e.2.head?.map fun v => (e.1, v)).Perm acc := by
      refine (hnative.filterMap _).trans ?_
      rw [List.filterMap_map]
      exact .of_eq (List.filterMap_some)
    -- Every plain header has a native key, so the plain headers add nothing.
    have hnone : (m.headers.entries.filter fun e => !m.native.contains e.1) = [] := by
      refine List.filter_eq_nil_iff.2 fun e he => ?_
      have hin : (e.1, [e.2]) ∈ m.native.entries :=
        hnative.mem_iff.2 (List.mem_map.2 ⟨e, hplain.mem_iff.1 he, rfl⟩)
      have hcontains : m.native.contains e.1 = true := List.any_eq_true.2 ⟨_, hin, by simp⟩
      rw [hcontains]
      decide
    refine ⟨_, rfl, ?_⟩
    change ((m.native.entries.filterMap fun e => e.2.head?.map fun v => (e.1, v)) ++
      m.headers.entries.filter fun e => !m.native.contains e.1).Perm acc
    rw [hnone, List.append_nil]
    exact hfirst

theorem faithful_jms {m : JmsMessage} (hm : m.properties = .empty) (hwritable : m.readOnly = false) :
    Faithful m JmsKey.Clear := by
  refine .of_step (fun m acc => m.readOnly = false ∧ (∀ e ∈ acc, JmsKey.Clear e.1) ∧
      m.properties.entries.Perm (acc.map fun e => (JmsKey.encode e.1, e.2)))
    (fun m acc k v h hk hclear => ?_) (fun m acc h => ?_)
    ⟨hwritable, by simp, by rw [hm]; exact .refl _⟩
  · obtain ⟨hw, hall, hperm⟩ := h
    refine ⟨{ m with properties := m.properties.insert (JmsKey.encode k) v }, ?_, hw, fun e he => ?_, ?_⟩
    · simp [TextMap.put, hw]
    · rcases List.mem_cons.1 he with rfl | he
      · exact hclear
      · exact hall e he
    · refine KeyMap.perm_insert_of_perm hperm (fun e he heq => hk e he ?_) v
      rw [← JmsKey.decode_encode (hall e he), ← JmsKey.decode_encode hclear]
      exact congrArg JmsKey.decode heq
  · obtain ⟨-, hall, hperm⟩ := h
    refine ⟨_, rfl, (hperm.map _).trans (.of_eq ?_)⟩
    rw [List.map_map]
    refine (List.map_congr_left fun e he => ?_).trans (List.map_id acc)
    change (JmsKey.decode (JmsKey.encode e.1), e.2) = e
    rw [JmsKey.decode_encode (hall e he)]

end SpanFlow
