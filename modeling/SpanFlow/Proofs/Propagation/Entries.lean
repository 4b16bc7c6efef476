import SpanFlow.Carrier.Basic
import SpanFlow.Proofs.KeyMap

namespace SpanFlow

variable {α C : Type}

def lowered (es : Entries) : Entries :=
  es.map fun e => (Ascii.lower e.1, e.2)

/-- No two keys are the same but for their case. -/
def Distinct (es : Entries) : Prop :=
  ((lowered es).map (·.1)).Nodup

/-- The first list has the entries of the second, in any order and with keys in any case. -/
def Lists (l es : Entries) : Prop :=
  (lowered l).Perm (lowered es)

theorem findEntry_eq (es : Entries) (key : String) :
    findEntry es key = ((lowered es).find? fun e => e.1 == Ascii.lower key).map (·.2) := by
  simp [findEntry, lowered, List.find?_map, Ascii.sameIgnoringCase, Function.comp_def]

theorem findEntry_append (a b : Entries) (key : String) :
    findEntry (a ++ b) key = (findEntry a key).or (findEntry b key) := by
  rw [findEntry, List.find?_append, Option.map_or]
  rfl

theorem mem_lowered {es : Entries} {e : String × String} (h : e ∈ es) : (Ascii.lower e.1, e.2) ∈ lowered es :=
  List.mem_map_of_mem h

theorem lowered_lowered (es : Entries) : lowered (lowered es) = lowered es := by
  simp [lowered]

theorem Distinct.nodup {es : Entries} (h : Distinct es) : (es.map (·.1)).Nodup := by
  rw [Distinct, lowered, List.map_map] at h
  refine List.pairwise_map.2 ((List.pairwise_map.1 h).imp fun hne heq => hne ?_)
  simp [heq]

theorem distinct_append {a b : Entries} (ha : Distinct a) (hb : Distinct b)
    (hab : ∀ x ∈ a, ∀ y ∈ b, Ascii.lower x.1 ≠ Ascii.lower y.1) : Distinct (a ++ b) := by
  rw [Distinct, lowered, List.map_append, List.map_append]
  refine List.nodup_append.2 ⟨ha, hb, fun k hk j hj => ?_⟩
  simp only [List.map_map, List.mem_map, Function.comp_apply] at hk hj
  obtain ⟨x, hx, rfl⟩ := hk
  obtain ⟨y, hy, rfl⟩ := hj
  exact hab x hx y hy

theorem Distinct.exists_split {es : Entries} (h : Distinct es) {e : String × String} (he : e ∈ es) :
    ∃ a b, es = a ++ e :: b ∧ ∀ x ∈ a ++ b, Ascii.lower x.1 ≠ Ascii.lower e.1 := by
  obtain ⟨a, b, rfl⟩ := List.append_of_mem he
  have hperm : (a ++ e :: b).Perm (e :: (a ++ b)) := List.perm_middle
  have hnd : Distinct (e :: (a ++ b)) := ((hperm.map _).map _).nodup_iff.1 h
  rw [Distinct, lowered, List.map_cons, List.map_cons, List.nodup_cons, List.map_map] at hnd
  exact ⟨a, b, rfl, fun x hx heq => hnd.1 (List.mem_map.2 ⟨x, hx, heq⟩)⟩

namespace Lists

theorem of_perm {l es : Entries} (h : l.Perm es) : Lists l es :=
  h.map _

theorem findEntry_of_mem {l es : Entries} (h : Lists l es) (hd : Distinct es) {e : String × String} (he : e ∈ es)
    {key : String} (hk : Ascii.lower e.1 = Ascii.lower key) : findEntry l key = some e.2 := by
  have hnd : ((lowered l).map (·.1)).Nodup := (List.Perm.map _ h).nodup_iff.2 hd
  rw [findEntry_eq, find?_key_iff hnd, List.Perm.mem_iff h, ← hk]
  exact mem_lowered he

theorem findEntry_of_not_mem {l es : Entries} (h : Lists l es) {key : String}
    (hk : ∀ e ∈ es, Ascii.lower e.1 ≠ Ascii.lower key) : findEntry l key = none := by
  rw [findEntry_eq, Option.map_eq_none_iff, List.find?_eq_none]
  intro x hx
  obtain ⟨e, he, rfl⟩ := List.mem_map.1 (List.Perm.mem_iff h |>.1 hx)
  simpa using hk e he

end Lists

theorem putAll_append [TextMap C] (a b : Entries) (m : C) :
    putAll (a ++ b) m = match putAll a m with
      | .ok () m' => putAll b m'
      | .error e m' => .error e m' := by
  induction a generalizing m with
  | nil => rfl
  | cons e a ih =>
    simp only [List.cons_append, putAll, bind, EStateM.bind]
    cases TextMap.put e.1 e.2 m with
    | ok u m' => exact ih m'
    | error x m' => rfl

theorem putAll_append_of_ok [TextMap C] {a b : Entries} {m m' : C} (h : putAll (a ++ b) m = .ok () m') :
    ∃ x, putAll a m = .ok () x ∧ putAll b x = .ok () m' := by
  rw [putAll_append] at h
  cases ha : putAll a m with
  | ok u x =>
    rw [ha] at h
    exact ⟨x, rfl, h⟩
  | error e x =>
    rw [ha] at h
    exact nomatch h

theorem putAll_cons_of_ok [TextMap C] {e : String × String} {es : Entries} {m m' : C}
    (h : putAll (e :: es) m = .ok () m') : ∃ x, TextMap.put e.1 e.2 m = .ok () x ∧ putAll es x = .ok () m' := by
  simp only [putAll, bind, EStateM.bind] at h
  cases he : TextMap.put e.1 e.2 m with
  | ok u x =>
    rw [he] at h
    exact ⟨x, rfl, h⟩
  | error x y =>
    rw [he] at h
    cases h

/-- A row that is refused is refused at one of its entries, after those before it were taken. -/
theorem split_of_putAll_error [TextMap C] {es : Entries} {m m' : C} {err : CarrierError}
    (h : putAll es m = .error err m') : ∃ before x after mid, es = before ++ x :: after ∧
      putAll before m = .ok () mid ∧ TextMap.put x.1 x.2 mid = .error err m' := by
  induction es generalizing m with
  | nil => exact nomatch h
  | cons x es ih =>
    simp only [putAll, bind, EStateM.bind] at h
    cases hx : TextMap.put x.1 x.2 m with
    | error e n =>
      rw [hx] at h
      cases h
      exact ⟨[], x, es, m, rfl, rfl, hx⟩
    | ok u n =>
      rw [hx] at h
      obtain ⟨before, y, after, mid, rfl, hbefore, hy⟩ := ih h
      refine ⟨x :: before, y, after, mid, rfl, ?_, hy⟩
      simp only [putAll, bind, EStateM.bind, hx, hbefore]

theorem putAll_error_of_split [TextMap C] {before after : Entries} {x : String × String} {m mid m' : C}
    {err : CarrierError} (hbefore : putAll before m = .ok () mid) (hx : TextMap.put x.1 x.2 mid = .error err m') :
    putAll (before ++ x :: after) m = .error err m' := by
  rw [putAll_append, hbefore]
  simp only [putAll, bind, EStateM.bind, hx]

end SpanFlow
