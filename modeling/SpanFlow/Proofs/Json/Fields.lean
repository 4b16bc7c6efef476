import SpanFlow.Json.Fields
import SpanFlow.Proofs.Json.Document
import Mathlib.Data.List.Forall2
import Mathlib.Data.List.Nodup

namespace SpanFlow.Json

variable {α β : Type}

section Known

variable {names : List String} {fields : Fields}

theorem collect_of_nodup {found : Fields} (hknown : ∀ e ∈ fields, e.1 ∈ names)
    (hnodup : ((found ++ fields).map (·.1)).Nodup) :
    collect names found (fields.map fun e => (some e.1, e.2)) = some (found ++ fields) := by
  induction fields generalizing found with
  | nil => rw [List.append_nil]; rfl
  | cons e fields ih =>
    have hnew : ¬(found.lookup e.1).isSome := by
      rw [List.lookup_isSome_iff]
      rintro ⟨x, hx, heq⟩
      rw [List.map_append, List.map_cons] at hnodup
      refine List.disjoint_of_nodup_append hnodup ?_ List.mem_cons_self
      exact eq_of_beq heq ▸ List.mem_map_of_mem hx
    have hassoc : found ++ e :: fields = found ++ [e] ++ fields := List.append_cons found e fields
    rw [hassoc] at hnodup ⊢
    rw [List.map_cons, collect, if_pos (List.contains_iff_mem.2 (hknown e List.mem_cons_self)), if_neg hnew]
    exact ih (fun x hx => hknown x (List.mem_cons_of_mem _ hx)) hnodup

theorem fields?_obj (hnodup : names.Nodup) {mayStop : Bool} (hnames : fields.map (·.1) = names) :
    fields? names mayStop (obj fields) = some fields := by
  subst hnames
  exact @collect_of_nodup _ fields [] (fun e he => List.mem_map_of_mem he) hnodup

theorem Fields.optional_ofOption {read : Json → Option α} {f : α → Json} {o : Option α} {name : String}
    (hlookup : fields.lookup name = some (ofOption f o)) (hnull : ∀ a, f a ≠ .null) (hread : ∀ a, read (f a) = some a) :
    fields.optional name read = some o := by
  rw [optional, hlookup]
  cases o with
  | none => rfl
  | some a =>
    rw [ofOption]
    split
    · next h => cases h
    · next h => exact absurd (Option.some.inj h) (hnull a)
    · next h => rw [← Option.some.inj h, hread, Option.map_some]

end Known

section Parts

variable {read : Json → Option β} {R : α → β → Prop}

@[simp] theorem word?_ofNat {width : Nat} (v : BitVec width) : word? width (ofNat v.toNat) = some v := by
  have hbelow : (Numeral.ofInt v.toNat).below? (Nat.pow 2 width) = some v.toNat := Numeral.below?_ofInt v.isLt
  rw [ofNat, word?, hbelow]
  simp

/-- What a reader makes of every part of a list is, part by part, like what was written. -/
theorem list?_map {f : α → Json} {l : List α} (h : ∀ a ∈ l, ∃ b, read (f a) = some b ∧ R a b) :
    ∃ l', list? read (.list (l.map f)) = some l' ∧ l.Forall₂ R l' := by
  rw [list?]
  induction l with
  | nil => exact ⟨[], rfl, .nil⟩
  | cons a l ih =>
    obtain ⟨b, hb, hR⟩ := h a List.mem_cons_self
    obtain ⟨l', hl', hRs⟩ := ih fun x hx => h x (List.mem_cons_of_mem _ hx)
    exact ⟨b :: l', by rw [List.map_cons, List.mapM_cons, hb, hl']; rfl, .cons hR hRs⟩

theorem entries?_obj {f : α → Json} {l : List (String × α)} (h : ∀ e ∈ l, ∃ b, read (f e.2) = some b ∧ R e.2 b) :
    ∃ l', entries? read (obj (l.map fun e => (e.1, f e.2))) = some l' ∧
      l.Forall₂ (fun e e' => e.1 = e'.1 ∧ R e.2 e'.2) l' := by
  rw [obj, entries?]
  induction l with
  | nil => exact ⟨[], rfl, .nil⟩
  | cons e l ih =>
    obtain ⟨b, hb, hR⟩ := h e List.mem_cons_self
    obtain ⟨l', hl', hRs⟩ := ih fun x hx => h x (List.mem_cons_of_mem _ hx)
    refine ⟨(e.1, b) :: l', ?_, .cons ⟨rfl, hR⟩ hRs⟩
    simp only [List.map_cons, List.mapM_cons, hl', hb]
    rfl

theorem list?_map_eq {f : β → Json} {l : List β} (h : ∀ b ∈ l, read (f b) = some b) :
    list? read (.list (l.map f)) = some l := by
  obtain ⟨l', hread, hsame⟩ := list?_map (R := (· = ·)) fun b hb => ⟨b, h b hb, rfl⟩
  cases List.forall₂_eq_eq_eq ▸ hsame
  exact hread

theorem entries?_obj_eq {f : β → Json} {l : List (String × β)} (h : ∀ e ∈ l, read (f e.2) = some e.2) :
    entries? read (obj (l.map fun e => (e.1, f e.2))) = some l := by
  obtain ⟨l', hread, hsame⟩ := entries?_obj (R := (· = ·)) fun e he => ⟨e.2, h e he, rfl⟩
  have heq : l.Forall₂ (· = ·) l' := hsame.imp fun _ _ h => Prod.ext h.1 h.2
  cases List.forall₂_eq_eq_eq ▸ heq
  exact hread

theorem Proper.ofInt (i : Int) : (ofInt i).Proper :=
  .number (Numeral.proper_ofInt i)

theorem Proper.ofNat (n : Nat) : (ofNat n).Proper :=
  .number (Numeral.proper_ofInt n)

theorem Proper.obj {fields : Fields} (h : ∀ e ∈ fields, e.2.Proper) : (obj fields).Proper := by
  refine .record (fun e he => ?_) fun e he => ?_
  · obtain ⟨x, _, rfl⟩ := List.mem_map.1 he
    rfl
  · obtain ⟨x, hx, rfl⟩ := List.mem_map.1 he
    exact h x hx

theorem Proper.list_map {f : α → Json} {l : List α} (h : ∀ a ∈ l, (f a).Proper) : (Json.list (l.map f)).Proper := by
  refine .list fun j hj => ?_
  obtain ⟨a, ha, rfl⟩ := List.mem_map.1 hj
  exact h a ha

end Parts

end SpanFlow.Json
