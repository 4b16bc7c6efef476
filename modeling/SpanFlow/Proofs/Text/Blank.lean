import Mathlib.Data.List.DropRight
import SpanFlow.Text.Blank

namespace SpanFlow.Blank

/-- The second text is what is left of the first without the blanks at its ends. -/
structure Strips (cs t : List Char) : Prop where
  around : ∃ before after, cs = before ++ t ++ after ∧ (∀ c ∈ before, isBlank c = true) ∧
    ∀ c ∈ after, isBlank c = true
  head : ∀ c, t.head? = some c → isBlank c = false
  last : ∀ c, t.getLast? = some c → isBlank c = false

theorem trim_eq (cs : List Char) : trim cs = (cs.dropWhile isBlank).rdropWhile isBlank := rfl

theorem dropWhile_of_head {t : List Char} (h : ∀ c, t.head? = some c → isBlank c = false) : t.dropWhile isBlank = t := by
  cases t with
  | nil => rfl
  | cons c r => exact List.dropWhile_cons_of_neg (by rw [h c rfl]; decide)

theorem head_dropWhile {cs : List Char} {c : Char} (h : (cs.dropWhile isBlank).head? = some c) : isBlank c = false := by
  have hnot := List.head?_dropWhile_not isBlank cs
  rwa [h] at hnot

theorem strips_trim (cs : List Char) : Strips cs (trim cs) where
  around := by
    refine ⟨cs.takeWhile isBlank, (cs.dropWhile isBlank).rtakeWhile isBlank, ?_, ?_, ?_⟩
    · rw [trim_eq, List.append_assoc, List.rdropWhile_append_rtakeWhile, List.takeWhile_append_dropWhile]
    · exact fun c hc => List.mem_takeWhile_imp hc
    · exact fun c hc => List.mem_rtakeWhile_imp hc
  head c hc := by
    obtain ⟨r, hr⟩ := List.rdropWhile_prefix isBlank (cs.dropWhile isBlank)
    have hfront : (cs.dropWhile isBlank).head? = some c := by
      rw [← hr, ← trim_eq, List.head?_append, hc]
      rfl
    exact head_dropWhile hfront
  last c hc := by
    rw [trim_eq, List.rdropWhile, List.getLast?_reverse] at hc
    exact head_dropWhile hc

theorem trim_of_strips {cs t : List Char} (h : Strips cs t) : trim cs = t := by
  obtain ⟨before, after, rfl, hbefore, hafter⟩ := h.around
  have hback : (t ++ after).rdropWhile isBlank = t := by
    have hlast : t.reverse.dropWhile isBlank = t.reverse :=
      dropWhile_of_head fun c hc => h.last c (by rwa [List.head?_reverse] at hc)
    rw [List.rdropWhile, List.reverse_append, List.dropWhile_append_of_pos (by simpa using hafter), hlast,
      List.reverse_reverse]
  rw [trim_eq, List.append_assoc, List.dropWhile_append_of_pos hbefore]
  cases t with
  | nil =>
    rw [List.nil_append] at hback ⊢
    rw [List.dropWhile_eq_nil_iff.2 hafter]
    rfl
  | cons c r =>
    have hfront : (c :: r ++ after).dropWhile isBlank = c :: r ++ after :=
      dropWhile_of_head fun d hd => h.head d hd
    rw [hfront, hback]

theorem trim_of_no_blank {cs : List Char} (h : ∀ c ∈ cs, isBlank c = false) : trim cs = cs :=
  trim_of_strips ⟨⟨[], [], by simp, by simp, by simp⟩, fun c hc => h c (List.mem_of_head? hc),
    fun c hc => h c (List.mem_of_getLast? hc)⟩

theorem trim_append {before cs after : List Char} (hbefore : ∀ c ∈ before, isBlank c = true)
    (hafter : ∀ c ∈ after, isBlank c = true) : trim (before ++ cs ++ after) = trim cs := by
  obtain ⟨⟨b, a, hcs, hb, ha⟩, hhead, hlast⟩ := strips_trim cs
  refine trim_of_strips ⟨⟨before ++ b, a ++ after, ?_, ?_, ?_⟩, hhead, hlast⟩
  · conv_lhs => rw [hcs]
    simp only [List.append_assoc]
  · exact List.forall_mem_append.2 ⟨hbefore, hb⟩
  · exact List.forall_mem_append.2 ⟨ha, hafter⟩

theorem mem_of_mem_trim {c : Char} {cs : List Char} (h : c ∈ trim cs) : c ∈ cs := by
  obtain ⟨⟨b, a, hcs, -, -⟩, -, -⟩ := strips_trim cs
  rw [hcs]
  simp [h]

theorem trim_eq_nil_iff {cs : List Char} : trim cs = [] ↔ ∀ c ∈ cs, isBlank c = true := by
  constructor
  · intro h
    obtain ⟨⟨b, a, hcs, hb, ha⟩, -, -⟩ := strips_trim cs
    rw [h, List.append_nil] at hcs
    rw [hcs]
    exact List.forall_mem_append.2 ⟨hb, ha⟩
  · intro h
    exact trim_of_strips ⟨⟨cs, [], by simp, h, by simp⟩, by simp, by simp⟩

theorem trim_dropWhile (cs : List Char) : trim (cs.dropWhile isBlank) = trim cs := by
  have hblank : ∀ d ∈ cs.takeWhile isBlank, isBlank d = true := fun d hd => List.mem_takeWhile_imp hd
  have h : trim (cs.takeWhile isBlank ++ cs.dropWhile isBlank ++ []) = trim (cs.dropWhile isBlank) :=
    trim_append hblank (by simp)
  rwa [List.takeWhile_append_dropWhile, List.append_nil, eq_comm] at h

theorem trim_rdropWhile (cs : List Char) : trim (cs.rdropWhile isBlank) = trim cs := by
  have hblank : ∀ d ∈ cs.rtakeWhile isBlank, isBlank d = true := fun d hd => List.mem_rtakeWhile_imp hd
  have h : trim ([] ++ cs.rdropWhile isBlank ++ cs.rtakeWhile isBlank) = trim (cs.rdropWhile isBlank) :=
    trim_append (by simp) hblank
  rwa [List.nil_append, List.rdropWhile_append_rtakeWhile, eq_comm] at h

theorem trim_around {c : Char} (hc : isBlank c = false) (a b : List Char) :
    ∃ a' b', trim (a ++ c :: b) = a' ++ c :: b' ∧ (∀ d ∈ a', d ∈ a) ∧ trim a' = trim a ∧ trim b' = trim b := by
  have ha : ∀ d ∈ a.takeWhile isBlank, isBlank d = true := fun d hd => List.mem_takeWhile_imp hd
  have hb : ∀ d ∈ b.rtakeWhile isBlank, isBlank d = true := fun d hd => List.mem_rtakeWhile_imp hd
  have hasplit : a.takeWhile isBlank ++ a.dropWhile isBlank = a := List.takeWhile_append_dropWhile
  have hbsplit : b.rdropWhile isBlank ++ b.rtakeWhile isBlank = b := List.rdropWhile_append_rtakeWhile
  refine ⟨a.dropWhile isBlank, b.rdropWhile isBlank, trim_of_strips ⟨⟨_, _, ?_, ha, hb⟩, fun d hd => ?_, fun d hd => ?_⟩,
    fun d hd => (List.dropWhile_suffix _).subset hd, trim_dropWhile a, trim_rdropWhile b⟩
  · rw [← List.append_assoc, hasplit, List.append_assoc, List.cons_append, hbsplit]
  · rw [List.head?_append] at hd
    cases hfront : (a.dropWhile isBlank).head? with
    | none =>
      rw [hfront] at hd
      cases hd
      exact hc
    | some e =>
      rw [hfront] at hd
      cases hd
      exact head_dropWhile hfront
  · rw [List.getLast?_append, List.getLast?_cons] at hd
    cases hback : (b.rdropWhile isBlank).getLast? with
    | none =>
      rw [hback] at hd
      cases hd
      exact hc
    | some e =>
      rw [hback] at hd
      cases hd
      rw [List.rdropWhile, List.getLast?_reverse] at hback
      exact head_dropWhile hback

end SpanFlow.Blank
