import Mathlib.Data.Nat.Digits.Lemmas
import SpanFlow.Text.Hex

namespace SpanFlow

/-- The characters of a list are checked one by one, where a search would run over all characters there are. -/
theorem forall_mem_of_all {cs : List Char} {P : Char → Prop} [DecidablePred P]
    (h : (cs.all fun c => decide (P c)) = true) : ∀ c ∈ cs, P c :=
  fun c hc => of_decide_eq_true (List.all_eq_true.1 h c hc)

namespace Hex

def digits : List Char :=
  ['0', '1', '2', '3', '4', '5', '6', '7', '8', '9', 'a', 'b', 'c', 'd', 'e', 'f']

def worth (c : Char) : Nat := digits.idxOf c.toLower

/-- The number that a row of digits denotes, the most significant digit first. -/
def number (cs : List Char) : Nat := Nat.ofDigits 16 (cs.reverse.map worth)

structure LowerRow (width : Nat) (cs : List Char) : Prop where
  length : cs.length = width
  mem : ∀ c ∈ cs, c ∈ digits

structure MixedRow (bound : Nat) (cs : List Char) : Prop where
  nonempty : cs ≠ []
  length : cs.length ≤ bound
  mem : ∀ c ∈ cs, c.toLower ∈ digits

theorem toNat_of_mem_digits : ∀ c ∈ digits, c.toNat < 128 := forall_mem_of_all (by decide)

theorem toLower_of_mem_digits : ∀ c ∈ digits, c.toLower = c := forall_mem_of_all (by decide)

theorem of_low {P : Char → Prop} (h : ∀ n < 128, P (Char.ofNat n)) {c : Char} (hc : c.toNat < 128) : P c := by
  have hp := h c.toNat hc
  rwa [Char.ofNat_toNat] at hp

theorem not_le_of_high {c d : Char} (h : 128 ≤ c.toNat) (hd : d.toNat < 128) : ¬c ≤ d := by
  rw [Char.le_def, UInt32.le_iff_toNat_le]
  exact Nat.not_le.2 (Nat.lt_of_lt_of_le hd h)

theorem toLower_of_high {c : Char} (h : 128 ≤ c.toNat) : c.toLower = c := by
  have hZ : ¬c ≤ 'Z' := not_le_of_high h (by decide)
  exact dif_neg fun hcase => hZ hcase.2

theorem lowerDigit?_of_high {c : Char} (h : 128 ≤ c.toNat) : lowerDigit? c = none := by
  have h9 : ¬c ≤ '9' := not_le_of_high h (by decide)
  have hf : ¬c ≤ 'f' := not_le_of_high h (by decide)
  simp [lowerDigit?, h9, hf]

theorem lowerDigit?_eq (c : Char) : lowerDigit? c = if c ∈ digits then some (worth c) else none := by
  by_cases h : c.toNat < 128
  · exact of_low (P := fun c => lowerDigit? c = if c ∈ digits then some (worth c) else none) (by decide) h
  · rw [lowerDigit?_of_high (Nat.not_lt.1 h), if_neg fun hmem => h (toNat_of_mem_digits c hmem)]

theorem digit?_eq (c : Char) : digit? c = if c.toLower ∈ digits then some (worth c) else none := by
  by_cases h : c.toNat < 128
  · exact of_low (P := fun c => digit? c = if c.toLower ∈ digits then some (worth c) else none) (by decide) h
  · have hhigh := Nat.not_lt.1 h
    have hF : ¬c ≤ 'F' := not_le_of_high hhigh (by decide)
    rw [digit?, if_neg fun hc => hF hc.2, lowerDigit?_of_high hhigh, toLower_of_high hhigh,
      if_neg fun hmem => h (toNat_of_mem_digits c hmem)]

theorem number_snoc (cs : List Char) (c : Char) : number (cs ++ [c]) = worth c + 16 * number cs := by
  simp [number, Nat.ofDigits_cons]

theorem value?_eq_some_iff {read : Char → Option Nat} {digit : Char → Prop}
    (hread : ∀ c d, read c = some d ↔ digit c ∧ worth c = d) {cs : List Char} {n : Nat} :
    value? read cs = some n ↔ (∀ c ∈ cs, digit c) ∧ number cs = n := by
  induction cs using List.reverseRecOn generalizing n with
  | nil => simp [value?, number]
  | append_singleton cs c ih =>
    have hstep : value? read (cs ++ [c]) = (value? read cs).bind fun m => (read c).map (m * 16 + ·) := by
      simp [value?, List.foldlM_append]
    rw [hstep, Option.bind_eq_some_iff, List.forall_mem_append, List.forall_mem_singleton, number_snoc]
    constructor
    · rintro ⟨m, hm, hn⟩
      obtain ⟨d, hd, rfl⟩ := Option.map_eq_some_iff.1 hn
      obtain ⟨hcs, rfl⟩ := ih.1 hm
      obtain ⟨hc, rfl⟩ := (hread c d).1 hd
      exact ⟨⟨hcs, hc⟩, by omega⟩
    · rintro ⟨⟨hcs, hc⟩, rfl⟩
      exact ⟨number cs, ih.2 ⟨hcs, rfl⟩, Option.map_eq_some_iff.2 ⟨worth c, (hread c _).2 ⟨hc, rfl⟩, by omega⟩⟩

theorem lowerDigit?_eq_some_iff (c : Char) (d : Nat) : lowerDigit? c = some d ↔ c ∈ digits ∧ worth c = d := by
  simp [lowerDigit?_eq]

theorem digit?_eq_some_iff (c : Char) (d : Nat) : digit? c = some d ↔ c.toLower ∈ digits ∧ worth c = d := by
  simp [digit?_eq]

theorem ofWidth?_eq_some_iff {width : Nat} {cs : List Char} {n : Nat} :
    ofWidth? width cs = some n ↔ LowerRow width cs ∧ number cs = n := by
  rw [ofWidth?]
  split
  · next hlength =>
    rw [value?_eq_some_iff lowerDigit?_eq_some_iff]
    exact ⟨fun h => ⟨⟨hlength, h.1⟩, h.2⟩, fun h => ⟨h.1.mem, h.2⟩⟩
  · next hlength => exact ⟨(fun h => nomatch h), fun h => absurd h.1.length hlength⟩

theorem bounded?_eq_some_iff {bound : Nat} {s : String} {n : Nat} :
    bounded? bound s = some n ↔ MixedRow bound s.toList ∧ number s.toList = n ∧ n ≠ 0 := by
  rw [bounded?]
  simp only [List.isEmpty_iff]
  split
  · next hlength =>
    refine ⟨(fun h => nomatch h), fun h => ?_⟩
    rcases hlength with hempty | hlong
    · exact absurd hempty h.1.nonempty
    · exact absurd h.1.length (Nat.not_le.2 hlong)
  · next hlength =>
    rw [not_or, Nat.not_lt] at hlength
    rw [Option.filter_eq_some_iff, value?_eq_some_iff digit?_eq_some_iff, decide_eq_true_iff]
    exact ⟨fun h => ⟨⟨hlength.1, hlength.2, h.1.1⟩, h.1.2, h.2⟩, fun h => ⟨⟨h.1.mem, h.2.1⟩, h.2.2⟩⟩

theorem worth_lt {c : Char} (h : c.toLower ∈ digits) : worth c < 16 :=
  List.idxOf_lt_length_of_mem h

theorem number_lt {cs : List Char} (h : ∀ c ∈ cs, c.toLower ∈ digits) : number cs < 16 ^ cs.length := by
  have hlt := Nat.ofDigits_lt_base_pow_length (b := 16) (l := cs.reverse.map worth) (by decide) fun d hd => by
    obtain ⟨c, hc, rfl⟩ := List.mem_map.1 hd
    exact worth_lt (h c (List.mem_reverse.1 hc))
  rwa [List.length_map, List.length_reverse] at hlt

theorem MixedRow.number_lt {bound : Nat} {cs : List Char} (h : MixedRow bound cs) : number cs < 16 ^ bound :=
  Nat.lt_of_lt_of_le (Hex.number_lt h.mem) (Nat.pow_le_pow_right (by decide) h.length)

namespace LowerRow

variable {width : Nat} {cs ds : List Char}

theorem number_lt (h : LowerRow width cs) : number cs < 16 ^ width := by
  rw [← h.length]
  refine Hex.number_lt fun c hc => ?_
  rw [toLower_of_mem_digits c (h.mem c hc)]
  exact h.mem c hc

theorem eq_fixed (h : LowerRow width cs) : cs = fixed width (number cs) := by
  have hdigit : ∀ c ∈ digits, worth c < 16 ∧ digit (worth c) = c := forall_mem_of_all (by decide)
  induction cs using List.reverseRecOn generalizing width with
  | nil =>
    rw [← h.length]
    rfl
  | append_singleton cs c ih =>
    obtain ⟨hlt, hc⟩ := hdigit c (h.mem c (by simp))
    have hrest : LowerRow cs.length cs := ⟨rfl, fun d hd => h.mem d (by simp [hd])⟩
    have hhigh : (worth c + 16 * number cs) / 16 = number cs := by omega
    have hlow : (worth c + 16 * number cs) % 16 = worth c := by omega
    rw [← h.length, List.length_append, List.length_singleton, fixed, number_snoc, hhigh, hlow, ← ih hrest, hc]

theorem eq_of_number_eq (hc : LowerRow width cs) (hd : LowerRow width ds) (h : number cs = number ds) : cs = ds := by
  rw [hc.eq_fixed, hd.eq_fixed, h]

theorem number_eq_zero_iff (h : LowerRow width cs) : number cs = 0 ↔ ∀ c ∈ cs, c = '0' := by
  have hworth : ∀ c ∈ digits, worth c = 0 ↔ c = '0' := forall_mem_of_all (by decide)
  have hdigit := h.mem
  clear h
  induction cs using List.reverseRecOn with
  | nil => simp [number]
  | append_singleton cs c ih =>
    rw [List.forall_mem_append, List.forall_mem_singleton] at hdigit ⊢
    have hrest : number cs = 0 ↔ ∀ d ∈ cs, d = '0' := ih hdigit.1
    rw [number_snoc, ← hrest, ← hworth c hdigit.2]
    omega

theorem number_ne_zero_iff (h : LowerRow width cs) : number cs ≠ 0 ↔ ∃ c ∈ cs, c ≠ '0' := by
  rw [ne_eq, h.number_eq_zero_iff]
  simp

end LowerRow

end Hex

end SpanFlow
