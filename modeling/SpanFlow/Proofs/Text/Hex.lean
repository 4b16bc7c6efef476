import Mathlib.Algebra.Group.Nat.Defs
import SpanFlow.Text.Hex

namespace SpanFlow.Hex

theorem lowerDigit?_digit : ∀ n < 16, lowerDigit? (digit n) = some n := by decide

theorem digit?_digit : ∀ n < 16, digit? (digit n) = some n := by decide

theorem digit?_capital : ∀ n < 16, digit? (capital n) = some n := by decide

theorem mem_fixed {c : Char} {width n : Nat} (h : c ∈ fixed width n) : ∃ k < 16, c = digit k := by
  induction width generalizing n with
  | zero => simp [fixed] at h
  | succ width ih =>
    rw [fixed, List.mem_append, List.mem_singleton] at h
    rcases h with h | rfl
    · exact ih h
    · exact ⟨n % 16, Nat.mod_lt _ (by decide), rfl⟩

theorem value?_fixed {read : Char → Option Nat} (hread : ∀ n < 16, read (digit n) = some n) {width n : Nat}
    (h : n < 16 ^ width) : value? read (fixed width n) = some n := by
  induction width generalizing n with
  | zero =>
    have hn : n = 0 := by simpa using h
    rw [hn]
    rfl
  | succ width ih =>
    have hhigh : n / 16 < 16 ^ width := by
      rw [pow_succ] at h
      omega
    have hlow : n % 16 < 16 := Nat.mod_lt _ (by decide)
    have hn : n / 16 * 16 + n % 16 = n := by omega
    have hfirst := ih hhigh
    rw [value?] at hfirst
    rw [value?, fixed, List.foldlM_append, hfirst]
    simp [hread _ hlow, hn]

theorem ofWidth?_fixed {width n : Nat} (h : n < 16 ^ width) : ofWidth? width (fixed width n) = some n := by
  rw [ofWidth?, if_pos (length_fixed width n), value?_fixed lowerDigit?_digit h]

theorem bounded?_text {bound width n : Nat} (hw : 0 < width) (hb : width ≤ bound) (hn : n ≠ 0)
    (h : n < 16 ^ width) : bounded? bound (text width n) = some n := by
  have hlength : ¬((fixed width n).isEmpty ∨ bound < (fixed width n).length) := by
    rw [List.isEmpty_iff_length_eq_zero, length_fixed]
    omega
  rw [bounded?, text, String.toList_ofList]
  simp only [if_neg hlength, value?_fixed digit?_digit h]
  simp [hn]

end SpanFlow.Hex
