import Mathlib.Data.Nat.Digits.Lemmas
import SpanFlow.Decimal.Shortest

namespace SpanFlow.Decimal

theorem ofDigits_snoc (ds : List (Fin 10)) (d : Fin 10) : ofDigits (ds ++ [d]) = ofDigits ds * 10 + d.val := by
  simp [ofDigits]

theorem ofDigits_eq (ds : List (Fin 10)) : ofDigits ds = Nat.ofDigits 10 (ds.reverse.map (·.val)) := by
  induction ds using List.reverseRecOn with
  | nil => rfl
  | append_singleton ds d ih =>
    rw [ofDigits_snoc, ih, List.reverse_append, List.reverse_singleton, List.singleton_append, List.map_cons,
      Nat.ofDigits_cons]
    ring

theorem ofDigits_append (ds es : List (Fin 10)) : ofDigits (ds ++ es) = ofDigits ds * 10 ^ es.length + ofDigits es := by
  simp only [ofDigits_eq, List.reverse_append, List.map_append, Nat.ofDigits_append, List.length_map, List.length_reverse]
  ring

theorem ofDigits_replicate_zero (n : Nat) : ofDigits (List.replicate n zeroDigit) = 0 := by
  induction n with
  | zero => rfl
  | succ n ih => rw [List.replicate_succ', ofDigits_snoc, ih]; rfl

theorem ofDigits_lt (ds : List (Fin 10)) : ofDigits ds < 10 ^ ds.length := by
  have hlt := Nat.ofDigits_lt_base_pow_length (b := 10) (l := ds.reverse.map (·.val)) (by decide) fun d hd => by
    obtain ⟨e, -, rfl⟩ := List.mem_map.1 hd
    exact e.isLt
  rwa [List.length_map, List.length_reverse, ← ofDigits_eq] at hlt

theorem map_val_digitsOf {n : Nat} (h : n ≠ 0) : (digitsOf n).reverse.map (·.val) = Nat.digits 10 n := by
  fun_induction digitsOf n with
  | case1 n hlt => simp [Nat.digits_of_lt 10 n h hlt, Nat.mod_eq_of_lt hlt]
  | case2 n hge ih =>
    have hrest : n / 10 ≠ 0 := by omega
    rw [Nat.digits_def' (by decide) (Nat.pos_of_ne_zero h), ← ih hrest]
    simp

theorem digitsOf_zero : digitsOf 0 = [zeroDigit] := by
  rw [digitsOf]
  rfl

@[simp] theorem ofDigits_digitsOf (n : Nat) : ofDigits (digitsOf n) = n := by
  by_cases h : n = 0
  · rw [h, digitsOf_zero]
    rfl
  · rw [ofDigits_eq, map_val_digitsOf h, Nat.ofDigits_digits]

theorem length_digitsOf {n : Nat} (h : n ≠ 0) : (digitsOf n).length = (Nat.digits 10 n).length := by
  rw [← map_val_digitsOf h, List.length_map, List.length_reverse]

theorem digitsOf_ne_nil (n : Nat) : digitsOf n ≠ [] := by
  rw [digitsOf]
  split <;> simp

theorem length_digitsOf_pos (n : Nat) : 0 < (digitsOf n).length :=
  List.length_pos_of_ne_nil (digitsOf_ne_nil n)

theorem lt_pow_length (n : Nat) : n < 10 ^ (digitsOf n).length := by
  have h := ofDigits_lt (digitsOf n)
  rwa [ofDigits_digitsOf] at h

theorem pow_length_le {n : Nat} (h : n ≠ 0) : 10 ^ ((digitsOf n).length - 1) ≤ n := by
  have hle := Nat.base_pow_length_digits_le 10 n (by decide) h
  have hlength : (digitsOf n).length = (digitsOf n).length - 1 + 1 := by have := length_digitsOf_pos n; omega
  rw [← length_digitsOf h, hlength, pow_succ] at hle
  omega

theorem head?_digitsOf {n : Nat} (h : n ≠ 0) : (digitsOf n).head? ≠ some zeroDigit := by
  intro hhead
  obtain ⟨ds, hds⟩ := List.head?_eq_some_iff.1 hhead
  have hvalue : ofDigits (digitsOf n) = ofDigits ds := by
    rw [hds, ← List.singleton_append, ofDigits_append]
    exact (Nat.add_comm _ _).trans (by simp [ofDigits, zeroDigit])
  have hle := pow_length_le h
  have hlt := ofDigits_lt ds
  rw [ofDigits_digitsOf] at hvalue
  rw [hds, List.length_cons, Nat.add_sub_cancel] at hle
  omega

theorem digit?_digitChar (d : Fin 10) : digit? (digitChar d) = some d := by
  revert d
  decide

end SpanFlow.Decimal
