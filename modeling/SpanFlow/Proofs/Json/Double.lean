import SpanFlow.Proofs.Json.Numeral
import SpanFlow.Proofs.Json.Scaling

namespace SpanFlow.Json.Numeral

open Decimal

theorem shortest_zero {x : Double} (hzero : x.isZero = true) (tie : Tie) : shortest tie x = ⟨0, 0⟩ := if_pos hzero

section Layout

variable {s : Scientific}

/-- The digits of a decimal, with zeros in front so that one stands before the point. -/
def padded (s : Scientific) : List (Fin 10) :=
  List.replicate (s.exponent.natAbs + 1 - (digitsOf s.digits).length) zeroDigit ++ digitsOf s.digits

theorem ofDigits_padded (s : Scientific) : ofDigits (padded s) = s.digits := by
  rw [padded, ofDigits_append, ofDigits_replicate_zero, Nat.zero_mul, Nat.zero_add, ofDigits_digitsOf]

theorem length_padded (s : Scientific) : (padded s).length = max (s.exponent.natAbs + 1) (digitsOf s.digits).length := by
  rw [padded, List.length_append, List.length_replicate]
  omega

theorem positional_of_nonneg (h : 0 ≤ s.exponent) :
    positional s = (digitsOf s.digits ++ List.replicate s.exponent.toNat zeroDigit, []) := if_pos h

theorem positional_of_neg (h : s.exponent < 0) :
    positional s = (padded s).splitAt ((padded s).length - s.exponent.natAbs) := if_neg (Int.not_le.2 h)

theorem positional_leading (hzero : s.digits = 0 → s.exponent = 0) :
    (positional s).1 ≠ [] ∧ ((positional s).1.head? = some zeroDigit → (positional s).1.length = 1) := by
  have hdigits := digitsOf_ne_nil s.digits
  have hlength := length_digitsOf_pos s.digits
  rcases lt_or_ge s.exponent 0 with hneg | hpos
  · have hlong := length_padded s
    have hne : s.digits ≠ 0 := fun h => by have := hzero h; omega
    rw [positional_of_neg hneg, List.splitAt_eq]
    refine ⟨fun hnil => ?_, fun hhead => ?_⟩
    · have hnone := congrArg List.length hnil
      rw [List.length_take, List.length_nil] at hnone
      omega
    · rcases Nat.lt_or_ge s.exponent.natAbs (digitsOf s.digits).length with hfew | hmany
      · -- There are enough digits, and the first of them is no zero.
        have hpad : padded s = digitsOf s.digits := by
          rw [padded, Nat.sub_eq_zero_of_le hfew]
          rfl
        rw [hpad, List.head?_take, if_neg (by omega)] at hhead
        exact absurd hhead (head?_digitsOf hne)
      · rw [List.length_take]
        omega
  · rw [positional_of_nonneg hpos]
    refine ⟨by simp [hdigits], fun hhead => ?_⟩
    rw [List.head?_append_of_ne_nil _ hdigits] at hhead
    have hnone : s.digits = 0 := by
      by_contra hne
      exact head?_digitsOf hne hhead
    rw [hnone, hzero hnone, digitsOf_zero]
    rfl

def top (s : Scientific) : ℤ := s.exponent + ((digitsOf s.digits).length - 1 : ℕ)

def plain (negative : Bool) (s : Scientific) : Numeral :=
  ⟨negative, (positional s).1, if (positional s).2.isEmpty then [zeroDigit] else (positional s).2, none⟩

def powered (negative : Bool) (s : Scientific) : Numeral :=
  ⟨negative, (digitsOf s.digits).take 1, (digitsOf s.digits).drop 1,
    some ⟨some (decide (top s < 0)), digitsOf (top s).natAbs⟩⟩

theorem proper_plain (hzero : s.digits = 0 → s.exponent = 0) (negative : Bool) : (plain negative s).Proper :=
  ⟨(positional_leading hzero).1, (positional_leading hzero).2, fun _ hp => nomatch hp⟩

theorem proper_powered (negative : Bool) (s : Scientific) : (powered negative s).Proper where
  whole := by simp [powered, digitsOf_ne_nil]
  leading _ := by
    have hlength := length_digitsOf_pos s.digits
    rw [powered, List.length_take]
    omega
  power := by
    intro p hp
    cases hp
    exact digitsOf_ne_nil _

theorem significand_powered (negative : Bool) (s : Scientific) : (powered negative s).significand = s.digits := by
  rw [significand, powered, List.take_append_drop, ofDigits_digitsOf]

theorem powerOfTen_powered (negative : Bool) (s : Scientific) : (powered negative s).powerOfTen = top s := by
  unfold powerOfTen powered
  simp only [ofDigits_digitsOf, Option.some.injEq, decide_eq_true_eq]
  split <;> omega

theorem place_powered (negative : Bool) (s : Scientific) : (powered negative s).place = s.exponent := by
  have hlength : (powered negative s).fraction.length = (digitsOf s.digits).length - 1 := List.length_drop
  rw [place, powerOfTen_powered, hlength, top]
  omega

theorem place_plain_neg (negative : Bool) (s : Scientific) : (plain negative s).place < 0 := by
  have hfraction : 0 < (plain negative s).fraction.length := by
    rw [plain]
    dsimp only
    split
    · exact Nat.one_pos
    · next h => exact List.length_pos_of_ne_nil (by simpa using h)
  rw [place]
  have hpower : (plain negative s).powerOfTen = 0 := rfl
  omega

theorem significand_plain_lt (hdigits : s.digits ≤ 10 ^ 17) (htop : top s ≤ 15) (negative : Bool) :
    (plain negative s).significand < 2 ^ 64 := by
  rw [significand, plain]
  rcases lt_or_ge s.exponent 0 with hneg | hpos
  · have hlong := length_padded s
    have hfraction : (positional s).2 ≠ [] := by
      rw [positional_of_neg hneg, List.splitAt_eq]
      refine List.ne_nil_of_length_pos ?_
      rw [List.length_drop]
      omega
    have hall : (positional s).1 ++ (positional s).2 = padded s := by
      rw [positional_of_neg hneg, List.splitAt_eq, List.take_append_drop]
    simp only [List.isEmpty_iff, if_neg hfraction, hall, ofDigits_padded]
    exact lt_of_le_of_lt hdigits (by decide)
  · -- The zeros up to the point and the one behind it are digits too.
    have hfew : (digitsOf s.digits).length + s.exponent.toNat + 1 ≤ 17 := by
      have := length_digitsOf_pos s.digits
      rw [top] at htop
      omega
    have hlt := ofDigits_lt ((digitsOf s.digits ++ List.replicate s.exponent.toNat zeroDigit) ++ [zeroDigit])
    rw [positional_of_nonneg hpos]
    refine lt_trans (lt_of_lt_of_le hlt (Nat.pow_le_pow_right (by decide) ?_)) (by decide : 10 ^ 17 < 2 ^ 64)
    rw [List.length_append, List.length_append, List.length_replicate, List.length_singleton]
    exact hfew

end Layout

theorem ofDouble_eq (x : Double) : ofDouble x =
    if -5 ≤ top (shortest .toEven x) ∧ top (shortest .toEven x) ≤ 15 then plain x.isNegative (shortest .toEven x)
    else powered x.isNegative (shortest .toEven x) := rfl

theorem exponent_of_digits_zero {x : Double} (h : (shortest .toEven x).digits = 0) : (shortest .toEven x).exponent = 0 := by
  cases hzero : x.isZero with
  | true => rw [shortest_zero hzero]
  | false => exact absurd h (digits_pos hzero _).ne'

theorem digits_le (x : Double) : (shortest .toEven x).digits ≤ 10 ^ 17 := by
  cases hzero : x.isZero with
  | true =>
    rw [shortest_zero hzero]
    exact Nat.zero_le _
  | false => exact (shortest_spec .toEven hzero).2.1

theorem proper_ofDouble (x : Double) : (ofDouble x).Proper := by
  rw [ofDouble_eq]
  split
  · exact proper_plain exponent_of_digits_zero _
  · exact proper_powered _ _

theorem int?_ofDouble (x : Double) : (ofDouble x).int? = none := by
  have hwhole : (ofDouble x).isWhole = false := by
    rw [ofDouble_eq]
    split
    · rw [isWhole, plain]
      dsimp only
      split <;> simp_all
    · simp [isWhole, powered]
  simp [int?, hwhole]

/-- A finite number is read as some floating-point number again. -/
theorem toDouble?_ofDouble {x : Double} (h : x.isFinite = true) : (ofDouble x).toDouble?.isSome := by
  have hdigits := digits_le x
  rw [ofDouble_eq]
  split
  · next hplain =>
    exact toDouble?_isSome (significand_plain_lt hdigits hplain.2 _) (Int.natCast_nonneg _)
      (scale_isSome_of_neg _ (place_plain_neg _ _))
  · next hpowered =>
    have hzero : x.isZero = false := by
      by_contra hzero
      rw [shortest_zero (by simpa using hzero)] at hpowered
      exact hpowered (by simp [top, digitsOf_zero])
    have hlength : (digitsOf (shortest .toEven x).digits).length - 1 ≤ 17 := by
      refine (Nat.pow_le_pow_iff_right (a := 10) (by decide)).1 (le_trans (pow_length_le (digits_pos hzero _).ne') hdigits)
    refine toDouble?_isSome ?_ ?_ ?_
    · rw [significand_powered]
      exact lt_of_le_of_lt hdigits (by decide)
    · have hexponent := exponent_shortest_le h hzero
      have hgreatest : greatestPower = 2147483647 := rfl
      rw [powerOfTen_powered, top, hgreatest]
      omega
    · rw [significand_powered, place_powered]
      exact scale_shortest_isSome h hzero

end SpanFlow.Json.Numeral
