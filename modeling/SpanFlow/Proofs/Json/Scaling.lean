import SpanFlow.Json.Numeral
import SpanFlow.Proofs.Decimal.Shortest

namespace SpanFlow.Json.Numeral

open Decimal

theorem le_foldl (acc : ℕ) (ds : List (Fin 10)) : acc ≤ ds.foldl (fun acc d => acc * 10 + d.val) acc := by
  induction ds generalizing acc with
  | nil => exact le_rfl
  | cons d ds ih => exact le_trans (by omega) (ih (acc * 10 + d.val))

theorem absorb_of_lt {acc : ℕ} {ds : List (Fin 10)} (h : ds.foldl (fun acc d => acc * 10 + d.val) acc < 2 ^ 64) :
    absorb acc ds = (ds.foldl (fun acc d => acc * 10 + d.val) acc, []) := by
  induction ds generalizing acc with
  | nil => rfl
  | cons d ds ih =>
    have hfits : acc * 10 + d.val < Nat.pow 2 64 := lt_of_le_of_lt (le_foldl _ ds) h
    rw [absorb, if_pos hfits]
    exact ih h

def significand (n : Numeral) : ℕ := ofDigits (n.whole ++ n.fraction)

def powerOfTen (n : Numeral) : ℤ :=
  match n.power with
  | none => 0
  | some p => if p.sign = some true then -(ofDigits p.digits : ℤ) else ofDigits p.digits

def place (n : Numeral) : ℤ := n.powerOfTen - n.fraction.length

/-- Whoever scales the significand of a numeral can read it, but for a power of ten out of all reach. -/
theorem toDouble?_isSome {n : Numeral} (hfits : n.significand < 2 ^ 64) (hpower : n.powerOfTen ≤ greatestPower)
    (hscale : (scale (Double.round n.significand 1) n.place).isSome) : n.toDouble?.isSome := by
  have hall : n.fraction.foldl (fun acc d => acc * 10 + d.val) (ofDigits n.whole) = n.significand := by
    rw [significand, ofDigits, ofDigits, List.foldl_append]
  have hhigh : absorb 0 n.whole = (ofDigits n.whole, []) := by
    refine absorb_of_lt (lt_of_le_of_lt (le_foldl (ofDigits n.whole) n.fraction) ?_)
    rwa [hall]
  have hleft : absorb (ofDigits n.whole) n.fraction = (n.significand, []) := by
    rw [← hall] at hfits ⊢
    exact absorb_of_lt hfits
  unfold toDouble?
  unfold place powerOfTen at hscale
  unfold powerOfTen at hpower
  simp only [hhigh, hleft, Option.isSome_map]
  cases hp : n.power with
  | none =>
    rw [hp] at hscale
    simpa using hscale
  | some p =>
    rw [hp] at hscale hpower
    simp only at hscale hpower ⊢
    by_cases hsign : p.sign = some true
    · rw [if_pos hsign] at hscale
      split
      · simp [hsign]
      · rw [hsign]
        convert hscale using 3
        simp
        ring
    · rw [if_neg hsign] at hscale hpower
      have hsmall : ¬greatestPower < ofDigits p.digits := by omega
      rw [if_neg hsmall, beq_eq_false_iff_ne.2 hsign]
      convert hscale using 3
      simp
      ring

theorem scale_isSome_of_neg (x : Double) {e : ℤ} (h : e < 0) : (scale x e).isSome := by
  fun_induction scale x e with
  | case1 x e hnear hpos y hy => omega
  | case2 x e hnear hpos y hy => rfl
  | case3 x e hnear hneg => rfl
  | case4 x e hfar hzero => rfl
  | case5 x e hfar hzero hpos => omega
  | case6 x e hfar hzero hneg ih => exact ih (by omega)

theorem scale_isSome_of_finite {x : Double} {e : ℕ} (he : e ≤ 308) (h : (x.mul (tenTo e)).isInfinite = false) :
    (scale x e).isSome := by
  rw [scale, if_pos (by omega), if_pos (by omega), Int.natAbs_natCast]
  simp [h]

/-- Two roundings, each by half a place, do not reach the limit from here. -/
theorem twice_rounded_lt {v : ℕ} (h : v ≤ 17976931348623154 * 10 ^ 292) :
    (v : ℚ) * (1 + 1 / 2 ^ 53) * (1 + 1 / 2 ^ 53) < Double.limit := by
  have hfar : 17976931348623154 * 10 ^ 292 * (2 ^ 53 + 1) ^ 2 < 18014398509481983 * 2 ^ 970 * 2 ^ 106 := by decide +kernel
  have hscaled : v * (2 ^ 53 + 1) ^ 2 < 18014398509481983 * 2 ^ 970 * 2 ^ 106 :=
    lt_of_le_of_lt (Nat.mul_le_mul_right _ h) hfar
  have hcast : ((2 ^ 970 : ℕ) : ℚ) = 2 ^ 970 := by rw [Nat.cast_pow, Nat.cast_ofNat]
  rw [Double.limit_eq, ← hcast]
  generalize 2 ^ 970 = u at hscaled ⊢
  have hscaled' : (v : ℚ) * (2 ^ 53 + 1) ^ 2 < 18014398509481983 * u * 2 ^ 106 := by exact_mod_cast hscaled
  linarith

theorem scale_isSome_of_le {d e : ℕ} (hd : 0 < d) (he : e ≤ 308) (h : d * 10 ^ e ≤ 17976931348623154 * 10 ^ 292) :
    (scale (Double.round d 1) e).isSome := by
  have hone : (1 : ℚ) ≤ 1 + 1 / 2 ^ 53 := by norm_num
  have hlimit {n : ℕ} (hn : n ≤ d * 10 ^ e) : (n : ℚ) < Double.limit := by
    refine lt_of_le_of_lt ?_ (twice_rounded_lt (hn.trans h))
    have hpos : (0 : ℚ) ≤ n := by positivity
    nlinarith
  have hround := Double.value_round_le hd (hlimit (Nat.le_mul_of_pos_right d (Nat.pow_pos (by decide))))
  have hten : (tenTo e).value ≤ ((10 ^ e : ℕ) : ℚ) * (1 + 1 / 2 ^ 53) :=
    Double.value_round_le (Nat.pow_pos (by decide)) (hlimit (Nat.le_mul_of_pos_left _ hd))
  have hleast : 0 ≤ (tenTo e).value := by unfold Double.value; positivity
  refine scale_isSome_of_finite he (Double.mul_isInfinite ?_)
  calc (Double.round d 1).value * (tenTo e).value
      ≤ d * (1 + 1 / 2 ^ 53) * (((10 ^ e : ℕ) : ℚ) * (1 + 1 / 2 ^ 53)) := mul_le_mul hround hten hleast (by positivity)
    _ = ((d * 10 ^ e : ℕ) : ℚ) * (1 + 1 / 2 ^ 53) * (1 + 1 / 2 ^ 53) := by push_cast; ring
    _ < Double.limit := twice_rounded_lt h

theorem exponent_lt {d e : ℕ} (hd : 0 < d) (h : d * 10 ^ e < 17976931348623157 * 10 ^ 292) : e < 309 := by
  refine (Nat.pow_lt_pow_iff_right (a := 10) (by decide)).1 (lt_of_le_of_lt (Nat.le_mul_of_pos_left _ hd) (h.trans ?_))
  decide +kernel

/-- Between the numbers that are safe from rounding and the greatest one there are two decimals left. -/
theorem scale_isSome_of_lt {d e : ℕ} (hd : 0 < d) (hdigits : d ≤ 10 ^ 17) (h : d * 10 ^ e < 17976931348623157 * 10 ^ 292) :
    (scale (Double.round d 1) e).isSome := by
  rcases Nat.lt_or_ge (17976931348623154 * 10 ^ 292) (d * 10 ^ e) with hgap | hle
  · obtain ⟨i, rfl⟩ : ∃ i, e = 292 + i := by
      have hpow : d * 10 ^ e ≤ 10 ^ (17 + e) := by
        rw [pow_add]
        exact Nat.mul_le_mul_right _ hdigits
      have hlong : 308 < 17 + e := by
        refine (Nat.pow_lt_pow_iff_right (a := 10) (by decide)).1 (lt_of_le_of_lt ?_ (lt_of_lt_of_le hgap hpow))
        decide +kernel
      exact Nat.exists_eq_add_of_le (by omega)
    have hsplit : d * 10 ^ (292 + i) = d * 10 ^ i * 10 ^ 292 := by
      rw [pow_add, Nat.mul_comm (10 ^ 292), Nat.mul_assoc]
    rw [hsplit] at hgap h
    have hlow := Nat.lt_of_mul_lt_mul_right hgap
    have hhigh := Nat.lt_of_mul_lt_mul_right h
    cases i with
    | zero =>
      rw [pow_zero, Nat.mul_one] at hlow hhigh
      obtain rfl | rfl : d = 17976931348623155 ∨ d = 17976931348623156 := by omega
      · decide +kernel
      · decide +kernel
    | succ i =>
      rw [pow_succ, ← Nat.mul_assoc] at hlow hhigh
      omega
  · exact scale_isSome_of_le hd (Nat.le_of_lt_succ (exponent_lt hd h)) hle

theorem half_above_le {x : Double} (h : x.magnitude + 1 < Double.infinite) :
    (x.significand + 1 / 2 : ℚ) * 2 ^ x.exponent ≤ (2 ^ 54 - 3) * 2 ^ 970 := by
  have hpow : Nat.pow 2 52 = 2 ^ 52 := rfl
  have hinfinite : Double.infinite = 2047 * 2 ^ 52 := rfl
  have hm := x.significand_lt
  have hcases : x.exponent ≤ 970 ∨ x.exponent = 970 + 1 ∧ x.significand + 2 ≤ 2 ^ 53 := by
    unfold Double.exponent Double.significand
    rw [hpow]
    dsimp only
    split <;> omega
  rcases hcases with hsmall | ⟨hlast, hroom⟩
  · have hle : (2 : ℚ) ^ x.exponent ≤ 2 ^ (970 : ℤ) := zpow_le_zpow_right₀ (by norm_num) hsmall
    have hm' : (x.significand : ℚ) + 1 ≤ 2 ^ 53 := by exact_mod_cast hm
    refine mul_le_mul ?_ hle (by positivity) (by norm_num)
    linarith
  · have hroom' : (x.significand : ℚ) + 2 ≤ 2 ^ 53 := by exact_mod_cast hroom
    rw [hlast, zpow_add_one₀ (by norm_num), mul_left_comm, mul_comm (2 ^ 54 - 3 : ℚ)]
    refine mul_le_mul_of_nonneg_left ?_ (by positivity)
    linarith

theorem eq_of_greatest {x : Double} (h : x.magnitude + 1 = Double.infinite) :
    x = ⟨0x7fefffffffffffff⟩ ∨ x = ⟨0xffefffffffffffff⟩ := by
  obtain ⟨bits⟩ := x
  have hlt := bits.isLt
  have hmagnitude : bits.toNat % 2 ^ 63 + 1 = 2047 * 2 ^ 52 := h
  simp only [Double.mk.injEq, ← BitVec.toNat_inj]
  have hpositive : (0x7fefffffffffffff : BitVec 64).toNat = 0x7fefffffffffffff := rfl
  have hnegative : (0xffefffffffffffff : BitVec 64).toNat = 0xffefffffffffffff := rfl
  omega

theorem shortest_of_greatest {x : Double} (h : x.magnitude + 1 = Double.infinite) :
    shortest .toEven x = ⟨17976931348623157, 292⟩ := by
  rcases eq_of_greatest h with rfl | rfl
  · decide +kernel
  · decide +kernel

/-- The shortest decimal of a finite number that is not zero: that of a greatest number, or one below the gap. -/
theorem shortest_cases {x : Double} (hfinite : x.isFinite = true) (hzero : x.isZero = false) {e : ℕ}
    (he : (shortest .toEven x).exponent = e) :
    shortest .toEven x = ⟨17976931348623157, 292⟩ ∨
      (shortest .toEven x).digits * 10 ^ e < 17976931348623157 * 10 ^ 292 := by
  obtain ⟨-, -, hvalue⟩ := shortest_spec .toEven hzero
  have hmagnitude : x.magnitude < Double.infinite := by simpa [Double.isFinite] using hfinite
  rw [Scientific.value, he, zpow_natCast] at hvalue
  by_cases hgreatest : x.magnitude + 1 = Double.infinite
  · exact .inl (shortest_of_greatest hgreatest)
  · have hbound := hvalue.trans (half_above_le (x := x) (by omega))
    have hbound' : (shortest .toEven x).digits * 10 ^ e ≤ 18014398509481981 * 2 ^ 970 := by
      have hcast : ((2 ^ 970 : ℕ) : ℚ) = 2 ^ 970 := by rw [Nat.cast_pow, Nat.cast_ofNat]
      have hthree : (2 ^ 54 - 3 : ℚ) = 18014398509481981 := by norm_num
      rw [hthree, ← hcast] at hbound
      exact_mod_cast hbound
    refine .inr (lt_of_le_of_lt hbound' ?_)
    decide +kernel

theorem digits_pos {x : Double} (hzero : x.isZero = false) (tie : Tie) : 0 < (shortest tie x).digits := by
  have hpos := (shortest_spec tie hzero).1
  by_contra hnone
  simp [Scientific.value, Nat.eq_zero_of_not_pos hnone] at hpos

theorem scale_shortest_isSome {x : Double} (hfinite : x.isFinite = true) (hzero : x.isZero = false) :
    (scale (Double.round (shortest .toEven x).digits 1) (shortest .toEven x).exponent).isSome := by
  rcases lt_or_ge (shortest .toEven x).exponent 0 with hneg | hpos
  · exact scale_isSome_of_neg _ hneg
  · obtain ⟨e, he⟩ := Int.eq_ofNat_of_zero_le hpos
    rcases shortest_cases hfinite hzero he with hgreatest | hlt
    · rw [hgreatest]
      decide +kernel
    · rw [he]
      exact scale_isSome_of_lt (digits_pos hzero _) (shortest_spec .toEven hzero).2.1 hlt

theorem exponent_shortest_le {x : Double} (hfinite : x.isFinite = true) (hzero : x.isZero = false) :
    (shortest .toEven x).exponent ≤ 308 := by
  rcases lt_or_ge (shortest .toEven x).exponent 0 with hneg | hpos
  · omega
  · obtain ⟨e, he⟩ := Int.eq_ofNat_of_zero_le hpos
    rcases shortest_cases hfinite hzero he with hgreatest | hlt
    · rw [hgreatest]
      decide
    · have := exponent_lt (digits_pos hzero _) hlt
      omega

end SpanFlow.Json.Numeral
