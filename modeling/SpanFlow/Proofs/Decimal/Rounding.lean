import Mathlib.Algebra.Order.Field.Rat
import Mathlib.Algebra.Order.Field.Power
import Mathlib.Tactic.FieldSimp
import Mathlib.Tactic.Linarith
import Mathlib.Tactic.Positivity
import Mathlib.Tactic.Ring
import SpanFlow.Decimal.Double

namespace SpanFlow

section Powers

variable {b : ℚ} {q : ℤ}

theorem zpow_of_neg (h : q < 0) : b ^ q = (b ^ q.natAbs)⁻¹ := by
  have hq : q = -(q.natAbs : ℤ) := by omega
  conv_lhs => rw [hq, zpow_neg, zpow_natCast]

theorem zpow_of_nonneg (h : 0 ≤ q) : b ^ q = b ^ q.natAbs := by
  have hq : q = (q.natAbs : ℤ) := by omega
  conv_lhs => rw [hq, zpow_natCast]

theorem div_of_scaled (b num den : ℕ) (q : ℤ) {p : ℕ × ℕ}
    (hp : p = if q < 0 then (num * b ^ q.natAbs, den) else (num, den * b ^ q.natAbs)) :
    (p.1 : ℚ) / p.2 = num / den / (b : ℚ) ^ q := by
  subst hp
  split
  · next h => rw [zpow_of_neg h]; push_cast; field_simp
  · next h => rw [zpow_of_nonneg (Int.not_lt.1 h)]; push_cast; field_simp

theorem pos_of_scaled {b num den : ℕ} (hb : 0 < b) (hden : 0 < den) (q : ℤ) {p : ℕ × ℕ}
    (hp : p = if q < 0 then (num * b ^ q.natAbs, den) else (num, den * b ^ q.natAbs)) : 0 < p.2 := by
  subst hp
  split
  · exact hden
  · exact Nat.mul_pos hden (Nat.pow_pos hb)

theorem lt_of_scaled_iff {b num den : ℕ} (hb : 0 < b) (hden : 0 < den) (q : ℤ) {p : ℕ × ℕ}
    (hp : p = if q < 0 then (num * b ^ q.natAbs, den) else (num, den * b ^ q.natAbs)) :
    p.1 < p.2 ↔ (num / den : ℚ) < (b : ℚ) ^ q := by
  have hpos : (0 : ℚ) < p.2 := by exact_mod_cast pos_of_scaled hb hden q hp
  have hpow : (0 : ℚ) < (b : ℚ) ^ q := zpow_pos (by exact_mod_cast hb) q
  rw [← div_lt_one hpow, ← div_of_scaled b num den q hp, div_lt_one hpos, Nat.cast_lt]

/-- The place of the leading digit of a quotient, from the places of two leading digits: their difference is
at most one too high, which one comparison shows. -/
theorem leading_between {b num den i j : ℕ} (hb : 1 < b) (hnumlo : b ^ i ≤ num) (hnumhi : num < b ^ (i + 1))
    (hdenlo : b ^ j ≤ den) (hdenhi : den < b ^ (j + 1)) {guess top : ℤ} (hguess : guess = i - j) {p : ℕ × ℕ}
    (hp : p = if guess < 0 then (num * b ^ guess.natAbs, den) else (num, den * b ^ guess.natAbs))
    (htop : top = if p.1 < p.2 then guess - 1 else guess) :
    (b : ℚ) ^ top ≤ num / den ∧ (num / den : ℚ) < (b : ℚ) ^ (top + 1) := by
  have hb0 : (0 : ℚ) < b := by exact_mod_cast Nat.lt_of_succ_lt hb
  have hden : 0 < den := Nat.lt_of_lt_of_le (Nat.pow_pos (Nat.lt_of_succ_lt hb)) hdenlo
  have hden' : (0 : ℚ) < den := by exact_mod_cast hden
  have hpow (m n : ℕ) : (b : ℚ) ^ ((m : ℤ) - n) * b ^ n = b ^ m := by
    rw [← zpow_natCast (b : ℚ) n, ← zpow_add₀ hb0.ne', sub_add_cancel, zpow_natCast]
  have hlo : (b : ℚ) ^ (guess - 1) ≤ num / den := by
    have hexp : guess - 1 = (i : ℤ) - (j + 1 : ℕ) := by omega
    rw [le_div_iff₀ hden', hexp]
    refine le_trans (mul_le_mul_of_nonneg_left (b := (den : ℚ)) (c := (b : ℚ) ^ (j + 1)) ?_ (by positivity)) ?_
    · exact_mod_cast hdenhi.le
    · rw [hpow]
      exact_mod_cast hnumlo
  have hhi : (num / den : ℚ) < (b : ℚ) ^ (guess + 1) := by
    have hexp : guess + 1 = ((i + 1 : ℕ) : ℤ) - j := by omega
    rw [div_lt_iff₀ hden', hexp]
    refine lt_of_lt_of_le (b := (b : ℚ) ^ (i + 1)) ?_ ?_
    · exact_mod_cast hnumhi
    · rw [← hpow (i + 1) j]
      exact mul_le_mul_of_nonneg_left (by exact_mod_cast hdenlo) (by positivity)
  have hless := lt_of_scaled_iff (Nat.lt_of_succ_lt hb) hden guess hp
  subst htop
  split
  · next h => exact ⟨hlo, by rw [sub_add_cancel]; exact hless.1 h⟩
  · next h => exact ⟨not_lt.1 fun hlt => h (hless.2 hlt), hhi⟩

end Powers

namespace Double

/-- The absolute value of a finite number. -/
def value (x : Double) : ℚ := x.significand * 2 ^ x.exponent

/-- Half a place above the greatest finite number. Whatever is below is rounded to a finite number. -/
def limit : ℚ := 2 ^ 1024 - 2 ^ 970

theorem limit_eq : limit = (2 ^ 54 - 1) * 2 ^ 970 := by
  rw [limit, pow_add 2 970 54]
  generalize (2 : ℚ) ^ 970 = last
  ring

theorem quotient_eq (x : Double) : (x.quotient.1 : ℚ) / x.quotient.2 = x.value := by
  unfold quotient value
  split
  · next h => rw [zpow_of_neg h]; simp [div_eq_mul_inv]
  · next h => rw [zpow_of_nonneg (Int.not_lt.1 h)]; simp

theorem quotient_pos (x : Double) : 0 < x.quotient.2 := by
  unfold quotient
  split
  · exact Nat.pow_pos (by decide)
  · exact Nat.one_pos

theorem scaled_eq (num den : ℕ) (q : ℤ) :
    ((scaled num den q).1 : ℚ) / (scaled num den q).2 = num / den / 2 ^ q :=
  div_of_scaled 2 num den q rfl

theorem scaled_pos {den : ℕ} (hden : 0 < den) (num : ℕ) (q : ℤ) : 0 < (scaled num den q).2 :=
  pos_of_scaled (by decide) hden q rfl

theorem div_le_roundQuotient (num den : ℕ) : num / den ≤ roundQuotient num den := by
  unfold roundQuotient
  dsimp only
  split <;> omega

theorem roundQuotient_le_succ (num den : ℕ) : roundQuotient num den ≤ num / den + 1 := by
  unfold roundQuotient
  dsimp only
  split <;> omega

theorem roundQuotient_le {den : ℕ} (hden : 0 < den) (num : ℕ) : (roundQuotient num den : ℚ) ≤ num / den + 1 / 2 := by
  have htwice : 2 * (roundQuotient num den * den) ≤ 2 * num + den := by
    have hsplit : num / den * den + num % den = num := Nat.div_add_mod' num den
    unfold roundQuotient
    dsimp only
    split
    · omega
    · rw [Nat.add_one_mul (num / den)]
      omega
  have hden' : (0 : ℚ) < den := by exact_mod_cast hden
  have hcast : 2 * ((roundQuotient num den : ℚ) * den) ≤ 2 * num + den := by exact_mod_cast htwice
  rw [← sub_le_iff_le_add, le_div_iff₀ hden']
  linarith

def leading (num den : ℕ) : ℤ :=
  let guess : ℤ := (num.log2 : ℤ) - den.log2
  if (scaled num den guess).1 < (scaled num den guess).2 then guess - 1 else guess

theorem pow_leading_between {num den : ℕ} (hnum : 0 < num) (hden : 0 < den) :
    (2 : ℚ) ^ leading num den ≤ num / den ∧ (num / den : ℚ) < 2 ^ (leading num den + 1) :=
  leading_between (b := 2) (by decide) (Nat.log2_self_le hnum.ne') Nat.lt_log2_self (Nat.log2_self_le hden.ne')
    Nat.lt_log2_self rfl rfl rfl

/-- The binary exponent at which a quotient is rounded: 53 digits, but no place below the least one. -/
def place (num den : ℕ) : ℤ := max (leading num den - 52) (-1074)

def kept (num den : ℕ) : ℕ :=
  roundQuotient (scaled num den (place num den)).1 (scaled num den (place num den)).2

theorem roundMagnitude_eq {num : ℕ} (hnum : 0 < num) (den : ℕ) :
    roundMagnitude num den = min infinite ((place num den + 1074).toNat * 2 ^ 52 + kept num den) :=
  if_neg hnum.ne'

section Kept

variable {num den : ℕ}

theorem kept_le_half (hden : 0 < den) : (kept num den : ℚ) ≤ num / den / 2 ^ place num den + 1 / 2 := by
  rw [← scaled_eq]
  exact roundQuotient_le (scaled_pos hden num _) _

theorem scaled_place_lt (hnum : 0 < num) (hden : 0 < den) : (num / den / 2 ^ place num den : ℚ) < 2 ^ 53 := by
  rw [div_lt_iff₀ (by positivity), ← zpow_natCast, ← zpow_add₀ (by norm_num)]
  refine lt_of_lt_of_le (pow_leading_between hnum hden).2 (zpow_le_zpow_right₀ (by norm_num) ?_)
  rw [place]
  push_cast
  omega

theorem le_scaled_place (hnum : 0 < num) (hden : 0 < den) (h : -1022 ≤ leading num den) :
    (2 : ℚ) ^ 52 ≤ num / den / 2 ^ place num den := by
  rw [le_div_iff₀ (by positivity), ← zpow_natCast, ← zpow_add₀ (by norm_num)]
  refine le_trans (zpow_le_zpow_right₀ (by norm_num) ?_) (pow_leading_between hnum hden).1
  rw [place]
  push_cast
  omega

theorem floor_scaled (q : ℤ) (hden : 0 < den) {n : ℕ} :
    n ≤ (scaled num den q).1 / (scaled num den q).2 ↔ (n : ℚ) ≤ num / den / 2 ^ q := by
  have hpos := scaled_pos hden num q
  rw [Nat.le_div_iff_mul_le hpos, ← scaled_eq, le_div_iff₀ (by exact_mod_cast hpos)]
  norm_cast

theorem kept_le (hnum : 0 < num) (hden : 0 < den) : kept num den ≤ 2 ^ 53 := by
  have hfloor : ¬2 ^ 53 ≤ (scaled num den (place num den)).1 / (scaled num den (place num den)).2 := by
    rw [floor_scaled _ hden]
    exact not_le.2 (by exact_mod_cast scaled_place_lt hnum hden)
  have hsucc := roundQuotient_le_succ (scaled num den (place num den)).1 (scaled num den (place num den)).2
  rw [kept]
  omega

theorem le_kept (hnum : 0 < num) (hden : 0 < den) (h : -1022 ≤ leading num den) : 2 ^ 52 ≤ kept num den := by
  refine le_trans ?_ (div_le_roundQuotient _ _)
  rw [floor_scaled _ hden]
  exact_mod_cast le_scaled_place hnum hden h

theorem leading_lt_of_lt_limit (hnum : 0 < num) (hden : 0 < den) (h : (num / den : ℚ) < limit) : leading num den < 1024 := by
  have hlt : (2 : ℚ) ^ leading num den < 2 ^ (1024 : ℤ) := by
    refine lt_of_le_of_lt (pow_leading_between hnum hden).1 (lt_trans h ?_)
    rw [limit]
    norm_num
  exact (zpow_lt_zpow_iff_right₀ (by norm_num)).1 hlt

theorem lt_infinite (hnum : 0 < num) (hden : 0 < den) (h : (num / den : ℚ) < limit) :
    (place num den + 1074).toNat * 2 ^ 52 + kept num den < infinite := by
  have htop := leading_lt_of_lt_limit hnum hden h
  have hkept := kept_le hnum hden
  have hinfinite : infinite = 2047 * 2 ^ 52 := rfl
  by_cases hlast : leading num den = 1023
  · -- In the last binade the significand must not be rounded up to `2 ^ 53`.
    have hplace : place num den = (970 + 1 : ℕ) := by rw [place, hlast]; rfl
    have hvalue : (num / den / 2 ^ place num den : ℚ) < 2 ^ 53 - 1 / 2 := by
      have hlimit : limit = (2 ^ 53 - 1 / 2) * 2 ^ ((970 + 1 : ℕ) : ℤ) := by
        rw [zpow_natCast, pow_succ 2 970, limit_eq]
        generalize (2 : ℚ) ^ 970 = last
        ring
      rw [hplace, div_lt_iff₀ (by positivity), ← hlimit]
      exact h
    have hbelow : (kept num den : ℚ) < (2 ^ 53 : ℕ) := by
      refine lt_of_le_of_lt (kept_le_half hden) ?_
      push_cast
      linarith
    have hbelow' : kept num den < 2 ^ 53 := by exact_mod_cast hbelow
    rw [hplace]
    omega
  · have hplace : place num den ≤ 970 := by rw [place]; omega
    omega

end Kept

theorem magnitude_ofMagnitude (negative : Bool) {m : ℕ} (h : m < 2 ^ 63) : (ofMagnitude negative m).magnitude = m := by
  unfold ofMagnitude magnitude
  cases negative <;> simp [BitVec.toNat_ofNat] <;> omega

/-- A significand of 53 digits carries over into the exponent. -/
theorem value_ofMagnitude {e r : ℕ} (hr : r ≤ 2 ^ 53) (hlow : e = 0 ∨ 2 ^ 52 ≤ r) (hfit : e * 2 ^ 52 + r < 2 ^ 63) :
    (ofMagnitude false (e * 2 ^ 52 + r)).value = r * 2 ^ ((e : ℤ) - 1074) := by
  have hm := magnitude_ofMagnitude false hfit
  have hpow : Nat.pow 2 52 = 2 ^ 52 := rfl
  unfold value significand exponent
  simp only [hm, hpow]
  rcases Nat.lt_or_ge r (2 ^ 52) with hlt | hge
  · obtain rfl : e = 0 := by omega
    have hfield : (0 * 2 ^ 52 + r) / 2 ^ 52 = 0 := by omega
    have hrest : (0 * 2 ^ 52 + r) % 2 ^ 52 = r := by omega
    rw [hfield, hrest]
    simp
  · rcases Nat.lt_or_ge r (2 ^ 53) with hlt | hge
    · have hfield : (e * 2 ^ 52 + r) / 2 ^ 52 = e + 1 := by omega
      have hrest : (e * 2 ^ 52 + r) % 2 ^ 52 + 2 ^ 52 = r := by omega
      rw [hfield, if_neg (by omega), if_neg (by omega), hrest]
      congr 2
      push_cast
      ring
    · obtain rfl : r = 2 ^ 53 := by omega
      have hfield : (e * 2 ^ 52 + 2 ^ 53) / 2 ^ 52 = e + 2 := by omega
      have hrest : (e * 2 ^ 52 + 2 ^ 53) % 2 ^ 52 + 2 ^ 52 = 2 ^ 52 := by omega
      have hexp : ((e + 2 : ℕ) : ℤ) - 1075 = ((e : ℤ) - 1074) + 1 := by push_cast; ring
      rw [hfield, if_neg (by omega), if_neg (by omega), hrest, hexp, zpow_add_one₀ (by norm_num)]
      push_cast
      ring

theorem roundMagnitude_lt {num den : ℕ} (hden : 0 < den) (h : (num / den : ℚ) < limit) :
    roundMagnitude num den < infinite := by
  rcases Nat.eq_zero_or_pos num with rfl | hnum
  · exact Nat.mul_pos (by decide) (Nat.pow_pos (by decide))
  · rw [roundMagnitude_eq hnum]
    exact lt_of_le_of_lt (min_le_right _ _) (lt_infinite hnum hden h)

theorem infinite_lt : infinite < 2 ^ 63 := by decide

theorem value_round_le {n : ℕ} (hn : 0 < n) (h : (n : ℚ) < limit) : (round n 1).value ≤ n * (1 + 1 / 2 ^ 53) := by
  have hlimit : (n / (1 : ℕ) : ℚ) < limit := by simpa using h
  have hlt := lt_infinite hn Nat.one_pos hlimit
  have hleading : -1 < leading n 1 := by
    have hone : (2 : ℚ) ^ (0 : ℤ) < 2 ^ (leading n 1 + 1) := by
      refine lt_of_le_of_lt ?_ (pow_leading_between hn Nat.one_pos).2
      rw [zpow_zero, Nat.cast_one, div_one]
      exact_mod_cast hn
    have := (zpow_lt_zpow_iff_right₀ (by norm_num : (1 : ℚ) < 2)).1 hone
    omega
  have hplace : place n 1 = leading n 1 - 52 := by rw [place]; omega
  have hback : ((place n 1 + 1074).toNat : ℤ) - 1074 = place n 1 := by omega
  have hnormal : 2 ^ 52 ≤ kept n 1 := le_kept hn Nat.one_pos (by omega)
  have hvalue : (round n 1).value = kept n 1 * 2 ^ place n 1 := by
    rw [round, roundMagnitude_eq hn, min_eq_right hlt.le,
      value_ofMagnitude (kept_le hn Nat.one_pos) (.inr hnormal) (hlt.trans infinite_lt), hback]
  have hhalf := @kept_le_half n 1 Nat.one_pos
  have hfull := le_scaled_place hn Nat.one_pos (by omega)
  rw [Nat.cast_one, div_one] at hhalf hfull
  have hpow : (0 : ℚ) < 2 ^ place n 1 := by positivity
  have hscaled : (kept n 1 : ℚ) ≤ n / 2 ^ place n 1 * (1 + 1 / 2 ^ 53) := by
    refine hhalf.trans ?_
    rw [mul_add, mul_one, add_le_add_iff_left]
    linarith
  calc (round n 1).value = kept n 1 * 2 ^ place n 1 := hvalue
    _ ≤ n / 2 ^ place n 1 * (1 + 1 / 2 ^ 53) * 2 ^ place n 1 := mul_le_mul_of_nonneg_right hscaled hpow.le
    _ = n * (1 + 1 / 2 ^ 53) := by field_simp

theorem mul_isInfinite {x y : Double} (h : x.value * y.value < limit) : (x.mul y).isInfinite = false := by
  have hpos : 0 < x.quotient.2 * y.quotient.2 := Nat.mul_pos x.quotient_pos y.quotient_pos
  have hquotient : ((x.quotient.1 * y.quotient.1 : ℕ) : ℚ) / (x.quotient.2 * y.quotient.2 : ℕ) < limit := by
    push_cast
    rwa [mul_div_mul_comm, quotient_eq, quotient_eq]
  have hlt := roundMagnitude_lt hpos hquotient
  have hmul : x.mul y = ofMagnitude false (roundMagnitude (x.quotient.1 * y.quotient.1) (x.quotient.2 * y.quotient.2)) := rfl
  rw [isInfinite, hmul, magnitude_ofMagnitude false (hlt.trans infinite_lt), beq_eq_false_iff_ne]
  exact hlt.ne

end Double

end SpanFlow
