import SpanFlow.Proofs.Decimal.Digits
import SpanFlow.Proofs.Decimal.Rounding

namespace SpanFlow

namespace Double

variable {x : Double}

theorem significand_pos (h : x.isZero = false) : 0 < x.significand := by
  have hpow : Nat.pow 2 52 = 2 ^ 52 := rfl
  rw [isZero, beq_eq_false_iff_ne] at h
  unfold significand
  rw [hpow]
  dsimp only
  split <;> omega

theorem significand_lt (x : Double) : x.significand < 2 ^ 53 := by
  have hpow : Nat.pow 2 52 = 2 ^ 52 := rfl
  unfold significand
  rw [hpow]
  dsimp only
  split <;> omega

theorem value_pos (h : x.isZero = false) : 0 < x.value := by
  have hm : (0 : ℚ) < x.significand := by exact_mod_cast significand_pos h
  exact mul_pos hm (by positivity)

end Double

namespace Decimal

def Scientific.value (s : Scientific) : ℚ := s.digits * 10 ^ s.exponent

theorem scaledByTen_eq (num den : ℕ) (k : ℤ) :
    ((scaledByTen num den k).1 : ℚ) / (scaledByTen num den k).2 = num / den / 10 ^ k :=
  div_of_scaled 10 num den k rfl

theorem scaledByTen_pos {den : ℕ} (hden : 0 < den) (num : ℕ) (k : ℤ) : 0 < (scaledByTen num den k).2 :=
  pos_of_scaled (by decide) hden k rfl

theorem pow_leadingExponent_between {num den : ℕ} (hnum : 0 < num) (hden : 0 < den) :
    (10 : ℚ) ^ leadingExponent num den ≤ num / den ∧ (num / den : ℚ) < 10 ^ (leadingExponent num den + 1) := by
  have hlength {n : ℕ} : n < 10 ^ ((digitsOf n).length - 1 + 1) := by
    rw [Nat.sub_add_cancel (length_digitsOf_pos n)]
    exact lt_pow_length n
  have hguess : ((digitsOf num).length : ℤ) - (digitsOf den).length =
      ((digitsOf num).length - 1 : ℕ) - ((digitsOf den).length - 1 : ℕ) := by
    have hnumpos := length_digitsOf_pos num
    have hdenpos := length_digitsOf_pos den
    omega
  exact leading_between (b := 10) (by decide) (pow_length_le hnum.ne') hlength (pow_length_le hden.ne') hlength hguess rfl rfl

namespace Interval

/-- A decimal in quarters of a binary place, as a quotient. -/
def quarters (q : ℤ) (d : ℕ) (k : ℤ) : ℕ × ℕ :=
  let (n, unit) := if k < 0 then (d, Nat.pow 10 k.natAbs) else (d * Nat.pow 10 k.natAbs, 1)
  if q < 0 then (4 * n * Nat.pow 2 q.natAbs, unit) else (4 * n, unit * Nat.pow 2 q.natAbs)

theorem holds_eq (i : Interval) (q : ℤ) (d : ℕ) (k : ℤ) :
    i.holds q d k = if i.closed then i.lo * (quarters q d k).2 ≤ (quarters q d k).1 && (quarters q d k).1 ≤ i.hi * (quarters q d k).2
      else i.lo * (quarters q d k).2 < (quarters q d k).1 && (quarters q d k).1 < i.hi * (quarters q d k).2 := rfl

theorem quarters_pos (q : ℤ) (d : ℕ) (k : ℤ) : 0 < (quarters q d k).2 := by
  unfold quarters
  by_cases hk : k < 0
  · rw [if_pos hk]
    exact @pos_of_scaled 2 (4 * d) _ (by decide) (Nat.pow_pos (n := k.natAbs) (by decide : 0 < 10)) q _ rfl
  · rw [if_neg hk]
    exact @pos_of_scaled 2 (4 * (d * Nat.pow 10 k.natAbs)) _ (by decide) Nat.one_pos q _ rfl

theorem quarters_eq (q : ℤ) (d : ℕ) (k : ℤ) :
    ((quarters q d k).1 : ℚ) / (quarters q d k).2 = 4 * (d * 10 ^ k) / 2 ^ q := by
  unfold quarters
  by_cases hk : k < 0
  · rw [if_pos hk, zpow_of_neg hk]
    refine (div_of_scaled 2 (4 * d) (Nat.pow 10 k.natAbs) q rfl).trans ?_
    rw [Nat.pow_eq]
    push_cast
    ring
  · rw [if_neg hk, zpow_of_nonneg (Int.not_lt.1 hk)]
    refine (div_of_scaled 2 (4 * (d * Nat.pow 10 k.natAbs)) 1 q rfl).trans ?_
    rw [Nat.pow_eq]
    push_cast
    ring

theorem le_of_holds {i : Interval} {q : ℤ} {d : ℕ} {k : ℤ} (h : i.holds q d k = true) :
    (i.lo : ℚ) ≤ 4 * (d * 10 ^ k) / 2 ^ q ∧ 4 * (d * 10 ^ k) / 2 ^ q ≤ (i.hi : ℚ) := by
  have hpos : (0 : ℚ) < (quarters q d k).2 := by exact_mod_cast quarters_pos q d k
  have hends : i.lo * (quarters q d k).2 ≤ (quarters q d k).1 ∧ (quarters q d k).1 ≤ i.hi * (quarters q d k).2 := by
    rw [holds_eq] at h
    split at h
    · simpa using h
    · have hopen : i.lo * (quarters q d k).2 < (quarters q d k).1 ∧ (quarters q d k).1 < i.hi * (quarters q d k).2 := by
        simpa using h
      exact ⟨hopen.1.le, hopen.2.le⟩
  rw [← quarters_eq, le_div_iff₀ hpos, div_le_iff₀ hpos]
  exact_mod_cast hends

theorem holds_of_lt {i : Interval} {q : ℤ} {d : ℕ} {k : ℤ} (hlo : (i.lo : ℚ) < 4 * (d * 10 ^ k) / 2 ^ q)
    (hhi : 4 * (d * 10 ^ k) / 2 ^ q < (i.hi : ℚ)) : i.holds q d k = true := by
  have hpos : (0 : ℚ) < (quarters q d k).2 := by exact_mod_cast quarters_pos q d k
  rw [← quarters_eq, lt_div_iff₀ hpos] at hlo
  rw [← quarters_eq, div_lt_iff₀ hpos] at hhi
  have hlo' : i.lo * (quarters q d k).2 < (quarters q d k).1 := by exact_mod_cast hlo
  have hhi' : (quarters q d k).1 < i.hi * (quarters q d k).2 := by exact_mod_cast hhi
  rw [holds_eq]
  split
  · simp [hlo'.le, hhi'.le]
  · simp [hlo', hhi']

theorem lo_of_pos {x : Double} (h : x.isZero = false) : 0 < (Interval.of x).lo := by
  have hm := Double.significand_pos h
  unfold Interval.of
  dsimp only
  split <;> omega

theorem hi_eq (x : Double) : (Interval.of x).hi = 4 * x.significand + 2 := rfl

/-- Sixteen places below the leading digit, a step is less than the interval is wide on either side. -/
theorem near_of_step {x : Double} (hx : x.isZero = false) {c : ℕ} {k : ℤ} (hstep : (10 : ℚ) ^ k * 10 ^ 16 ≤ x.value)
    (hlo : x.value ≤ (c + 1 / 2) * 10 ^ k) (hhi : (c - 1 / 2) * 10 ^ k ≤ x.value) :
    (Interval.of x).holds x.exponent c k = true := by
  have hpow : (0 : ℚ) < 2 ^ x.exponent := by positivity
  have hm : (x.significand : ℚ) ≤ 2 ^ 53 - 1 := by
    have := x.significand_lt
    have hle : x.significand + 1 ≤ 2 ^ 53 := this
    have hcast : (x.significand : ℚ) + 1 ≤ 2 ^ 53 := by exact_mod_cast hle
    linarith
  rw [Double.value] at hstep hlo hhi
  have hwide : (10 : ℚ) ^ k ≤ x.significand / 10 ^ 16 * 2 ^ x.exponent := by
    rw [div_mul_eq_mul_div, le_div_iff₀ (by norm_num)]
    exact hstep
  refine holds_of_lt ?_ ?_
  · rw [lt_div_iff₀ hpow]
    unfold Interval.of
    dsimp only
    split
    · next hnarrow =>
      have hm1 : 1 ≤ 4 * x.significand := by have := Double.significand_pos hx; omega
      have hexact : (x.significand : ℚ) = 2 ^ 52 := by exact_mod_cast hnarrow.1
      push_cast [Nat.cast_sub hm1]
      rw [hexact] at hwide hlo ⊢
      nlinarith
    · have hm2 : 2 ≤ 4 * x.significand := by have := Double.significand_pos hx; omega
      push_cast [Nat.cast_sub hm2]
      nlinarith
  · rw [div_lt_iff₀ hpow, hi_eq]
    push_cast
    nlinarith

end Interval

section Candidate

variable {tie : Tie} {x : Double} {num den count : ℕ} {top : ℤ}

def lastPlace (top : ℤ) (count : ℕ) : ℤ := top - count + 1

def cut (num den : ℕ) (top : ℤ) (count : ℕ) : ℕ :=
  (scaledByTen num den (lastPlace top count)).1 / (scaledByTen num den (lastPlace top count)).2

def neighbours (tie : Tie) (num den : ℕ) (top : ℤ) (count : ℕ) : List ℕ :=
  let (n, d) := scaledByTen num den (lastPlace top count)
  let below := n / d
  if 2 * (n % d) < d ∨ (2 * (n % d) = d ∧ tie.down below) then [below, below + 1] else [below + 1, below]

theorem candidate_eq : candidate tie x num den top count =
    ((neighbours tie num den top count).find? fun c => (Interval.of x).holds x.exponent c (lastPlace top count)).map
      fun c => ⟨c, lastPlace top count⟩ := by
  rw [← List.head?_filter]
  rfl

theorem mem_neighbours {c : ℕ} (h : c ∈ neighbours tie num den top count) : c ≤ cut num den top count + 1 := by
  unfold neighbours at h
  dsimp only at h
  rw [cut]
  split at h
  · rcases List.mem_pair.1 h with rfl | rfl <;> omega
  · rcases List.mem_pair.1 h with rfl | rfl <;> omega

theorem exists_near (tie : Tie) (hden : 0 < den) (num : ℕ) (top : ℤ) (count : ℕ) :
    ∃ c ∈ neighbours tie num den top count, (num / den : ℚ) ≤ (c + 1 / 2) * 10 ^ lastPlace top count ∧
      (c - 1 / 2 : ℚ) * 10 ^ lastPlace top count ≤ num / den := by
  have hstep : (0 : ℚ) < 10 ^ lastPlace top count := by positivity
  have hscaled := scaledByTen_eq num den (lastPlace top count)
  have hpos := scaledByTen_pos hden num (lastPlace top count)
  rw [eq_div_iff hstep.ne'] at hscaled
  unfold neighbours
  generalize scaledByTen num den (lastPlace top count) = p at hscaled hpos ⊢
  obtain ⟨n, d⟩ := p
  dsimp only at hscaled hpos ⊢
  have hd : (0 : ℚ) < d := by exact_mod_cast hpos
  have hn : (n : ℚ) = n / d * d := (div_mul_cancel₀ _ hd.ne').symm
  have hrest : ((n / d : ℕ) : ℚ) * d + (n % d : ℕ) = n / d * d := by
    rw [← hn]
    exact_mod_cast Nat.div_add_mod' n d
  have hless : ((n % d : ℕ) : ℚ) < d := by exact_mod_cast Nat.mod_lt n hpos
  have hleast : (0 : ℚ) ≤ (n % d : ℕ) := by positivity
  rw [← hscaled]
  split
  · next hdown =>
    have hhalf : 2 * (n % d) ≤ d := by omega
    have hhalf' : 2 * ((n % d : ℕ) : ℚ) ≤ d := by exact_mod_cast hhalf
    refine ⟨n / d, by simp, mul_le_mul_of_nonneg_right ?_ hstep.le, mul_le_mul_of_nonneg_right ?_ hstep.le⟩
    · refine le_of_mul_le_mul_right ?_ hd
      linarith
    · refine le_of_mul_le_mul_right ?_ hd
      linarith
  · next hup =>
    have hhalf : d ≤ 2 * (n % d) := by omega
    have hhalf' : (d : ℚ) ≤ 2 * ((n % d : ℕ) : ℚ) := by exact_mod_cast hhalf
    refine ⟨n / d + 1, by simp, mul_le_mul_of_nonneg_right ?_ hstep.le, mul_le_mul_of_nonneg_right ?_ hstep.le⟩
    · refine le_of_mul_le_mul_right ?_ hd
      push_cast
      linarith
    · refine le_of_mul_le_mul_right ?_ hd
      push_cast
      linarith

theorem cut_lt (hden : 0 < den) (htop : (num / den : ℚ) < 10 ^ (top + 1)) (count : ℕ) : cut num den top count < 10 ^ count := by
  have hpos := scaledByTen_pos hden num (lastPlace top count)
  have hpos' : (0 : ℚ) < (scaledByTen num den (lastPlace top count)).2 := by exact_mod_cast hpos
  have hlt : ((scaledByTen num den (lastPlace top count)).1 : ℚ) / (scaledByTen num den (lastPlace top count)).2 < 10 ^ count := by
    rw [scaledByTen_eq, div_lt_iff₀ (by positivity), ← zpow_natCast, ← zpow_add₀ (by norm_num)]
    have hexp : (count : ℤ) + lastPlace top count = top + 1 := by rw [lastPlace]; ring
    rwa [hexp]
  rw [cut, Nat.div_lt_iff_lt_mul hpos]
  rw [div_lt_iff₀ hpos'] at hlt
  exact_mod_cast hlt

/-- A found decimal has at most so many digits, unless they are all carried, and reads back as the number. -/
theorem of_candidate {s : Scientific} (hden : 0 < den) (htop : (num / den : ℚ) < 10 ^ (top + 1))
    (h : candidate tie x num den top count = some s) :
    s.digits ≤ 10 ^ count ∧ (Interval.of x).holds x.exponent s.digits s.exponent = true := by
  rw [candidate_eq] at h
  obtain ⟨c, hc, rfl⟩ := Option.map_eq_some_iff.1 h
  refine ⟨?_, by simpa using List.find?_some hc⟩
  have hle := mem_neighbours (List.mem_of_find?_eq_some hc)
  have hlt := cut_lt hden htop count
  exact le_trans hle hlt

/-- Seventeen digits suffice. -/
theorem candidate_seventeen (hx : x.isZero = false) (hden : 0 < den) (hvalue : (num / den : ℚ) = x.value)
    (htop : (10 : ℚ) ^ top ≤ num / den) : candidate tie x num den top 17 ≠ none := by
  obtain ⟨c, hmem, hlo, hhi⟩ := exists_near tie hden num top 17
  rw [hvalue] at hlo hhi htop
  have hstep : (10 : ℚ) ^ lastPlace top 17 * 10 ^ 16 ≤ x.value := by
    refine le_of_eq_of_le ?_ htop
    rw [← zpow_natCast, ← zpow_add₀ (by norm_num)]
    congr 1
    rw [lastPlace]
    push_cast
    ring
  have hholds := Interval.near_of_step hx hstep hlo hhi
  rw [candidate_eq, ne_eq, Option.map_eq_none_iff, List.find?_eq_none]
  exact fun hnone => hnone c hmem hholds

end Candidate

theorem value_strip (digits : ℕ) (exponent : ℤ) (fuel : ℕ) :
    (strip digits exponent fuel).value = digits * 10 ^ exponent ∧ (strip digits exponent fuel).digits ≤ digits := by
  induction fuel generalizing digits exponent with
  | zero => exact ⟨rfl, le_rfl⟩
  | succ fuel ih =>
    rw [strip]
    split
    · next h =>
      obtain ⟨hvalue, hle⟩ := ih (digits / 10) (exponent + 1)
      refine ⟨?_, hle.trans (Nat.div_le_self _ _)⟩
      have hten : (digits : ℚ) = (digits / 10 : ℕ) * 10 := by
        exact_mod_cast (Nat.div_mul_cancel (Nat.dvd_of_mod_eq_zero h.2)).symm
      rw [hvalue, zpow_add_one₀ (by norm_num), hten]
      ring
    · exact ⟨rfl, le_rfl⟩

/-- The shortest decimal of a number that is not zero is not zero, has at most seventeen digits, and is at
most half a place above the number. -/
theorem shortest_spec (tie : Tie) {x : Double} (hx : x.isZero = false) :
    0 < (shortest tie x).value ∧ (shortest tie x).digits ≤ 10 ^ 17 ∧
      (shortest tie x).value ≤ (x.significand + 1 / 2) * 2 ^ x.exponent := by
  have hpow : (0 : ℚ) < 2 ^ x.exponent := by positivity
  have hden := x.quotient_pos
  have hnum : 0 < x.quotient.1 := by
    have hpos := Double.value_pos hx
    rw [← x.quotient_eq] at hpos
    by_contra hzero
    simp [Nat.eq_zero_of_not_pos hzero] at hpos
  obtain ⟨hlo, hhi⟩ := pow_leadingExponent_between hnum hden
  have hcase : ∃ s, (List.range 17).findSome? (fun i =>
      candidate tie x x.quotient.1 x.quotient.2 (leadingExponent x.quotient.1 x.quotient.2) (i + 1)) = some s := by
    refine Option.ne_none_iff_exists'.1 fun hnone => ?_
    exact candidate_seventeen hx hden x.quotient_eq hlo (List.findSome?_eq_none_iff.1 hnone 16 (by decide))
  obtain ⟨s, hs⟩ := hcase
  obtain ⟨i, hi, hcandidate⟩ := List.exists_of_findSome?_eq_some hs
  have hshortest : shortest tie x = strip s.digits s.exponent 18 := by
    rw [shortest, hx, if_neg Bool.false_ne_true]
    dsimp only
    rw [hs]
  obtain ⟨hdigits, hholds⟩ := of_candidate hden hhi hcandidate
  obtain ⟨hend, hend'⟩ := Interval.le_of_holds hholds
  obtain ⟨hvalue, hle⟩ := value_strip s.digits s.exponent 18
  have hcount : 10 ^ (i + 1) ≤ 10 ^ 17 := Nat.pow_le_pow_right (by decide) (by have := List.mem_range.1 hi; omega)
  rw [hshortest, hvalue]
  refine ⟨?_, hle.trans (hdigits.trans hcount), ?_⟩
  · have hlow : (0 : ℚ) < (Interval.of x).lo := by exact_mod_cast Interval.lo_of_pos hx
    have hquarters := lt_of_lt_of_le hlow hend
    rw [lt_div_iff₀ hpow, zero_mul] at hquarters
    linarith
  · rw [Interval.hi_eq, div_le_iff₀ hpow] at hend'
    push_cast at hend'
    linarith

end Decimal

end SpanFlow
