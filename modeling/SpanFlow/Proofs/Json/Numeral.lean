import SpanFlow.Json.Numeral
import SpanFlow.Proofs.Decimal.Digits

namespace SpanFlow.Json

open Decimal

/-- What may follow a value in a document: nothing, or one of three marks. -/
def Ends (cs : List Char) : Prop := ∀ c ∈ cs.head?, c = ',' ∨ c = ']' ∨ c = '\x7d'

namespace Numeral

/-- A numeral that has a text: digits in front, no zero in front of others, and no empty power. -/
structure Proper (n : Numeral) : Prop where
  whole : n.whole ≠ []
  leading : n.whole.head? = some zeroDigit → n.whole.length = 1
  power : ∀ p ∈ n.power, p.digits ≠ []

def NoDigit (cs : List Char) : Prop := ∀ c ∈ cs.head?, digit? c = none

theorem noDigit_of_ends {cs : List Char} (h : Ends cs) : NoDigit cs := by
  intro c hc
  rcases h c hc with rfl | rfl | rfl <;> decide

theorem digits_append (ds : List (Fin 10)) {rest : List Char} (h : NoDigit rest) :
    digits (ds.map digitChar ++ rest) = (ds, rest) := by
  induction ds with
  | nil =>
    cases rest with
    | nil => rfl
    | cons c rest => simp [digits, h c rfl]
  | cons d ds ih => simp [digits, digit?_digitChar, ih]

theorem digitChar_ne (d : Fin 10) : digitChar d ≠ '-' ∧ digitChar d ≠ '+' := by
  revert d
  decide

def fractionText (n : Numeral) : List Char :=
  if n.fraction.isEmpty then [] else '.' :: n.fraction.map digitChar

def powerText (n : Numeral) : List Char :=
  match n.power with
  | none => []
  | some p =>
    'e' :: ((match p.sign with
      | none => []
      | some true => ['-']
      | some false => ['+']) ++ p.digits.map digitChar)

theorem render_eq (n : Numeral) :
    n.render = (if n.negative then ['-'] else []) ++ n.whole.map digitChar ++ n.fractionText ++ n.powerText := rfl

section Reading

variable {n : Numeral} {rest : List Char}

theorem readPowerDigits_append {ds : List (Fin 10)} (hds : ds ≠ []) (sign : Option Bool) (hrest : NoDigit rest) :
    readPowerDigits sign (ds.map digitChar ++ rest) = some (some ⟨sign, ds⟩, rest) := by
  rw [readPowerDigits, digits_append ds hrest]
  simp [hds]

theorem readPower_append (hpower : ∀ p ∈ n.power, p.digits ≠ []) (hrest : Ends rest) :
    readPower (n.powerText ++ rest) = some (n.power, rest) := by
  unfold powerText
  cases hp : n.power with
  | none =>
    cases rest with
    | nil => rfl
    | cons c rest =>
      have hc : ¬(c = 'e' ∨ c = 'E') := by
        rcases hrest c rfl with rfl | rfl | rfl <;> decide
      exact if_neg hc
  | some p =>
    obtain ⟨sign, ds⟩ := p
    have hds : ds ≠ [] := hpower _ hp
    have hread (sign : Option Bool) := readPowerDigits_append hds sign (noDigit_of_ends hrest)
    cases sign with
    | some b => cases b <;> exact hread _
    | none =>
      obtain ⟨d, ds, rfl⟩ := List.exists_cons_of_ne_nil hds
      -- The first digit is not taken for a sign.
      refine Eq.trans ?_ (hread none)
      obtain ⟨hminus, hplus⟩ := digitChar_ne d
      simp [readPower, hminus, hplus]

theorem noDigit_powerText (hrest : Ends rest) : NoDigit (n.powerText ++ rest) := by
  unfold powerText
  cases n.power with
  | none => exact noDigit_of_ends hrest
  | some p =>
    intro c hc
    obtain rfl : 'e' = c := by simpa using hc
    decide

theorem readFraction_append (hrest : Ends rest) :
    readFraction (n.fractionText ++ (n.powerText ++ rest)) = some (n.fraction, n.powerText ++ rest) := by
  have hnone : ∀ c ∈ (n.powerText ++ rest).head?, c ≠ '.' := by
    unfold powerText
    cases n.power with
    | none =>
      intro c hc
      rcases hrest c hc with rfl | rfl | rfl <;> decide
    | some p =>
      intro c hc
      obtain rfl : 'e' = c := by simpa using hc
      decide
  unfold fractionText
  by_cases hf : n.fraction = []
  · rw [hf, List.isEmpty_nil, if_pos rfl, List.nil_append]
    unfold readFraction
    split
    · next r heq => exact absurd rfl (hnone '.' (by simp [heq]))
    · rfl
  · rw [if_neg (by simpa using hf), List.cons_append, readFraction, digits_append _ (noDigit_powerText hrest)]
    simp [hf]

theorem noDigit_fractionText (hrest : Ends rest) : NoDigit (n.fractionText ++ (n.powerText ++ rest)) := by
  unfold fractionText
  split
  · exact noDigit_powerText hrest
  · intro c hc
    obtain rfl : '.' = c := by simpa using hc
    decide

theorem readUnsigned_append (h : n.Proper) (hrest : Ends rest) :
    readUnsigned n.negative (n.whole.map digitChar ++ (n.fractionText ++ (n.powerText ++ rest))) = some (n, rest) := by
  have hfirst : ¬(n.whole.isEmpty = true ∨ n.whole.head? = some zeroDigit ∧ n.whole.length ≠ 1) := by
    rintro (hempty | ⟨hzero, hlong⟩)
    · exact h.whole (List.isEmpty_iff.1 hempty)
    · exact hlong (h.leading hzero)
  rw [readUnsigned, digits_append _ (noDigit_fractionText hrest)]
  simp only [if_neg hfirst, readFraction_append hrest, Option.bind_eq_bind, Option.bind_some, readPower_append h.power hrest]
  rfl

theorem read_render (h : n.Proper) (hrest : Ends rest) : read (n.render ++ rest) = some (n, rest) := by
  have hunsigned := readUnsigned_append h hrest
  rw [render_eq]
  simp only [List.append_assoc]
  cases hneg : n.negative with
  | true =>
    rw [hneg] at hunsigned
    exact hunsigned
  | false =>
    rw [hneg] at hunsigned
    obtain ⟨d, ds, hwhole⟩ := List.exists_cons_of_ne_nil h.whole
    rw [hwhole] at hunsigned ⊢
    refine Eq.trans ?_ hunsigned
    simp [read, (digitChar_ne d).1]

end Reading

section Integers

theorem proper_ofInt (i : Int) : (ofInt i).Proper where
  whole := digitsOf_ne_nil _
  leading hzero := by
    by_cases h : i.natAbs = 0
    · rw [ofInt, h, digitsOf_zero]
      rfl
    · exact absurd hzero (head?_digitsOf h)
  power _ hp := nomatch hp

theorem int?_ofInt (i : Int) : (ofInt i).int? = some i := by
  have hvalue : ofDigits (ofInt i).whole = i.natAbs := ofDigits_digitsOf _
  have hwhole : (ofInt i).isWhole = true := rfl
  rw [int?, hvalue, hwhole]
  by_cases h : i < 0
  · have hneg : (ofInt i).negative = true := decide_eq_true h
    have hne : i.natAbs ≠ 0 := by omega
    have hback : -(i.natAbs : Int) = i := by omega
    simp only [hneg, if_neg hne, hback]
    rfl
  · have hneg : (ofInt i).negative = false := decide_eq_false h
    have hback : (i.natAbs : Int) = i := by omega
    simp only [hneg, hback]
    rfl

theorem below?_ofInt {n bound : Nat} (h : n < bound) : (ofInt n).below? bound = some n := by
  have hvalue : ofDigits (ofInt n).whole = n := ofDigits_digitsOf _
  have hneg : (ofInt (n : Int)).negative = false := decide_eq_false (Int.not_lt.2 (Int.natCast_nonneg n))
  have hwhole : (ofInt (n : Int)).isWhole = true := rfl
  rw [below?, hvalue, hneg, hwhole]
  simp [h]

end Integers

end Numeral

end SpanFlow.Json
