import SpanFlow.Proofs.Text.Hex
import SpanFlow.Proofs.Text.Utf8
import SpanFlow.Text.Blank
import SpanFlow.Text.Percent

namespace SpanFlow.Percent

def isEncoded (c : Char) : Bool :=
  isPlain c || c == '%'

theorem isPlain_capital : ∀ n < 16, isPlain (Hex.capital n) = true := by decide

theorem isEncoded_of_mem_encode {c : Char} {cs : List Char} (h : c ∈ encode cs) : isEncoded c = true := by
  obtain ⟨d, -, hd⟩ := List.mem_flatMap.1 h
  by_cases hp : isPlain d
  · rw [if_pos hp, List.mem_singleton] at hd
    rw [isEncoded, hd, hp, Bool.true_or]
  · rw [if_neg hp] at hd
    obtain ⟨b, -, hb⟩ := List.mem_flatMap.1 hd
    have hb256 : b.toNat < 256 := b.toNat_lt
    have hdigits : c = '%' ∨ c = Hex.capital (b.toNat / 16) ∨ c = Hex.capital (b.toNat % 16) := by
      simpa [escapeByte] using hb
    rcases hdigits with rfl | rfl | rfl
    · decide
    · rw [isEncoded, isPlain_capital _ (by omega), Bool.true_or]
    · rw [isEncoded, isPlain_capital _ (by omega), Bool.true_or]

theorem range_of_isEncoded {c : Char} (h : isEncoded c = true) : 0x20 < c.toNat ∧ c.toNat < 0x7F := by
  by_cases hc : c = '%'
  · rw [hc]
    decide
  · have hplain : isPlain c = true := by simpa [isEncoded, hc] using h
    simp only [isPlain, Bool.and_eq_true, decide_eq_true_eq, Bool.not_eq_true'] at hplain
    obtain ⟨⟨hlow, hhigh⟩, hreserved⟩ := hplain
    have hblank : c.toNat ≠ 0x20 := by
      intro h20
      have hc : c = ' ' := by rw [← Char.ofNat_toNat c, h20]
      rw [hc] at hreserved
      exact absurd hreserved (by decide)
    omega

theorem not_isBlank_of_isEncoded {c : Char} (h : isEncoded c = true) : Blank.isBlank c = false := by
  have hrange := range_of_isEncoded h
  simp [Blank.isBlank, Blank.ranges]
  omega

theorem ne_of_isEncoded {c : Char} (h : isEncoded c = true) : c ≠ ',' ∧ c ≠ ';' ∧ c ≠ '=' := by
  refine ⟨?_, ?_, ?_⟩ <;>
  · rintro rfl
    exact absurd h (by decide)

theorem bytes_cons {c : Char} (hc : c ≠ '%') (r : List Char) :
    bytes (c :: r) = String.utf8EncodeChar c ++ bytes r := by
  rw [bytes.eq_def]
  split
  · next h => exact nomatch h
  · next h =>
    injection h with h
    exact absurd h hc
  · next h =>
    injection h with h hr
    rw [h, hr]

theorem bytes_escapeByte (b : UInt8) (r : List Char) : bytes (escapeByte b ++ r) = b :: bytes r := by
  have hb : b.toNat < 256 := b.toNat_lt
  have hpair : pair? (Hex.capital (b.toNat / 16)) (Hex.capital (b.toNat % 16)) = some b := by
    have hjoin : b.toNat / 16 * 16 + b.toNat % 16 = b.toNat := by omega
    rw [pair?, Hex.digit?_capital _ (by omega), Hex.digit?_capital _ (by omega)]
    change some (UInt8.ofNat (b.toNat / 16 * 16 + b.toNat % 16)) = some b
    rw [hjoin, UInt8.ofNat_toNat]
  rw [escapeByte]
  simp only [List.cons_append, List.nil_append, bytes, hpair]

theorem bytes_escape (bs : List UInt8) (r : List Char) :
    bytes (bs.flatMap escapeByte ++ r) = bs ++ bytes r := by
  induction bs with
  | nil => rfl
  | cons b bs ih => rw [List.flatMap_cons, List.append_assoc, bytes_escapeByte, ih, List.cons_append]

theorem bytes_encode (cs : List Char) : bytes (encode cs) = Utf8.encode cs := by
  induction cs with
  | nil => rfl
  | cons c cs ih =>
    rw [encode, List.flatMap_cons, Utf8.encode, List.flatMap_cons]
    by_cases hc : isPlain c
    · have hne : c ≠ '%' := by
        rintro rfl
        exact absurd hc (by decide)
      rw [if_pos hc, List.singleton_append, bytes_cons hne]
      exact congrArg _ ih
    · rw [if_neg hc, bytes_escape]
      exact congrArg _ ih

theorem utf8EncodeChar_ne_nil (c : Char) : String.utf8EncodeChar c ≠ [] := by
  intro h
  have hlen := congrArg List.length h
  rw [String.length_utf8EncodeChar] at hlen
  exact absurd hlen (Nat.ne_of_gt c.utf8Size_pos)

theorem bytes_eq_nil_iff {cs : List Char} : bytes cs = [] ↔ cs = [] := by
  refine ⟨fun h => ?_, fun h => by rw [h]; rfl⟩
  unfold bytes at h
  split at h
  · rfl
  · next a b r =>
    split at h
    · cases h
    · exact absurd (List.append_eq_nil_iff.1 h).1 (utf8EncodeChar_ne_nil '%')
  · next c r hc => exact absurd (List.append_eq_nil_iff.1 h).1 (utf8EncodeChar_ne_nil c)

@[simp] theorem decode?_encode (cs : List Char) : decode? (encode cs) = some cs := by
  rw [decode?, bytes_encode, Utf8.decode?_encode]

end SpanFlow.Percent
