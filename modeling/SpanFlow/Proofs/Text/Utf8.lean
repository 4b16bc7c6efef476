import SpanFlow.Text.Utf8

namespace SpanFlow.Utf8

theorem toNat_isValid (c : Char) : c.toNat < 0xD800 ∨ (0xDFFF < c.toNat ∧ c.toNat < 0x110000) := c.valid

theorem pieces_one {a : UInt8} (h : a.toNat < 0x80) (r : List UInt8) :
    pieces (a :: r) = some (Char.ofNat a.toNat) :: pieces r := by
  have ha : a < 0x80 := UInt8.lt_iff_toNat_lt.2 h
  rw [pieces.eq_def]
  simp [ha]

theorem pieces_two {a b : UInt8} (h : 0xC2 ≤ a.toNat ∧ a.toNat ≤ 0xDF) (hb : isTail b) (r : List UInt8) :
    pieces (a :: b :: r) = some (join [a.toNat % 32, low b]) :: pieces r := by
  have h1 : ¬a < 0x80 := by rw [UInt8.lt_iff_toNat_lt]; simp; omega
  have h2 : (0xC2 ≤ a && a ≤ 0xDF) = true := by simp [UInt8.le_iff_toNat_le, h]
  rw [pieces.eq_def]
  simp only [if_neg h1, if_pos h2, hb, if_true]

theorem pieces_three {a b c : UInt8} (h : 0xE0 ≤ a.toNat ∧ a.toNat ≤ 0xEF) (hb : isSecondOfThree a b)
    (hc : isTail c) (r : List UInt8) :
    pieces (a :: b :: c :: r) = some (join [a.toNat % 16, low b, low c]) :: pieces r := by
  have h1 : ¬a < 0x80 := by rw [UInt8.lt_iff_toNat_lt]; simp; omega
  have h2 : ¬(0xC2 ≤ a && a ≤ 0xDF) = true := by simp [UInt8.le_iff_toNat_le]; omega
  have h3 : (0xE0 ≤ a && a ≤ 0xEF) = true := by simp [UInt8.le_iff_toNat_le, h]
  rw [pieces.eq_def]
  simp only [if_neg h1, if_neg h2, if_pos h3, hb, hc, if_true]

theorem pieces_four {a b c d : UInt8} (h : 0xF0 ≤ a.toNat ∧ a.toNat ≤ 0xF4) (hb : isSecondOfFour a b)
    (hc : isTail c) (hd : isTail d) (r : List UInt8) :
    pieces (a :: b :: c :: d :: r) = some (join [a.toNat % 8, low b, low c, low d]) :: pieces r := by
  have h1 : ¬a < 0x80 := by rw [UInt8.lt_iff_toNat_lt]; simp; omega
  have h2 : ¬(0xC2 ≤ a && a ≤ 0xDF) = true := by simp [UInt8.le_iff_toNat_le]; omega
  have h3 : ¬(0xE0 ≤ a && a ≤ 0xEF) = true := by simp [UInt8.le_iff_toNat_le]; omega
  have h4 : (0xF0 ≤ a && a ≤ 0xF4) = true := by simp [UInt8.le_iff_toNat_le, h]
  rw [pieces.eq_def]
  simp only [if_neg h1, if_neg h2, if_neg h3, if_pos h4, hb, hc, hd, if_true]

theorem toNat_byte {n : Nat} (h : n < 256) : (UInt8.ofNat n).toNat = n :=
  UInt8.toNat_ofNat_of_lt' h

theorem between_iff (lo hi b : UInt8) :
    (lo ≤ b && b ≤ hi) = true ↔ lo.toNat ≤ b.toNat ∧ b.toNat ≤ hi.toNat := by
  simp [UInt8.le_iff_toNat_le]

theorem isTail_ofNat {n : Nat} (h : n < 64) : isTail (UInt8.ofNat (n + 0x80)) := by
  have hn : (UInt8.ofNat (n + 0x80)).toNat = n + 0x80 := toNat_byte (by omega)
  rw [isTail, between_iff, hn]
  exact ⟨by simp, by simp; omega⟩

theorem low_ofNat {n : Nat} (h : n < 64) : low (UInt8.ofNat (n + 0x80)) = n := by
  have hn : (UInt8.ofNat (n + 0x80)).toNat = n + 0x80 := toNat_byte (by omega)
  rw [low, hn]
  omega

/-- The second byte of a character of three bytes: no overlong forms and no surrogates. -/
theorem isSecondOfThree_ofNat {m n : Nat} (hm : m < 16) (hn : n < 64) (hlow : m = 0 → 32 ≤ n)
    (hsurrogate : m = 13 → n < 32) :
    isSecondOfThree (UInt8.ofNat (m + 0xE0)) (UInt8.ofNat (n + 0x80)) := by
  have hm' : (UInt8.ofNat (m + 0xE0)).toNat = m + 0xE0 := toNat_byte (by omega)
  have hn' : (UInt8.ofNat (n + 0x80)).toNat = n + 0x80 := toNat_byte (by omega)
  unfold isSecondOfThree
  split
  · next h =>
    have hm0 : (UInt8.ofNat (m + 0xE0)).toNat = 0xE0 := congrArg UInt8.toNat h
    rw [between_iff, hn']
    change 0xA0 ≤ n + 0x80 ∧ n + 0x80 ≤ 0xBF
    omega
  · split
    · next h =>
      have hm0 : (UInt8.ofNat (m + 0xE0)).toNat = 0xED := congrArg UInt8.toNat h
      rw [between_iff, hn']
      change 0x80 ≤ n + 0x80 ∧ n + 0x80 ≤ 0x9F
      omega
    · exact isTail_ofNat hn

theorem isSecondOfFour_ofNat {m n : Nat} (hm : m < 8) (hn : n < 64) (hlow : m = 0 → 16 ≤ n)
    (hlast : m = 4 → n < 16) :
    isSecondOfFour (UInt8.ofNat (m + 0xF0)) (UInt8.ofNat (n + 0x80)) := by
  have hm' : (UInt8.ofNat (m + 0xF0)).toNat = m + 0xF0 := toNat_byte (by omega)
  have hn' : (UInt8.ofNat (n + 0x80)).toNat = n + 0x80 := toNat_byte (by omega)
  unfold isSecondOfFour
  split
  · next h =>
    have hm0 : (UInt8.ofNat (m + 0xF0)).toNat = 0xF0 := congrArg UInt8.toNat h
    rw [between_iff, hn']
    change 0x90 ≤ n + 0x80 ∧ n + 0x80 ≤ 0xBF
    omega
  · split
    · next h =>
      have hm0 : (UInt8.ofNat (m + 0xF0)).toNat = 0xF4 := congrArg UInt8.toNat h
      rw [between_iff, hn']
      change 0x80 ≤ n + 0x80 ∧ n + 0x80 ≤ 0x8F
      omega
    · exact isTail_ofNat hn

theorem join_two (x y : Nat) : join [x, y] = Char.ofNat (x * 64 + y) := by simp [join]

theorem join_three (x y z : Nat) : join [x, y, z] = Char.ofNat ((x * 64 + y) * 64 + z) := by simp [join]

theorem join_four (x y z t : Nat) : join [x, y, z, t] = Char.ofNat (((x * 64 + y) * 64 + z) * 64 + t) := by
  simp [join]

theorem pieces_utf8EncodeChar (c : Char) (r : List UInt8) :
    pieces (String.utf8EncodeChar c ++ r) = some c :: pieces r := by
  have hvalid := toNat_isValid c
  have hback : Char.ofNat c.toNat = c := Char.ofNat_toNat c
  have hval : c.val.toNat = c.toNat := rfl
  unfold String.utf8EncodeChar
  simp only [hval]
  split
  · have ha : (UInt8.ofNat c.toNat).toNat = c.toNat := toNat_byte (by omega)
    rw [List.singleton_append, pieces_one (by omega), ha, hback]
  · split
    · have ha : (UInt8.ofNat (c.toNat / 64 % 32 + 0xC0)).toNat = c.toNat / 64 % 32 + 0xC0 :=
        toNat_byte (by omega)
      have hjoin : (c.toNat / 64 % 32 + 0xC0) % 32 * 64 + c.toNat % 64 = c.toNat := by omega
      rw [List.cons_append, List.singleton_append, pieces_two (by omega) (isTail_ofNat (by omega)), ha,
        low_ofNat (by omega), join_two, hjoin, hback]
    · split
      · have ha : (UInt8.ofNat (c.toNat / 4096 % 16 + 0xE0)).toNat = c.toNat / 4096 % 16 + 0xE0 :=
          toNat_byte (by omega)
        have hjoin : ((c.toNat / 4096 % 16 + 0xE0) % 16 * 64 + c.toNat / 64 % 64) * 64 + c.toNat % 64 = c.toNat := by
          omega
        have hsecond := isSecondOfThree_ofNat (m := c.toNat / 4096 % 16) (n := c.toNat / 64 % 64)
          (by omega) (by omega) (by omega) (by omega)
        rw [List.cons_append, List.cons_append, List.singleton_append,
          pieces_three (by omega) hsecond (isTail_ofNat (by omega)), ha, low_ofNat (by omega), low_ofNat (by omega),
          join_three, hjoin, hback]
      · have ha : (UInt8.ofNat (c.toNat / 262144 % 8 + 0xF0)).toNat = c.toNat / 262144 % 8 + 0xF0 :=
          toNat_byte (by omega)
        have hjoin : (((c.toNat / 262144 % 8 + 0xF0) % 8 * 64 + c.toNat / 4096 % 64) * 64 + c.toNat / 64 % 64) * 64 +
            c.toNat % 64 = c.toNat := by omega
        have hsecond := isSecondOfFour_ofNat (m := c.toNat / 262144 % 8) (n := c.toNat / 4096 % 64)
          (by omega) (by omega) (by omega) (by omega)
        rw [List.cons_append, List.cons_append, List.cons_append, List.singleton_append,
          pieces_four (by omega) hsecond (isTail_ofNat (by omega)) (isTail_ofNat (by omega)), ha,
          low_ofNat (by omega), low_ofNat (by omega), low_ofNat (by omega), join_four, hjoin, hback]

theorem pieces_encode (cs : List Char) : pieces (encode cs) = cs.map some := by
  induction cs with
  | nil => simp [encode, pieces]
  | cons c cs ih =>
    rw [encode, List.flatMap_cons, pieces_utf8EncodeChar, List.map_cons]
    exact congrArg _ ih

@[simp] theorem decode?_encode (cs : List Char) : decode? (encode cs) = some cs := by
  rw [decode?, pieces_encode]
  induction cs with
  | nil => rfl
  | cons c cs ih => rw [List.map_cons, List.mapM_cons, ih]; rfl

@[simp] theorem decodeLossy_encode (cs : List Char) : decodeLossy (encode cs) = cs := by
  simp [decodeLossy, pieces_encode, Function.comp_def]

theorem toNat_charOfNat {n : Nat} (h : n < 0xD800 ∨ (0xDFFF < n ∧ n < 0x110000)) : (Char.ofNat n).toNat = n := by
  have hvalid : n.isValidChar := h
  rw [Char.ofNat, dif_pos hvalid]
  rfl

theorem byte_eq {n : Nat} {b : UInt8} (h : n = b.toNat) : UInt8.ofNat n = b := by
  rw [h, UInt8.ofNat_toNat]

theorem toNat_of_isTail {b : UInt8} (h : isTail b) : 0x80 ≤ b.toNat ∧ b.toNat ≤ 0xBF :=
  (between_iff _ _ b).1 h

theorem toNat_of_isSecondOfThree {a b : UInt8} (h : isSecondOfThree a b) :
    (0x80 ≤ b.toNat ∧ b.toNat ≤ 0xBF) ∧ (a.toNat = 0xE0 → 0xA0 ≤ b.toNat) ∧ (a.toNat = 0xED → b.toNat ≤ 0x9F) := by
  unfold isSecondOfThree at h
  split at h
  · next ha =>
    have hb := (between_iff _ _ b).1 h
    subst ha
    change 0xA0 ≤ b.toNat ∧ b.toNat ≤ 0xBF at hb
    exact ⟨by omega, fun _ => hb.1, fun h => absurd h (by decide)⟩
  · next hE0 =>
    split at h
    · next ha =>
      have hb := (between_iff _ _ b).1 h
      subst ha
      change 0x80 ≤ b.toNat ∧ b.toNat ≤ 0x9F at hb
      exact ⟨by omega, fun h => absurd h (by decide), fun _ => hb.2⟩
    · next hED =>
      exact ⟨toNat_of_isTail h, fun ha => absurd (UInt8.toNat_inj.1 ha) hE0, fun ha => absurd (UInt8.toNat_inj.1 ha) hED⟩

theorem toNat_of_isSecondOfFour {a b : UInt8} (h : isSecondOfFour a b) :
    (0x80 ≤ b.toNat ∧ b.toNat ≤ 0xBF) ∧ (a.toNat = 0xF0 → 0x90 ≤ b.toNat) ∧ (a.toNat = 0xF4 → b.toNat ≤ 0x8F) := by
  unfold isSecondOfFour at h
  split at h
  · next ha =>
    have hb := (between_iff _ _ b).1 h
    subst ha
    change 0x90 ≤ b.toNat ∧ b.toNat ≤ 0xBF at hb
    exact ⟨by omega, fun _ => hb.1, fun h => absurd h (by decide)⟩
  · next hF0 =>
    split at h
    · next ha =>
      have hb := (between_iff _ _ b).1 h
      subst ha
      change 0x80 ≤ b.toNat ∧ b.toNat ≤ 0x8F at hb
      exact ⟨by omega, fun h => absurd h (by decide), fun _ => hb.2⟩
    · next hF4 =>
      exact ⟨toNat_of_isTail h, fun ha => absurd (UInt8.toNat_inj.1 ha) hF0, fun ha => absurd (UInt8.toNat_inj.1 ha) hF4⟩

theorem encode_one {a : UInt8} (h : a.toNat < 0x80) : String.utf8EncodeChar (Char.ofNat a.toNat) = [a] := by
  have hc : (Char.ofNat a.toNat).val.toNat = a.toNat := toNat_charOfNat (by omega)
  unfold String.utf8EncodeChar
  simp only [hc]
  rw [if_pos (by omega), UInt8.ofNat_toNat]

theorem encode_two {a b : UInt8} (h : 0xC2 ≤ a.toNat ∧ a.toNat ≤ 0xDF) (hb : isTail b) :
    String.utf8EncodeChar (join [a.toNat % 32, low b]) = [a, b] := by
  have hb' := toNat_of_isTail hb
  have hc : (join [a.toNat % 32, low b]).val.toNat = a.toNat % 32 * 64 + b.toNat % 64 := by
    rw [join_two]
    exact toNat_charOfNat (by unfold low; omega)
  unfold String.utf8EncodeChar
  simp only [hc]
  rw [if_neg (by omega), if_pos (by omega), byte_eq (b := a) (by omega), byte_eq (b := b) (by omega)]

theorem encode_three {a b c : UInt8} (h : 0xE0 ≤ a.toNat ∧ a.toNat ≤ 0xEF) (hb : isSecondOfThree a b) (hc : isTail c) :
    String.utf8EncodeChar (join [a.toNat % 16, low b, low c]) = [a, b, c] := by
  obtain ⟨hb', hlow, hsurrogate⟩ := toNat_of_isSecondOfThree hb
  have hc' := toNat_of_isTail hc
  have hn : (join [a.toNat % 16, low b, low c]).val.toNat =
      (a.toNat % 16 * 64 + b.toNat % 64) * 64 + c.toNat % 64 := by
    rw [join_three]
    exact toNat_charOfNat (by unfold low; omega)
  unfold String.utf8EncodeChar
  simp only [hn]
  rw [if_neg (by omega), if_neg (by omega), if_pos (by omega), byte_eq (b := a) (by omega), byte_eq (b := b) (by omega),
    byte_eq (b := c) (by omega)]

theorem encode_four {a b c d : UInt8} (h : 0xF0 ≤ a.toNat ∧ a.toNat ≤ 0xF4) (hb : isSecondOfFour a b) (hc : isTail c)
    (hd : isTail d) : String.utf8EncodeChar (join [a.toNat % 8, low b, low c, low d]) = [a, b, c, d] := by
  obtain ⟨hb', hlow, hlast⟩ := toNat_of_isSecondOfFour hb
  have hc' := toNat_of_isTail hc
  have hd' := toNat_of_isTail hd
  have hn : (join [a.toNat % 8, low b, low c, low d]).val.toNat =
      ((a.toNat % 8 * 64 + b.toNat % 64) * 64 + c.toNat % 64) * 64 + d.toNat % 64 := by
    rw [join_four]
    exact toNat_charOfNat (by unfold low; omega)
  unfold String.utf8EncodeChar
  simp only [hn]
  rw [if_neg (by omega), if_neg (by omega), if_neg (by omega), byte_eq (b := a) (by omega), byte_eq (b := b) (by omega),
    byte_eq (b := c) (by omega), byte_eq (b := d) (by omega)]

theorem cons_eq_map_some {p : Option Char} {ps : List (Option Char)} {cs : List Char} (h : p :: ps = cs.map some) :
    ∃ c r, cs = c :: r ∧ p = some c ∧ ps = r.map some := by
  obtain ⟨c, r, hcs, hp, hps⟩ := List.map_eq_cons_iff.1 h.symm
  exact ⟨c, r, hcs, hp.symm, hps.symm⟩

theorem encode_of_pieces {bs : List UInt8} {cs : List Char} (h : pieces bs = cs.map some) : encode cs = bs := by
  fun_induction pieces bs generalizing cs
  case case1 =>
    rw [List.map_eq_nil_iff.1 h.symm]
    rfl
  case case2 a r ha ih =>
    obtain ⟨c, cs, rfl, ⟨⟩, hr⟩ := cons_eq_map_some h
    rw [encode, List.flatMap_cons, encode_one (UInt8.lt_iff_toNat_lt.1 ha)]
    exact congrArg _ (ih hr)
  case case3 a _ ha b r hb ih =>
    obtain ⟨c, cs, rfl, ⟨⟩, hr⟩ := cons_eq_map_some h
    rw [encode, List.flatMap_cons, encode_two ((between_iff _ _ a).1 ha) hb]
    exact congrArg _ (ih hr)
  case case6 a _ _ ha b hb c r hc ih =>
    obtain ⟨_, cs, rfl, ⟨⟩, hr⟩ := cons_eq_map_some h
    rw [encode, List.flatMap_cons, encode_three ((between_iff _ _ a).1 ha) hb hc]
    exact congrArg _ (ih hr)
  case case11 a _ _ _ ha b hb c hc d r hd ih =>
    obtain ⟨_, cs, rfl, ⟨⟩, hr⟩ := cons_eq_map_some h
    rw [encode, List.flatMap_cons, encode_four ((between_iff _ _ a).1 ha) hb hc hd]
    exact congrArg _ (ih hr)
  -- Every other sequence begins with a piece that is no character.
  all_goals
    obtain ⟨_, _, _, hnone, _⟩ := cons_eq_map_some h
    cases hnone

theorem eq_map_some_of_mapM {ps : List (Option Char)} {cs : List Char} (h : ps.mapM id = some cs) :
    ps = cs.map some := by
  induction ps generalizing cs with
  | nil =>
    cases h
    rfl
  | cons p ps ih =>
    rw [List.mapM_cons] at h
    obtain ⟨c, hc, h⟩ := Option.bind_eq_some_iff.1 h
    obtain ⟨r, hr, h⟩ := Option.bind_eq_some_iff.1 h
    cases h
    rw [List.map_cons, ← ih hr, ← hc]
    rfl

/-- A sequence is read as a text exactly if it is the bytes of that text. -/
theorem decode?_eq_some_iff {bs : List UInt8} {cs : List Char} : decode? bs = some cs ↔ encode cs = bs := by
  constructor
  · intro h
    exact encode_of_pieces (eq_map_some_of_mapM h)
  · rintro rfl
    exact decode?_encode cs

end SpanFlow.Utf8
