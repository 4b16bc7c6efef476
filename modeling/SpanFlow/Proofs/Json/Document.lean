import SpanFlow.Json.Reader
import SpanFlow.Proofs.Json.Numeral
import SpanFlow.Proofs.Text.Hex

/-!
Documents written and read. A text inside a document is escaped character by character, and so it is read
again. Main statement: a document of nested values is read back from its compact text, whatever its texts
hold and however deep it goes.
-/

namespace SpanFlow.Json

section Texts

theorem codeUnit?_fixed {n : Nat} (h : n < 16 ^ 4) {a b c d : Char} (hfixed : Hex.fixed 4 n = [a, b, c, d]) :
    codeUnit? a b c d = some n := by
  rw [codeUnit?, ← hfixed]
  exact Hex.value?_fixed Hex.digit?_digit h

theorem units_cons {c : Char} (hquote : c ≠ '"') (hslash : c ≠ '\\') (hcontrol : ¬c.toNat < 0x20) (cs : List Char) :
    units (c :: cs) = (units cs).map fun r => (c.toNat :: r.1, r.2) := by
  rw [units.eq_def]
  split
  · next heq => cases heq
  · next heq => exact absurd (List.cons.inj heq).1 hquote
  · next heq => exact absurd (List.cons.inj heq).1 hslash
  · next heq => exact absurd (List.cons.inj heq).1 hslash
  · next c' cs' _ _ _ heq =>
    obtain ⟨rfl, rfl⟩ := List.cons.inj heq
    rw [if_neg (not_or.2 ⟨hcontrol, hslash⟩)]
    cases units cs <;> rfl

theorem units_escape (c : Char) (cs : List Char) :
    units (escape c ++ cs) = (units cs).map fun r => (c.toNat :: r.1, r.2) := by
  have hsimple {e : Char} (he : e ≠ 'u') (hread : simpleEscape? e = some c) :
      units ('\\' :: e :: cs) = (units cs).map fun r => (c.toNat :: r.1, r.2) := by
    rw [units.eq_def]
    split
    · next heq => cases heq
    · next heq => cases heq
    · next heq => exact absurd (List.cons.inj (List.cons.inj heq).2).1 he
    · next e' cs' _ heq =>
      obtain ⟨rfl, rfl⟩ := List.cons.inj (List.cons.inj heq).2
      rw [hread]
      cases units cs <;> rfl
    · next hnone heq =>
      obtain ⟨rfl, rfl⟩ := List.cons.inj heq
      exact absurd rfl (hnone e cs rfl)
  unfold escape
  split_ifs with hquote hslash hback hfeed hline hreturn htab hcontrol
  · exact hsimple (by decide) (by rw [hquote]; rfl)
  · exact hsimple (by decide) (by rw [hslash]; rfl)
  · exact hsimple (by decide) (by rw [hback]; rfl)
  · exact hsimple (by decide) (by rw [hfeed]; rfl)
  · exact hsimple (by decide) (by rw [hline]; rfl)
  · exact hsimple (by decide) (by rw [hreturn]; rfl)
  · exact hsimple (by decide) (by rw [htab]; rfl)
  · obtain ⟨a, b, d, e, hfixed⟩ : ∃ a b d e, Hex.fixed 4 c.toNat = [a, b, d, e] := ⟨_, _, _, _, rfl⟩
    have hunit := codeUnit?_fixed (n := c.toNat) (by omega) hfixed
    rw [hfixed, List.append_assoc]
    simp only [List.cons_append, List.nil_append, units, hunit]
    cases units cs <;> rfl
  · exact units_cons hquote hslash hcontrol cs

theorem units_flatMap_escape (cs rest : List Char) :
    units (cs.flatMap escape ++ '"' :: rest) = some (cs.map Char.toNat, rest) := by
  induction cs with
  | nil => rfl
  | cons c cs ih =>
    rw [List.flatMap_cons, List.append_assoc, units_escape, ih]
    rfl

theorem not_surrogate (c : Char) : isHighSurrogate c.toNat = false ∧ isLowSurrogate c.toNat = false := by
  have hvalid : c.toNat < 0xD800 ∨ (0xDFFF < c.toNat ∧ c.toNat < 0x110000) := c.valid
  simp only [isHighSurrogate, isLowSurrogate, Bool.and_eq_false_iff, decide_eq_false_iff_not]
  omega

theorem assemble_toNat (cs : List Char) : assemble (cs.map Char.toNat) = some cs := by
  induction cs with
  | nil => rfl
  | cons c cs ih =>
    obtain ⟨hhigh, hlow⟩ := not_surrogate c
    rw [List.map_cons, assemble.eq_def]
    simp [hhigh, hlow, ih]

theorem readText_quoted (s : String) (rest : List Char) :
    readText (s.toList.flatMap escape ++ '"' :: rest) = some (some s, rest) := by
  rw [readText, units_flatMap_escape]
  simp [assemble_toNat]

end Texts

/-- A document that its text shows: numerals that have a text, and no garbled texts. -/
inductive Proper : Json → Prop
  | null : Proper .null
  | bool (b : Bool) : Proper (.bool b)
  | number {n : Numeral} (hn : n.Proper) : Proper (.number n)
  | text (s : String) : Proper (.text s)
  | list {items : List Json} (hitems : ∀ j ∈ items, Proper j) : Proper (.list items)
  | record {fields : List (Option String × Json)} (hkeys : ∀ e ∈ fields, e.1.isSome)
      (hvalues : ∀ e ∈ fields, Proper e.2) : Proper (.record fields)

section Layout

theorem itemChars_eq (items : List Json) : itemChars items = items.map chars := by
  induction items with
  | nil => rfl
  | cons j items ih => rw [itemChars, ih, List.map_cons]

theorem fieldChars_eq (fields : List (Option String × Json)) :
    fieldChars fields = fields.map fun e => quoted (e.1.getD "") ++ ':' :: e.2.chars := by
  induction fields with
  | nil => rfl
  | cons e fields ih => rw [fieldChars, ih, List.map_cons]

theorem skip_cons {c : Char} (h : isSpace c = false) (cs : List Char) : skip (c :: cs) = c :: cs := by
  simp [skip, h]

/-- A value begins with neither a blank nor a closing mark, and a value that is a number begins so that it is
read as one. -/
theorem Proper.starts {j : Json} (h : j.Proper) :
    ∃ c cs, j.chars = c :: cs ∧ isSpace c = false ∧ c ≠ ']' ∧ c ≠ '\x7d' := by
  cases h with
  | null => exact ⟨_, _, rfl, by decide⟩
  | bool b => cases b <;> exact ⟨_, _, rfl, by decide⟩
  | text s => exact ⟨_, _, rfl, by decide⟩
  | list _ => exact ⟨_, _, rfl, by decide⟩
  | record _ _ => exact ⟨_, _, rfl, by decide⟩
  | @number n hn =>
    have hdigit (d : Fin 10) : isSpace (Decimal.digitChar d) = false ∧ Decimal.digitChar d ≠ ']' ∧ Decimal.digitChar d ≠ '\x7d' := by
      revert d
      decide
    obtain ⟨d, ds, hwhole⟩ := List.exists_cons_of_ne_nil hn.whole
    rw [chars, Numeral.render_eq, hwhole]
    cases n.negative with
    | true => exact ⟨_, _, rfl, by decide⟩
    | false => exact ⟨_, _, rfl, hdigit d⟩

end Layout

/-- A value is read back in front of whatever may follow it, in as many steps as its text is long. -/
def ReadBack (j : Json) : Prop :=
  ∀ fuel rest, j.chars.length ≤ fuel → Ends rest → readValue fuel (j.chars ++ rest) = some (j, rest)

section Reading

variable {fuel : Nat} {rest : List Char}

theorem fuel_of_lt {n : Nat} (h : n < fuel) : ∃ k, fuel = k + 1 :=
  Nat.exists_eq_add_one.2 (Nat.zero_lt_of_lt h)

theorem readBack_number {n : Numeral} (hn : n.Proper) : (number n).ReadBack := by
  intro fuel rest hfuel hrest
  have hread := Numeral.read_render hn hrest
  obtain ⟨c, cs, hchars, hspace, -, -⟩ := (Proper.number hn).starts
  have hdigit (d : Fin 10) : Decimal.digitChar d ∉ ['"', '[', '\x7b', 't', 'f', 'n'] := by
    revert d
    decide
  have hmarks : c ∉ ['"', '[', '\x7b', 't', 'f', 'n'] := by
    obtain ⟨d, ds, hwhole⟩ := List.exists_cons_of_ne_nil hn.whole
    rw [chars, Numeral.render_eq, hwhole] at hchars
    cases hneg : n.negative with
    | true =>
      rw [hneg] at hchars
      obtain ⟨rfl, -⟩ := List.cons.inj hchars
      decide
    | false =>
      rw [hneg] at hchars
      obtain ⟨rfl, -⟩ := List.cons.inj hchars
      exact hdigit d
  rw [chars] at hchars hfuel ⊢
  rw [hchars] at hread hfuel ⊢
  obtain ⟨fuel, rfl⟩ := fuel_of_lt (Nat.lt_of_lt_of_le (Nat.lt_succ_self cs.length) hfuel)
  rw [List.cons_append] at hread ⊢
  rw [readValue, skip_cons hspace]
  simp only [List.mem_cons, List.not_mem_nil, or_false, not_or] at hmarks
  simp [hmarks, hread]

theorem readItems_chars {items : List Json} (hne : items ≠ []) (hread : ∀ j ∈ items, j.ReadBack)
    (hfuel : (commaSeparated (items.map chars)).length < fuel) :
    readItems fuel (commaSeparated (items.map chars) ++ ']' :: rest) = some (items, rest) := by
  induction items generalizing fuel with
  | nil => exact absurd rfl hne
  | cons j items ih =>
    obtain ⟨fuel, rfl⟩ := fuel_of_lt hfuel
    have hj := hread j List.mem_cons_self fuel
    cases items with
    | nil =>
      have hvalue := hj (']' :: rest) (Nat.le_of_lt_succ hfuel) fun c hc => .inr (.inl (by simpa using hc.symm))
      rw [List.map_singleton, commaSeparated, readItems, hvalue]
      rfl
    | cons k items =>
      simp only [List.map_cons, commaSeparated, List.length_append, List.length_cons] at hfuel
      have hvalue (more : List Char) := hj (',' :: more) (by omega) fun c hc => .inl (by simpa using hc.symm)
      have hitems := @ih fuel (List.cons_ne_nil k items) (fun i hi => hread i (List.mem_cons_of_mem _ hi))
      simp only [List.map_cons] at hitems
      simp only [List.map_cons, commaSeparated, List.append_assoc, List.cons_append]
      rw [readItems, hvalue]
      simp only [Option.bind_eq_bind, Option.bind_some, skip_cons (show isSpace ',' = false from rfl)]
      rw [hitems (by omega)]
      rfl

theorem readFields_chars {fields : List (String × Json)} (hne : fields ≠ []) (hread : ∀ e ∈ fields, e.2.ReadBack)
    (hfuel : (commaSeparated (fields.map fun e => quoted e.1 ++ ':' :: e.2.chars)).length < fuel) :
    readFields fuel (commaSeparated (fields.map fun e => quoted e.1 ++ ':' :: e.2.chars) ++ '\x7d' :: rest) =
      some (fields.map fun e => (some e.1, e.2), rest) := by
  have hkey (k : String) (more : List Char) : ∃ more', quoted k ++ more = '"' :: more' ∧ readText more' = some (some k, more) := by
    refine ⟨_, ?_, readText_quoted k more⟩
    simp [quoted]
  induction fields generalizing fuel with
  | nil => exact absurd rfl hne
  | cons e fields ih =>
    obtain ⟨k, j⟩ := e
    obtain ⟨fuel, rfl⟩ := fuel_of_lt hfuel
    have hj := hread (k, j) List.mem_cons_self fuel
    cases fields with
    | nil =>
      simp only [List.map_cons, List.map_nil, commaSeparated, List.length_append, List.length_cons] at hfuel
      have hvalue := hj ('\x7d' :: rest) (by dsimp only; omega) fun c hc => .inr (.inr (by simpa using hc.symm))
      obtain ⟨more, hquoted, htext⟩ := hkey k (':' :: (j.chars ++ '\x7d' :: rest))
      simp only [List.map_cons, List.map_nil, commaSeparated, List.append_assoc, List.cons_append]
      rw [hquoted, readFields, skip_cons rfl]
      simp only [Option.bind_eq_bind, htext, Option.bind_some, skip_cons (show isSpace ':' = false from rfl), hvalue]
      rfl
    | cons e fields =>
      simp only [List.map_cons, commaSeparated, List.length_append, List.length_cons] at hfuel
      have hvalue (more : List Char) := hj (',' :: more) (by dsimp only; omega) fun c hc => .inl (by simpa using hc.symm)
      have hfields := @ih fuel (List.cons_ne_nil e fields) (fun i hi => hread i (List.mem_cons_of_mem _ hi))
      simp only [List.map_cons] at hfields
      simp only [List.map_cons, commaSeparated, List.append_assoc, List.cons_append]
      obtain ⟨more, hquoted, htext⟩ := hkey k (':' :: (j.chars ++ ',' ::
        (commaSeparated ((quoted e.1 ++ ':' :: e.2.chars) :: fields.map fun e => quoted e.1 ++ ':' :: e.2.chars) ++ '\x7d' :: rest)))
      rw [hquoted, readFields, skip_cons rfl]
      simp only [Option.bind_eq_bind, htext, Option.bind_some, skip_cons (show isSpace ':' = false from rfl), hvalue,
        skip_cons (show isSpace ',' = false from rfl)]
      rw [hfields (by omega)]
      rfl

end Reading

section Documents

theorem length_between (c d : Char) (cs : List Char) : (c :: (cs ++ [d])).length = cs.length + 2 := by
  simp

theorem commaSeparated_cons (a : List Char) (parts : List (List Char)) :
    ∃ more, commaSeparated (a :: parts) = a ++ more := by
  cases parts with
  | nil => exact ⟨[], (List.append_nil a).symm⟩
  | cons b parts => exact ⟨_, rfl⟩

theorem readBack_list {items : List Json} (hitems : ∀ j ∈ items, Proper j) (hread : ∀ j ∈ items, j.ReadBack) :
    (list items).ReadBack := by
  intro fuel rest hfuel _
  rw [chars, itemChars_eq] at hfuel ⊢
  rw [length_between] at hfuel
  have hpos : 0 < fuel := by omega
  obtain ⟨fuel, rfl⟩ := fuel_of_lt hpos
  rw [List.cons_append, List.append_assoc, List.singleton_append, readValue, skip_cons rfl]
  cases items with
  | nil => rfl
  | cons j items =>
    obtain ⟨c, cs, hchars, hspace, hclose, -⟩ := (hitems j List.mem_cons_self).starts
    obtain ⟨more, hmore⟩ := commaSeparated_cons j.chars (items.map chars)
    have hstart : commaSeparated ((j :: items).map chars) ++ ']' :: rest = c :: (cs ++ (more ++ ']' :: rest)) := by
      rw [List.map_cons, hmore, hchars, List.append_assoc, List.cons_append]
    have hread := @readItems_chars fuel rest _ (List.cons_ne_nil j items) hread (by omega)
    rw [hstart] at hread ⊢
    simp [skip_cons hspace, hclose, hread]

theorem readBack_record {fields : List (String × Json)} (hread : ∀ e ∈ fields, e.2.ReadBack) :
    (obj fields).ReadBack := by
  intro fuel rest hfuel _
  have hparts : fieldChars (fields.map fun e => (some e.1, e.2)) = fields.map fun e => quoted e.1 ++ ':' :: e.2.chars := by
    rw [fieldChars_eq, List.map_map]
    rfl
  rw [obj, chars, hparts] at hfuel ⊢
  rw [length_between] at hfuel
  have hpos : 0 < fuel := by omega
  obtain ⟨fuel, rfl⟩ := fuel_of_lt hpos
  rw [List.cons_append, List.append_assoc, List.singleton_append, readValue, skip_cons rfl]
  cases fields with
  | nil => rfl
  | cons e fields =>
    obtain ⟨more, hmore⟩ := commaSeparated_cons (quoted e.1 ++ ':' :: e.2.chars)
      (fields.map fun e => quoted e.1 ++ ':' :: e.2.chars)
    have hstart : ∃ cs, commaSeparated ((e :: fields).map fun e => quoted e.1 ++ ':' :: e.2.chars) ++ '\x7d' :: rest =
        '"' :: cs := by
      rw [List.map_cons, hmore, quoted]
      exact ⟨_, rfl⟩
    obtain ⟨cs, hstart⟩ := hstart
    have hread := @readFields_chars fuel rest _ (List.cons_ne_nil e fields) hread (by omega)
    rw [hstart] at hread ⊢
    simp [skip_cons (show isSpace '"' = false from rfl), hread]

theorem fields_of_isSome {fields : List (Option String × Json)} (h : ∀ e ∈ fields, e.1.isSome) :
    ∃ named : List (String × Json), fields = named.map fun e => (some e.1, e.2) := by
  refine ⟨fields.map fun e => (e.1.getD "", e.2), ?_⟩
  rw [List.map_map]
  refine (List.map_congr_left fun e he => ?_).trans (List.map_id fields) |>.symm
  obtain ⟨k, hk⟩ := Option.isSome_iff_exists.1 (h e he)
  exact Prod.ext (by simp [hk]) rfl

theorem Proper.readBack {j : Json} (h : j.Proper) : j.ReadBack := by
  induction h with
  | null =>
    intro fuel rest hfuel _
    obtain ⟨fuel, rfl⟩ := fuel_of_lt (Nat.lt_of_lt_of_le (n := 0) (by decide) hfuel)
    rfl
  | bool b =>
    intro fuel rest hfuel _
    obtain ⟨fuel, rfl⟩ := fuel_of_lt (Nat.lt_of_lt_of_le (n := 0) (by cases b <;> decide) hfuel)
    cases b <;> rfl
  | number hn => exact readBack_number hn
  | text s =>
    intro fuel rest hfuel _
    obtain ⟨fuel, rfl⟩ := fuel_of_lt (Nat.lt_of_lt_of_le (n := 0) (Nat.succ_pos _) hfuel)
    rw [chars, quoted, List.cons_append, List.cons_append, List.append_assoc, List.singleton_append]
    simp [readValue, skip_cons (show isSpace '"' = false from rfl), readText_quoted]
  | list hitems ih => exact readBack_list hitems ih
  | record hkeys _ ih =>
    obtain ⟨named, rfl⟩ := fields_of_isSome hkeys
    exact readBack_record fun e he => ih _ (List.mem_map_of_mem he)

/-- **A document is read back from its text**: nothing about it is lost, neither the escapes of a text, nor the
digits of a numeral, nor the order of a record's fields. -/
theorem parse?_render {j : Json} (h : j.Proper) : parse? j.render = some j := by
  have hread := h.readBack (2 * j.chars.length + 2) [] (by omega) fun _ hc => nomatch hc
  rw [List.append_nil] at hread
  rw [parse?, render, String.toList_ofList]
  simp only [hread]
  rfl

end Documents

end SpanFlow.Json
