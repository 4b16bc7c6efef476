import SpanFlow.Proofs.Propagation.TraceContext
import SpanFlow.Proofs.Text.Blank
import SpanFlow.Proofs.Text.Numeral

/-!
The grammar of the parent header: version, trace, span and flags with dashes between them, and in versions
other than `00` whatever may follow a further dash. Main statement: between blanks exactly the texts of
this grammar are read, as the numbers that their digits denote.
-/

namespace SpanFlow.TraceContext

theorem of_splitAt_eq_cons {sep : Char} {cs a : List Char} {parts : List (List Char)}
    (h : splitAt sep cs = a :: parts) :
    sep ∉ a ∧ (cs = a ∧ parts = [] ∨ ∃ r, cs = a ++ sep :: r ∧ splitAt sep r = parts) := by
  induction cs generalizing a with
  | nil =>
    cases h
    exact ⟨by simp, .inl ⟨rfl, rfl⟩⟩
  | cons c cs ih =>
    by_cases hc : c = sep
    · rw [splitAt, if_pos hc] at h
      cases h
      exact ⟨by simp, .inr ⟨cs, by rw [hc, List.nil_append], rfl⟩⟩
    · rw [splitAt, if_neg hc] at h
      cases hs : splitAt sep cs with
      | nil => exact absurd hs (splitAt_ne_nil sep cs)
      | cons b l =>
        rw [hs] at h
        cases h
        obtain ⟨hb, hrest⟩ := ih hs
        refine ⟨by simp [hb, Ne.symm hc], ?_⟩
        rcases hrest with ⟨rfl, rfl⟩ | ⟨r, rfl, hr⟩
        · exact .inl ⟨rfl, rfl⟩
        · exact .inr ⟨r, rfl, hr⟩

structure ParentFields where
  version : List Char
  trace : List Char
  span : List Char
  flags : List Char
  tail : List Char

namespace ParentFields

def text (f : ParentFields) : List Char :=
  f.version ++ '-' :: (f.trace ++ '-' :: (f.span ++ '-' :: (f.flags ++ f.tail)))

structure Grammatical (f : ParentFields) : Prop where
  version : Hex.LowerRow 2 f.version
  version_ne : f.version ≠ ['f', 'f']
  trace : Hex.LowerRow 32 f.trace
  trace_ne : ∃ c ∈ f.trace, c ≠ '0'
  span : Hex.LowerRow 16 f.span
  span_ne : ∃ c ∈ f.span, c ≠ '0'
  flags : Hex.LowerRow 2 f.flags
  tail : f.tail = [] ∨ f.version ≠ ['0', '0'] ∧ ∃ more, f.tail = '-' :: more

/-- The parent has the numbers that the fields denote, and is sampled by the lowest bit of the flags. -/
structure Denotes (f : ParentFields) (p : Parent) : Prop where
  trace : p.trace.toNat = Hex.number f.trace
  span : p.span.toNat = Hex.number f.span
  sampled : p.sampled = (Hex.number f.flags).testBit 0

def more (f : ParentFields) : List (List Char) :=
  match f.tail with
  | [] => []
  | _ :: r => splitAt '-' r

def parent (f : ParentFields) : Parent :=
  ⟨BitVec.ofNat 128 (Hex.number f.trace), BitVec.ofNat 64 (Hex.number f.span), Hex.number f.flags % 2 = 1⟩

end ParentFields

theorem dash_not_mem {width : Nat} {cs : List Char} (h : Hex.LowerRow width cs) : '-' ∉ cs :=
  fun hmem => absurd (h.mem '-' hmem) (by decide)

namespace ParentFields.Grammatical

variable {f : ParentFields}

theorem more_eq_nil (h : f.Grammatical) (hversion : f.version = ['0', '0']) : f.more = [] := by
  rcases h.tail with htail | ⟨hne, -⟩
  · rw [more, htail]
  · exact absurd hversion hne

theorem splitAt_text (h : f.Grammatical) : splitAt '-' f.text = f.version :: f.trace :: f.span :: f.flags :: f.more := by
  have hlast : splitAt '-' (f.flags ++ f.tail) = f.flags :: f.more := by
    rcases h.tail with htail | ⟨-, r, htail⟩
    · rw [more, htail, List.append_nil, splitAt_of_not_mem (dash_not_mem h.flags)]
    · rw [more, htail, splitAt_append (dash_not_mem h.flags)]
  rw [text, splitAt_append (dash_not_mem h.version), splitAt_append (dash_not_mem h.trace),
    splitAt_append (dash_not_mem h.span), hlast]

theorem parentOfParts_eq (h : f.Grammatical) :
    parentOfParts (f.version :: f.trace :: f.span :: f.flags :: f.more) = some f.parent := by
  have hlast : Hex.number f.version ≠ 255 := by
    intro heq
    exact h.version_ne (h.version.eq_of_number_eq ⟨rfl, forall_mem_of_all (by decide)⟩ heq)
  have hfirst : ¬(Hex.number f.version = 0 ∧ f.more ≠ []) := by
    rintro ⟨hzero, hmore⟩
    exact hmore (h.more_eq_nil (h.version.eq_of_number_eq ⟨rfl, forall_mem_of_all (by decide)⟩ hzero))
  have ht : Hex.number f.trace ≠ 0 := h.trace.number_ne_zero_iff.2 h.trace_ne
  have hs : Hex.number f.span ≠ 0 := h.span.number_ne_zero_iff.2 h.span_ne
  rw [parentOfParts, Hex.ofWidth?_eq_some_iff.2 ⟨h.version, rfl⟩, Hex.ofWidth?_eq_some_iff.2 ⟨h.trace, rfl⟩,
    Hex.ofWidth?_eq_some_iff.2 ⟨h.span, rfl⟩, Hex.ofWidth?_eq_some_iff.2 ⟨h.flags, rfl⟩]
  simp [hlast, hfirst, ht, hs, parent]

theorem denotes_parent (h : f.Grammatical) : f.Denotes f.parent where
  trace := by
    rw [parent, BitVec.toNat_ofNat]
    exact Nat.mod_eq_of_lt h.trace.number_lt
  span := by
    rw [parent, BitVec.toNat_ofNat]
    exact Nat.mod_eq_of_lt h.span.number_lt
  sampled := by rw [parent, Nat.testBit_zero]

theorem parseParent_eq (h : f.Grammatical) {value : String} (hvalue : Blank.Strips value.toList f.text) :
    parseParent value = some f.parent := by
  rw [parseParent, Blank.trim_of_strips hvalue, h.splitAt_text, h.parentOfParts_eq]

end ParentFields.Grammatical

theorem of_splitAt_eq_cons_cons {sep : Char} {cs a b : List Char} {parts : List (List Char)}
    (h : splitAt sep cs = a :: b :: parts) : ∃ r, cs = a ++ sep :: r ∧ splitAt sep r = b :: parts := by
  rcases (of_splitAt_eq_cons h).2 with ⟨-, hnil⟩ | hrest
  · exact nomatch hnil
  · exact hrest

theorem of_parentOfParts {parts : List (List Char)} {p : Parent} (h : parentOfParts parts = some p) :
    ∃ version trace span flags more, parts = version :: trace :: span :: flags :: more ∧
      Hex.LowerRow 2 version ∧ Hex.number version ≠ 255 ∧ (Hex.number version = 0 → more = []) ∧
      Hex.LowerRow 32 trace ∧ Hex.number trace ≠ 0 ∧ Hex.LowerRow 16 span ∧ Hex.number span ≠ 0 ∧
      Hex.LowerRow 2 flags := by
  unfold parentOfParts at h
  split at h
  · next version trace span flags more =>
    simp only [Option.bind_eq_bind, Option.bind_eq_some_iff, Hex.ofWidth?_eq_some_iff] at h
    obtain ⟨v, ⟨hversion, rfl⟩, h⟩ := h
    split at h
    · cases h
    · next hv =>
      simp only [Option.bind_eq_some_iff, Hex.ofWidth?_eq_some_iff] at h
      obtain ⟨t, ⟨htrace, rfl⟩, s, ⟨hspan, rfl⟩, b, ⟨hflags, -⟩, h⟩ := h
      split at h
      · cases h
      · next hids =>
        rw [not_or] at hv hids
        refine ⟨version, trace, span, flags, more, rfl, hversion, hv.1, fun hzero => ?_, htrace, hids.1, hspan, hids.2,
          hflags⟩
        simpa [hzero] using hv.2
  · cases h

theorem exists_fields {cs : List Char} {p : Parent} (h : parentOfParts (splitAt '-' cs) = some p) :
    ∃ f : ParentFields, f.Grammatical ∧ cs = f.text := by
  obtain ⟨version, trace, span, flags, more, hparts, hversion, hlast, hfirst, htrace, ht, hspan, hs, hflags⟩ :=
    of_parentOfParts h
  obtain ⟨r₁, rfl, h₁⟩ := of_splitAt_eq_cons_cons hparts
  obtain ⟨r₂, rfl, h₂⟩ := of_splitAt_eq_cons_cons h₁
  obtain ⟨r₃, rfl, h₃⟩ := of_splitAt_eq_cons_cons h₂
  have hff : version ≠ ['f', 'f'] := by
    rintro rfl
    exact hlast (by decide)
  -- What stands behind the flags is nothing, or it begins with a dash.
  obtain ⟨tail, rfl, htail⟩ : ∃ tail, r₃ = flags ++ tail ∧
      (tail = [] ∨ version ≠ ['0', '0'] ∧ ∃ further, tail = '-' :: further) := by
    rcases (of_splitAt_eq_cons h₃).2 with ⟨rfl, -⟩ | ⟨further, rfl, hmore⟩
    · exact ⟨[], by rw [List.append_nil], .inl rfl⟩
    · refine ⟨'-' :: further, rfl, .inr ⟨?_, further, rfl⟩⟩
      rintro rfl
      rw [hfirst (by decide)] at hmore
      exact splitAt_ne_nil '-' further hmore
  exact ⟨⟨version, trace, span, flags, tail⟩, ⟨hversion, hff, htrace, htrace.number_ne_zero_iff.1 ht, hspan,
    hspan.number_ne_zero_iff.1 hs, hflags, htail⟩, rfl⟩

theorem get?_parent_inject (c : Context) (m : KeyMap String) :
    ∃ m', propagator.inject c m = .ok () m' ∧ m'.get? parentKey = some (parentText c) := by
  have hkeys : baggageKey ≠ parentKey := by decide
  by_cases hempty : c.baggage.isEmpty = true
  · refine ⟨m.insert parentKey (parentText c), ?_, KeyMap.get?_insert_self _ _ _⟩
    simp only [propagator, Propagator.ofEntries, written, if_pos hempty]
    rfl
  · refine ⟨(m.insert parentKey (parentText c)).insert baggageKey (baggageText c.baggage.entries), ?_, ?_⟩
    · simp only [propagator, Propagator.ofEntries, written, if_neg hempty]
      rfl
    · rw [KeyMap.get?_insert_of_ne _ hkeys, KeyMap.get?_insert_self]

/-- A text is read as a parent exactly if it is in the grammar once the blanks around it are taken away, and
then as the numbers that its digits denote. What is written for identifiers that are not zero is read back. -/
theorem parent_read_iff_grammatical :
    (∀ value : String, (parseParent value).isSome = true ↔
      ∃ f : ParentFields, f.Grammatical ∧ Blank.Strips value.toList f.text) ∧
    (∀ (value : String) (f : ParentFields) (p : Parent), f.Grammatical → Blank.Strips value.toList f.text →
      parseParent value = some p → f.Denotes p) ∧
    ∀ (c : Context) (m : KeyMap String), c.trace ≠ 0 → c.span ≠ 0 →
      ∃ m' v, propagator.inject c m = .ok () m' ∧ m'.get? parentKey = some v ∧
        parseParent v = some ⟨c.trace, c.span, c.sampled⟩ := by
  refine ⟨fun value => ⟨fun h => ?_, ?_⟩, fun value f p hf hvalue hp => ?_, fun c m htrace hspan => ?_⟩
  · obtain ⟨p, hp⟩ := Option.isSome_iff_exists.1 h
    obtain ⟨f, hf, htext⟩ := exists_fields hp
    exact ⟨f, hf, htext ▸ Blank.strips_trim value.toList⟩
  · rintro ⟨f, hf, hvalue⟩
    rw [hf.parseParent_eq hvalue, Option.isSome_some]
  · rw [hf.parseParent_eq hvalue] at hp
    cases hp
    exact hf.denotes_parent
  · obtain ⟨m', hput, hfound⟩ := get?_parent_inject c m
    exact ⟨m', parentText c, hput, hfound, parseParent_parentText htrace hspan⟩

/-- A later version with more behind the flags and blanks around it, and what is written over it. -/
theorem parent_read_iff_grammatical_later :
    let value := "\t01-ffffffffffffffffffffffffffffffff-00000000000000f7-fe-a b- \n"
    let m := KeyMap.empty.insert parentKey value
    (∃ p, parseParent value = some p ∧ p.trace.toNat = 2 ^ 128 - 1 ∧ p.span.toNat = 0xF7 ∧ p.sampled = false) ∧
      ∃ m' v, propagator.inject (Context.new 1 2 true) m = .ok () m' ∧ m'.get? parentKey = some v ∧
        parseParent v = some ⟨1, 2, true⟩ := by
  intro value m
  let f : ParentFields :=
    ⟨"01".toList, "ffffffffffffffffffffffffffffffff".toList, "00000000000000f7".toList, "fe".toList, "-a b-".toList⟩
  have hf : f.Grammatical :=
    ⟨⟨rfl, forall_mem_of_all (by decide)⟩, by decide, ⟨rfl, forall_mem_of_all (by decide)⟩, ⟨'f', by decide, by decide⟩,
      ⟨rfl, forall_mem_of_all (by decide)⟩, ⟨'f', by decide, by decide⟩, ⟨rfl, forall_mem_of_all (by decide)⟩,
      .inr ⟨by decide, "a b-".toList, rfl⟩⟩
  have hvalue : Blank.Strips value.toList f.text :=
    ⟨⟨['\t'], [' ', '\n'], by decide +kernel, forall_mem_of_all (by decide), forall_mem_of_all (by decide)⟩, fun c hc => by cases hc; decide,
      fun c hc => by cases hc; decide⟩
  obtain ⟨hread, hnumbers, hwritten⟩ := parent_read_iff_grammatical
  obtain ⟨p, hp⟩ := Option.isSome_iff_exists.1 ((hread value).2 ⟨f, hf, hvalue⟩)
  have hdenotes := hnumbers value f p hf hvalue hp
  refine ⟨⟨p, hp, ?_, ?_, ?_⟩, hwritten (Context.new 1 2 true) m (by decide) (by decide)⟩
  · rw [hdenotes.trace]
    decide +kernel
  · rw [hdenotes.span]
    decide +kernel
  · rw [hdenotes.sampled]
    decide +kernel

/-- The first version ends with its flags. -/
example : parseParent "00-0000000000000000000000000000002a-0000000000000007-01-" = none := by decide +kernel

end SpanFlow.TraceContext
