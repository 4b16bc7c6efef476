import SpanFlow.Proofs.Propagation.Entries
import SpanFlow.Proofs.Text.Blank
import SpanFlow.Proofs.Text.Percent
import SpanFlow.Propagation.TraceContext

namespace SpanFlow

namespace TraceContext

theorem parent_mem_written (c : Context) : (parentKey, parentText c) ∈ written c := by
  unfold written
  split <;> simp

theorem eq_of_mem_written {c : Context} {e : String × String} (he : e ∈ written c) :
    e = (parentKey, parentText c) ∨ e = (baggageKey, baggageText c.baggage.entries) := by
  unfold written at he
  split at he
  · exact .inl (List.mem_singleton.1 he)
  · simpa using he

theorem splitAt_of_not_mem {sep : Char} {cs : List Char} (h : sep ∉ cs) : splitAt sep cs = [cs] := by
  induction cs with
  | nil => rfl
  | cons c cs ih =>
    have hc : c ≠ sep := fun heq => h (by simp [heq])
    rw [splitAt, if_neg hc, ih fun hs => h (by simp [hs])]

theorem splitAt_ne_nil (sep : Char) (cs : List Char) : splitAt sep cs ≠ [] := by
  cases cs with
  | nil => simp [splitAt]
  | cons c cs =>
    rw [splitAt]
    split
    · simp
    · split <;> simp

theorem splitAt_append_sep (sep : Char) (a b : List Char) :
    splitAt sep (a ++ sep :: b) = splitAt sep a ++ splitAt sep b := by
  induction a with
  | nil => simp [splitAt]
  | cons c a ih =>
    rw [List.cons_append, splitAt, splitAt, ih]
    split
    · rfl
    · cases ha : splitAt sep a with
      | nil => exact absurd ha (splitAt_ne_nil sep a)
      | cons x l => rfl

theorem splitAt_append {sep : Char} {cs : List Char} (h : sep ∉ cs) (r : List Char) :
    splitAt sep (cs ++ sep :: r) = cs :: splitAt sep r := by
  rw [splitAt_append_sep, splitAt_of_not_mem h, List.singleton_append]

theorem splitAt_joined {sep : Char} {parts : List (List Char)} (hne : parts ≠ []) (h : ∀ p ∈ parts, sep ∉ p) :
    splitAt sep (joined sep parts) = parts := by
  induction parts with
  | nil => exact absurd rfl hne
  | cons a parts ih =>
    cases parts with
    | nil => exact splitAt_of_not_mem (h a (by simp))
    | cons b r =>
      rw [joined, splitAt_append (h a (by simp)), ih (by simp) fun p hp => h p (by simp [hp])]

theorem splitOnce_of_not_mem {sep : Char} {cs : List Char} (h : sep ∉ cs) : splitOnce sep cs = none := by
  induction cs with
  | nil => rfl
  | cons c cs ih =>
    have hc : c ≠ sep := fun heq => h (by simp [heq])
    rw [splitOnce, if_neg hc, ih fun hs => h (by simp [hs])]
    rfl

theorem splitOnce_append {sep : Char} {cs : List Char} (h : sep ∉ cs) (r : List Char) :
    splitOnce sep (cs ++ sep :: r) = some (cs, r) := by
  induction cs with
  | nil => rw [List.nil_append, splitOnce, if_pos rfl]
  | cons c cs ih =>
    have hc : c ≠ sep := fun heq => h (by simp [heq])
    rw [List.cons_append, splitOnce, if_neg hc, ih fun hs => h (by simp [hs])]
    rfl

theorem mem_joined {sep c : Char} {parts : List (List Char)} (h : c ∈ joined sep parts) :
    c = sep ∨ ∃ p ∈ parts, c ∈ p := by
  induction parts with
  | nil => simp [joined] at h
  | cons a parts ih =>
    cases parts with
    | nil => exact .inr ⟨a, by simp, h⟩
    | cons b r =>
      rw [joined, List.mem_append, List.mem_cons] at h
      rcases h with h | rfl | h
      · exact .inr ⟨a, by simp, h⟩
      · exact .inl rfl
      · rcases ih h with rfl | ⟨p, hp, hc⟩
        · exact .inl rfl
        · exact .inr ⟨p, by simp [hp], hc⟩

def parentNumbers (c : Context) : List (Nat × Nat) :=
  [(2, 0), (32, c.trace.toNat), (16, c.span.toNat), (2, if c.sampled then 1 else 0)]

def parentParts (c : Context) : List (List Char) :=
  (parentNumbers c).map fun n => Hex.fixed n.1 n.2

theorem toList_parentText (c : Context) : (parentText c).toList = joined '-' (parentParts c) := by
  have hflags : (if c.sampled then "01" else "00").toList = Hex.fixed 2 (if c.sampled then 1 else 0) := by
    cases c.sampled with
    | true => rfl
    | false => rfl
  have hversion : "00-".toList = Hex.fixed 2 0 ++ ['-'] := rfl
  have hdash : "-".toList = ['-'] := rfl
  simp only [parentText, parentParts, parentNumbers, List.map_cons, List.map_nil, joined, String.toList_append, Hex.text,
    String.toList_ofList, hflags, hversion, hdash, List.append_assoc, List.cons_append, List.nil_append]

theorem of_mem_parentParts {c : Context} {p : List Char} (hp : p ∈ parentParts c) {d : Char} (hd : d ∈ p) :
    Blank.isBlank d = false ∧ d ≠ '-' := by
  have hdigit : ∀ n < 16, Blank.isBlank (Hex.digit n) = false ∧ Hex.digit n ≠ '-' := by decide
  obtain ⟨n, -, rfl⟩ := List.mem_map.1 hp
  obtain ⟨k, hk, rfl⟩ := Hex.mem_fixed hd
  exact hdigit k hk

theorem parseParent_parentText {c : Context} (htrace : c.trace ≠ 0) (hspan : c.span ≠ 0) :
    parseParent (parentText c) = some ⟨c.trace, c.span, c.sampled⟩ := by
  have htrim : Blank.trim (parentText c).toList = joined '-' (parentParts c) := by
    rw [toList_parentText]
    refine Blank.trim_of_no_blank fun d hd => ?_
    rcases mem_joined hd with rfl | ⟨p, hp, hd⟩
    · decide
    · exact (of_mem_parentParts hp hd).1
  have hsplit : splitAt '-' (joined '-' (parentParts c)) = parentParts c :=
    splitAt_joined (by simp [parentParts, parentNumbers]) fun p hp hd => (of_mem_parentParts hp hd).2 rfl
  have ht : c.trace.toNat ≠ 0 := fun h => htrace (BitVec.eq_of_toNat_eq h)
  have hs : c.span.toNat ≠ 0 := fun h => hspan (BitVec.eq_of_toNat_eq h)
  have hflag : (if c.sampled then 1 else 0) < 16 ^ 2 := by split <;> decide
  have h32 : Hex.ofWidth? 32 (Hex.fixed 32 c.trace.toNat) = some c.trace.toNat := Hex.ofWidth?_fixed c.trace.isLt
  have h16 : Hex.ofWidth? 16 (Hex.fixed 16 c.span.toNat) = some c.span.toNat := Hex.ofWidth?_fixed c.span.isLt
  rw [parseParent, htrim, hsplit, parentParts, parentNumbers]
  simp only [List.map_cons, List.map_nil]
  rw [parentOfParts, Hex.ofWidth?_fixed (by decide), h32, h16,
    Hex.ofWidth?_fixed hflag]
  simp [ht, hs]
  cases c.sampled <;> rfl

theorem decodePart_encode (cs : List Char) : decodePart (Percent.encode cs) = some cs := by
  have hblank : ∀ c ∈ Percent.encode cs, Blank.isBlank c = false :=
    fun c hc => Percent.not_isBlank_of_isEncoded (Percent.isEncoded_of_mem_encode hc)
  rw [decodePart, Blank.trim_of_no_blank hblank, Percent.decode?_encode]

theorem mem_memberChars {item : String × String} {c : Char} (h : c ∈ memberChars item) :
    c = '=' ∨ Percent.isEncoded c = true := by
  rw [memberChars, List.mem_append, List.mem_cons] at h
  rcases h with h | rfl | h
  · exact .inr (Percent.isEncoded_of_mem_encode h)
  · exact .inl rfl
  · exact .inr (Percent.isEncoded_of_mem_encode h)

theorem parseMember_memberChars (item : String × String) :
    parseMember (memberChars item) = if item.1 = "" then none else some item := by
  have hwhole : (memberChars item).takeWhile (· ≠ ';') = memberChars item := by
    refine List.takeWhile_eq_self_iff.2 fun c hc => ?_
    rcases mem_memberChars hc with rfl | hc
    · decide
    · simpa using (Percent.ne_of_isEncoded hc).2.1
  have hblank : ∀ c ∈ memberChars item, Blank.isBlank c = false := by
    intro c hc
    rcases mem_memberChars hc with rfl | hc
    · decide
    · exact Percent.not_isBlank_of_isEncoded hc
  have hequals : '=' ∉ Percent.encode item.1.toList :=
    fun h => (Percent.ne_of_isEncoded (Percent.isEncoded_of_mem_encode h)).2.2 rfl
  rw [parseMember, hwhole, Blank.trim_of_no_blank hblank, memberChars, splitOnce_append hequals]
  simp only [Option.bind_eq_bind, Option.bind_some, decodePart_encode, List.isEmpty_iff, String.toList_eq_nil_iff]
  split <;> simp

theorem parseBaggage_baggageText {items : Entries} (hne : items ≠ []) :
    parseBaggage (baggageText items) = items.filter fun e => e.1 != "" := by
  have hsplit : splitAt ',' (joined ',' (items.map memberChars)) = items.map memberChars := by
    refine splitAt_joined (by simpa using hne) fun p hp hmem => ?_
    obtain ⟨item, -, rfl⟩ := List.mem_map.1 hp
    rcases mem_memberChars hmem with h | h
    · exact absurd h (by decide)
    · exact (Percent.ne_of_isEncoded h).1 rfl
  rw [parseBaggage, baggageText, String.toList_ofList, hsplit, List.filterMap_map, ← List.filterMap_eq_filter]
  congr 1
  funext item
  rw [Function.comp_apply, parseMember_memberChars]
  by_cases h : item.1 = "" <;> simp [Option.guard, h]

theorem read_of_parent {c : Context} (htrace : c.trace ≠ 0) (hspan : c.span ≠ 0) {l : Entries}
    (h : findEntry l parentKey = some (parentText c)) (carrier : String) :
    read carrier l = ⟨[], .ok (some ((Context.new c.trace c.span c.sampled).withBaggage
      (((findEntry l baggageKey).map parseBaggage).getD [])))⟩ := by
  rw [read, h]
  simp only [parseParent_parentText htrace hspan]

theorem read_of_headers {c : Context} (htrace : c.trace ≠ 0) (hspan : c.span ≠ 0) (hc : c.baggage.Lowered)
    {l : Entries} (hparent : findEntry l parentKey = some (parentText c))
    (hbaggage : findEntry l baggageKey =
      if c.baggage.isEmpty then none else some (baggageText c.baggage.entries)) (carrier : String) :
    read carrier l = ⟨[], .ok (some c.carried)⟩ := by
  have hitems : ((findEntry l baggageKey).map parseBaggage).getD [] = (c.baggage.erase "").entries := by
    rw [hbaggage, KeyMap.entries_erase]
    cases hm : c.baggage.entries with
    | nil => simp [KeyMap.isEmpty, hm]
    | cons e r => simp [KeyMap.isEmpty, hm, parseBaggage_baggageText]
  have hread := Context.withBaggage_of_perm (KeyMap.lowered_erase hc "") (.refl _) c.trace c.span c.sampled
  rw [read_of_parent htrace hspan hparent, hitems, hread]
  rfl

theorem read_of_lists {c : Context} (htrace : c.trace ≠ 0) (hspan : c.span ≠ 0) (hc : c.baggage.Lowered)
    {extra l : Entries} (hd : Distinct (written c ++ extra))
    (hextra : ∀ e ∈ extra, Ascii.lower e.1 ≠ Ascii.lower baggageKey) (hl : Lists l (written c ++ extra))
    (carrier : String) : read carrier l = ⟨[], .ok (some c.carried)⟩ := by
  refine read_of_headers htrace hspan hc ?_ ?_ carrier
  · exact hl.findEntry_of_mem hd (e := (parentKey, parentText c)) (by simp [written]) rfl
  · by_cases hempty : c.baggage.isEmpty
    · rw [if_pos hempty]
      refine hl.findEntry_of_not_mem fun e he => ?_
      rw [written, if_pos hempty, List.singleton_append, List.mem_cons] at he
      rcases he with rfl | he
      · exact (by decide : Ascii.lower parentKey ≠ Ascii.lower baggageKey)
      · exact hextra e he
    · rw [if_neg hempty]
      exact hl.findEntry_of_mem hd (e := (baggageKey, baggageText c.baggage.entries)) (by simp [written, hempty]) rfl

end TraceContext

end SpanFlow
