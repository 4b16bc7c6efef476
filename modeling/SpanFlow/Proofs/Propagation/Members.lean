import SpanFlow.Proofs.Propagation.TraceContext

/-!
The members of a baggage header. A header is read member by member, and a member by what stands before
and behind its first `=`, up to its first semicolon, without the blanks around. Main statement: a header
is read in parts at each comma, a member is passed over exactly if it is unreadable, blanks and properties
of a member change nothing, and what is written for a map of any texts is read back in full.
-/

namespace SpanFlow.TraceContext

def headerOf (members : List (List Char)) : String :=
  String.ofList (joined ',' members)

theorem joined_cons {sep : Char} (a : List Char) {parts : List (List Char)} (h : parts ≠ []) :
    joined sep (a :: parts) = a ++ sep :: joined sep parts := by
  cases parts with
  | nil => exact absurd rfl h
  | cons b r => rfl

theorem joined_splitAt (sep : Char) (cs : List Char) : joined sep (splitAt sep cs) = cs := by
  induction cs with
  | nil => rfl
  | cons c cs ih =>
    rw [splitAt]
    split
    · next hc => rw [joined_cons _ (splitAt_ne_nil sep cs), ih, hc, List.nil_append]
    · cases hs : splitAt sep cs with
      | nil => exact absurd hs (splitAt_ne_nil sep cs)
      | cons a l =>
        rw [hs] at ih
        rw [← ih]
        cases l <;> rfl

theorem not_mem_of_mem_splitAt {sep : Char} {cs a : List Char} (h : a ∈ splitAt sep cs) : sep ∉ a := by
  induction cs generalizing a with
  | nil => simp_all [splitAt]
  | cons c cs ih =>
    rw [splitAt] at h
    split at h
    · rcases List.mem_cons.1 h with rfl | h
      · exact List.not_mem_nil
      · exact ih h
    · next hc =>
      cases hs : splitAt sep cs with
      | nil => exact absurd hs (splitAt_ne_nil sep cs)
      | cons b l =>
        rw [hs] at h ih
        rcases List.mem_cons.1 h with rfl | h
        · exact List.not_mem_cons_of_ne_of_not_mem (Ne.symm hc) (ih (by simp))
        · exact ih (by simp [h])

theorem headerOf_splitAt (value : String) : headerOf (splitAt ',' value.toList) = value := by
  rw [headerOf, joined_splitAt, String.ofList_toList]

theorem parseBaggage_append (a b : String) : parseBaggage (a ++ "," ++ b) = parseBaggage a ++ parseBaggage b := by
  have hcomma : ",".toList = [','] := rfl
  have htext : (a ++ "," ++ b).toList = a.toList ++ ',' :: b.toList := by
    rw [String.toList_append, String.toList_append, hcomma, List.append_assoc, List.singleton_append]
  rw [parseBaggage, htext, splitAt_append_sep, List.filterMap_append]
  rfl

theorem headerOf_cons (a : List Char) {members : List (List Char)} (h : members ≠ []) :
    headerOf (a :: members) = String.ofList a ++ "," ++ headerOf members := by
  have hcomma : ",".toList = [','] := rfl
  rw [← String.toList_inj]
  simp [headerOf, joined_cons a h, hcomma]

theorem parseBaggage_headerOf (members : List (List Char)) :
    parseBaggage (headerOf members) = members.flatMap fun a => parseBaggage (String.ofList a) := by
  induction members with
  | nil => decide
  | cons a members ih =>
    cases members with
    | nil => simp [headerOf, joined]
    | cons b r =>
      rw [headerOf_cons a (by simp), parseBaggage_append, ih]
      rfl

theorem parseBaggage_member {member : List Char} (h : ',' ∉ member) :
    parseBaggage (String.ofList member) = (parseMember member).toList := by
  rw [parseBaggage, String.toList_ofList, splitAt_of_not_mem h]
  cases hm : parseMember member <;> simp [hm]

def core (member : List Char) : List Char :=
  member.takeWhile (· ≠ ';')

theorem core_append {a : List Char} (h : ';' ∉ a) (b : List Char) : core (a ++ b) = a ++ core b :=
  List.takeWhile_append_of_pos fun c hc => by
    rw [decide_eq_true_iff]
    rintro rfl
    exact h hc

theorem core_of_not_mem {a : List Char} (h : ';' ∉ a) : core a = a := by
  rw [← List.append_nil a, core_append h]
  rfl

theorem core_semicolon (more : List Char) : core (';' :: more) = [] := rfl

theorem core_append_of_mem {a : List Char} (h : ';' ∈ a) (b : List Char) : core (a ++ b) = core a := by
  obtain ⟨before, after, rfl, hbefore⟩ := List.eq_append_cons_of_mem h
  rw [List.append_assoc, core_append hbefore, core_append hbefore, List.cons_append, core_semicolon, core_semicolon]

structure Pair (member key value : List Char) : Prop where
  text : core member = key ++ '=' :: value
  first : '=' ∉ key

theorem exists_pair {member : List Char} (h : '=' ∈ core member) : ∃ key value, Pair member key value := by
  obtain ⟨key, value, htext, hfirst⟩ := List.eq_append_cons_of_mem h
  exact ⟨key, value, htext, hfirst⟩

def item? (key value : List Char) : Option (String × String) := do
  let k ← decodePart key
  let v ← decodePart value
  if k.isEmpty then none else return (String.ofList k, String.ofList v)

theorem parseMember_eq (member : List Char) :
    parseMember member = (splitOnce '=' (Blank.trim (core member))).bind fun p => item? p.1 p.2 := rfl

theorem parseMember_of_no_equals {member : List Char} (h : '=' ∉ core member) : parseMember member = none := by
  rw [parseMember_eq, splitOnce_of_not_mem fun hmem => h (Blank.mem_of_mem_trim hmem), Option.bind_none]

theorem parseMember_of_pair {member key value : List Char} (h : Pair member key value) :
    parseMember member = item? key value := by
  obtain ⟨a, b, htrim, ha, hkey, hvalue⟩ := Blank.trim_around (by decide : Blank.isBlank '=' = false) key value
  rw [parseMember_eq, h.text, htrim, splitOnce_append fun hmem => h.first (ha _ hmem), Option.bind_some]
  simp only [item?, decodePart, hkey, hvalue]

/-- The bytes that a key or a value stands for are not UTF-8. -/
def Garbled (part : List Char) : Prop :=
  ∀ cs, Utf8.encode cs ≠ Percent.bytes (Blank.trim part)

/-- A member without `=` before its properties, without a key, or with a key or a value that is no text. -/
inductive Unreadable (member : List Char) : Prop
  | noEquals (h : '=' ∉ core member)
  | noKey {key value : List Char} (h : Pair member key value) (hkey : ∀ c ∈ key, Blank.isBlank c = true)
  | garbledKey {key value : List Char} (h : Pair member key value) (hkey : Garbled key)
  | garbledValue {key value : List Char} (h : Pair member key value) (hvalue : Garbled value)

theorem decodePart_eq_none_iff {part : List Char} : decodePart part = none ↔ Garbled part := by
  rw [Option.eq_none_iff_forall_ne_some]
  exact forall_congr' fun cs => not_congr Utf8.decode?_eq_some_iff

theorem decodePart_eq_nil_iff {part : List Char} : decodePart part = some [] ↔ ∀ c ∈ part, Blank.isBlank c = true := by
  rw [← Blank.trim_eq_nil_iff, ← Percent.bytes_eq_nil_iff]
  exact Utf8.decode?_eq_some_iff.trans eq_comm

theorem item?_eq_none_iff {key value : List Char} :
    item? key value = none ↔ Garbled key ∨ Garbled value ∨ ∀ c ∈ key, Blank.isBlank c = true := by
  rw [← decodePart_eq_none_iff, ← decodePart_eq_none_iff, ← decodePart_eq_nil_iff]
  unfold item?
  cases decodePart key with
  | none => simp
  | some k =>
    cases decodePart value with
    | none => simp
    | some v => simp

/-- Exactly the unreadable members are passed over. -/
theorem parseMember_eq_none_iff {member : List Char} : parseMember member = none ↔ Unreadable member := by
  constructor
  · intro h
    by_cases hequals : '=' ∈ core member
    · obtain ⟨key, value, hpair⟩ := exists_pair hequals
      rw [parseMember_of_pair hpair, item?_eq_none_iff] at h
      rcases h with hkey | hvalue | hkey
      · exact .garbledKey hpair hkey
      · exact .garbledValue hpair hvalue
      · exact .noKey hpair hkey
    · exact .noEquals hequals
  · intro h
    cases h with
    | noEquals h => exact parseMember_of_no_equals h
    | noKey h hkey => exact (parseMember_of_pair h).trans (item?_eq_none_iff.2 (.inr (.inr hkey)))
    | garbledKey h hkey => exact (parseMember_of_pair h).trans (item?_eq_none_iff.2 (.inl hkey))
    | garbledValue h hvalue => exact (parseMember_of_pair h).trans (item?_eq_none_iff.2 (.inr (.inl hvalue)))

def Blanks (cs : List Char) : Prop :=
  ∀ c ∈ cs, Blank.isBlank c = true

/-- A member in another dress: with properties behind it, or with blanks around it, its key or its value. -/
inductive Dressed : List Char → List Char → Prop
  | properties (member : List Char) {more : List Char} (h : ',' ∉ more) : Dressed member (member ++ ';' :: more)
  | around (member : List Char) {before after : List Char} (hbefore : Blanks before) (hafter : Blanks after) :
    Dressed member (before ++ member ++ after)
  | aroundKey {key : List Char} (rest : List Char) {before after : List Char} (hequals : '=' ∉ key) (hcore : ';' ∉ key)
    (hbefore : Blanks before) (hafter : Blanks after) :
    Dressed (key ++ '=' :: rest) (before ++ key ++ after ++ '=' :: rest)
  | aroundValue {key value more before after : List Char} (hequals : '=' ∉ key) (hcore : ';' ∉ key) (hvalue : ';' ∉ value)
    (hmore : more = [] ∨ ∃ r, more = ';' :: r) (hbefore : Blanks before) (hafter : Blanks after) :
    Dressed (key ++ '=' :: (value ++ more)) (key ++ '=' :: (before ++ value ++ after ++ more))

theorem Blanks.not_mem {cs : List Char} (h : Blanks cs) {c : Char} (hc : Blank.isBlank c = false) : c ∉ cs := by
  intro hmem
  rw [h c hmem] at hc
  cases hc

theorem parseMember_congr {member other : List Char} (h : Blank.trim (core member) = Blank.trim (core other)) :
    parseMember member = parseMember other := by
  rw [parseMember_eq, parseMember_eq, h]

theorem decodePart_around {before part after : List Char} (hbefore : Blanks before) (hafter : Blanks after) :
    decodePart (before ++ part ++ after) = decodePart part := by
  rw [decodePart, decodePart, Blank.trim_append hbefore hafter]

theorem core_properties (member more : List Char) : core (member ++ ';' :: more) = core member := by
  by_cases h : ';' ∈ member
  · exact core_append_of_mem h _
  · rw [core_append h, core_semicolon, List.append_nil, core_of_not_mem h]

theorem trim_core_around (member : List Char) {before after : List Char} (hbefore : Blanks before) (hafter : Blanks after) :
    Blank.trim (core (before ++ member ++ after)) = Blank.trim (core member) := by
  rw [List.append_assoc, core_append (hbefore.not_mem (by decide))]
  by_cases h : ';' ∈ member
  · have hfront : Blank.trim (before ++ core member ++ []) = Blank.trim (core member) :=
      Blank.trim_append hbefore (by simp)
    rwa [core_append_of_mem h, ← List.append_nil (before ++ core member)]
  · rw [core_append h, core_of_not_mem (hafter.not_mem (by decide)), core_of_not_mem h, ← List.append_assoc,
      Blank.trim_append hbefore hafter]

theorem core_of_more {more : List Char} (h : more = [] ∨ ∃ r, more = ';' :: r) : core more = [] := by
  rcases h with rfl | ⟨r, rfl⟩
  · rfl
  · rfl

theorem core_pair {key : List Char} (h : ';' ∉ key) (rest : List Char) :
    core (key ++ '=' :: rest) = key ++ '=' :: core rest := by
  rw [core_append h]
  exact congrArg _ (core_append (a := ['=']) (by decide) rest)

theorem Dressed.parseMember_eq {member dressed : List Char} (h : Dressed member dressed) :
    parseMember dressed = parseMember member := by
  cases h with
  | properties _ hmore => exact parseMember_congr (by rw [core_properties])
  | around _ hbefore hafter => exact parseMember_congr (trim_core_around _ hbefore hafter)
  | @aroundKey key rest before after hequals hcore hbefore hafter =>
    have hfirst : '=' ∉ before ++ key ++ after := by
      simp [hequals, hbefore.not_mem (c := '=') (by decide), hafter.not_mem (c := '=') (by decide)]
    have hsemicolon : ';' ∉ before ++ key ++ after := by
      simp [hcore, hbefore.not_mem (c := ';') (by decide), hafter.not_mem (c := ';') (by decide)]
    rw [parseMember_of_pair ⟨core_pair hcore rest, hequals⟩, parseMember_of_pair ⟨core_pair hsemicolon rest, hfirst⟩,
      item?, decodePart_around hbefore hafter]
    rfl
  | @aroundValue key value more before after hequals hcore hvalue hmore hbefore hafter =>
    have hsemicolon : ';' ∉ before ++ value ++ after := by
      simp [hvalue, hbefore.not_mem (c := ';') (by decide), hafter.not_mem (c := ';') (by decide)]
    have hplain : core (value ++ more) = value := by rw [core_append hvalue, core_of_more hmore, List.append_nil]
    have hdressed : core (before ++ value ++ after ++ more) = before ++ value ++ after := by
      rw [core_append hsemicolon, core_of_more hmore, List.append_nil]
    rw [parseMember_of_pair ⟨core_pair hcore _, hequals⟩, parseMember_of_pair ⟨core_pair hcore _, hequals⟩,
      hplain, hdressed, item?, decodePart_around hbefore hafter]
    rfl

theorem Dressed.not_mem {member dressed : List Char} (h : Dressed member dressed) (hm : ',' ∉ member) : ',' ∉ dressed := by
  cases h with
  | properties _ hmore => simp [hm, hmore]
  | around _ hbefore hafter => simp [hm, hbefore.not_mem (c := ',') (by decide), hafter.not_mem (c := ',') (by decide)]
  | aroundKey rest hequals hcore hbefore hafter =>
    simp_all [hbefore.not_mem (c := ',') (by decide), hafter.not_mem (c := ',') (by decide)]
  | aroundValue hequals hcore hvalue hmore hbefore hafter =>
    simp_all [hbefore.not_mem (c := ',') (by decide), hafter.not_mem (c := ',') (by decide)]

/-- With an unreadable member in between, a header says what it says without it, and only then. -/
theorem unreadable_iff {member : List Char} (h : ',' ∉ member) :
    Unreadable member ↔ ∀ before after,
      parseBaggage (headerOf (before ++ member :: after)) = parseBaggage (headerOf (before ++ after)) := by
  constructor
  · intro hun before after
    simp only [parseBaggage_headerOf, List.flatMap_append, List.flatMap_cons, parseBaggage_member h,
      parseMember_eq_none_iff.2 hun, Option.toList_none, List.nil_append]
  · intro hsame
    have halone : parseBaggage (headerOf [member]) = parseBaggage (headerOf []) := hsame [] []
    rw [parseBaggage_headerOf, List.flatMap_singleton, parseBaggage_member h] at halone
    exact parseMember_eq_none_iff.1 (Option.toList_eq_nil_iff.1 halone)

theorem parseBaggage_dressed {member dressed : List Char} (h : Dressed member dressed) (hm : ',' ∉ member)
    (before after : List (List Char)) :
    parseBaggage (headerOf (before ++ dressed :: after)) = parseBaggage (headerOf (before ++ member :: after)) := by
  simp only [parseBaggage_headerOf, List.flatMap_append, List.flatMap_cons, parseBaggage_member hm,
    parseBaggage_member (h.not_mem hm), h.parseMember_eq]

theorem inject_eq_of_ne_nil {C : Type} [TextMap C] {c : Context} (h : c.baggage.entries ≠ []) :
    (propagator : Propagator C).inject c =
      putAll [(parentKey, parentText c), (baggageKey, baggageText c.baggage.entries)] := by
  have hne : c.baggage.isEmpty = false := by rwa [KeyMap.isEmpty, List.isEmpty_eq_false_iff]
  simp only [propagator, Propagator.ofEntries, written, hne]
  rfl

/-- A baggage header is the row of its members, and each is read on its own: an unreadable one is passed over,
properties and blanks do not count, and the header of a map, whatever its texts, is read as its items. -/
theorem members_read_apart :
    (∀ a b : String, parseBaggage (a ++ "," ++ b) = parseBaggage a ++ parseBaggage b) ∧
    (∀ value : String, ∃ members, headerOf members = value ∧ ∀ member ∈ members, ',' ∉ member) ∧
    (∀ member, ',' ∉ member → (Unreadable member ↔ ∀ before after,
      parseBaggage (headerOf (before ++ member :: after)) = parseBaggage (headerOf (before ++ after)))) ∧
    (∀ member dressed, ',' ∉ member → Dressed member dressed → ∀ before after,
      parseBaggage (headerOf (before ++ dressed :: after)) = parseBaggage (headerOf (before ++ member :: after))) ∧
    ∀ c : Context, c.baggage.entries ≠ [] → ∃ v,
      (∀ (C : Type) [TextMap C],
        (propagator : Propagator C).inject c = putAll [(parentKey, parentText c), (baggageKey, v)]) ∧
      parseBaggage v = c.baggage.entries.filter (·.1 != "") := by
  refine ⟨parseBaggage_append, fun value => ?_, fun member hm => unreadable_iff hm,
    fun member dressed hm h => parseBaggage_dressed h hm, fun c hne => ?_⟩
  · exact ⟨splitAt ',' value.toList, headerOf_splitAt value, fun _ hmem => not_mem_of_mem_splitAt hmem⟩
  · exact ⟨baggageText c.baggage.entries, fun _ _ => inject_eq_of_ne_nil hne, parseBaggage_baggageText hne⟩

/-- A garbled key before a dressed member, and texts full of separators. -/
theorem members_read_apart_garbled :
    parseBaggage (headerOf ["a%FF=1".toList, " k = v;p=q ".toList]) = [("k", "v")] ∧
      ∃ v, parseBaggage v = [("a,b;c", " =%2C"), ("é", "")] ∧
        (propagator : Propagator (KeyMap String)).inject
          ⟨1, 2, true, .ofList [("é", ""), ("", "lost"), ("a,b;c", " =%2C")]⟩ =
            putAll [(parentKey, "00-00000000000000000000000000000001-0000000000000002-01"), (baggageKey, v)] := by
  obtain ⟨-, -, hunreadable, hdressed, hinject⟩ := members_read_apart
  have hpair : Pair "a%FF=1".toList "a%FF".toList ['1'] := ⟨by decide, by decide⟩
  have hgarbled : Unreadable "a%FF=1".toList := .garbledKey hpair (decodePart_eq_none_iff.1 (by decide +kernel))
  constructor
  · have hskip := (hunreadable _ (by decide)).1 hgarbled [] [" k = v;p=q ".toList]
    have hmore : Dressed " k = v".toList (" k = v".toList ++ ';' :: "p=q ".toList) := .properties _ (by decide)
    have hdress := hdressed _ _ (by decide) hmore [] []
    exact hskip.trans (hdress.trans (by decide +kernel))
  · obtain ⟨v, hv, hparse⟩ := hinject ⟨1, 2, true, .ofList [("é", ""), ("", "lost"), ("a,b;c", " =%2C")]⟩ (by decide)
    exact ⟨v, hparse, hv _⟩

end SpanFlow.TraceContext
