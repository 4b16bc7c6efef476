import SpanFlow.Carrier.Http
import SpanFlow.Proofs.Carrier.Faithful
import SpanFlow.Proofs.Propagation.Entries
import SpanFlow.Proofs.Text.Utf8

/-!
What HTTP admits and keeps. An entry is admitted if its key is a token that is not too long and its value
holds no control character but the tab, which its bytes show. Main statements: a row of entries is taken exactly if each
of them is admitted, an empty map then lists them with keys in small letters, and in any map a header
that is set takes the place of all its earlier values.
-/

namespace SpanFlow

def isControl (c : Char) : Bool :=
  (c.toNat < 0x20 && c.toNat != 0x09) || c.toNat == 0x7F

def Admitted (e : String × String) : Prop :=
  isHeaderName e.1 = true ∧ ∀ c ∈ e.2.toList, isControl c = false

theorem isHeaderName_iff (s : String) :
    isHeaderName s = true ↔ Token.isToken s = true ∧ s.toList.length ≤ maxNameLength := by
  simp [isHeaderName]

theorem isHeaderByte_iff (b : UInt8) : isHeaderByte b = true ↔ b.toNat = 9 ∨ (0x20 ≤ b.toNat ∧ b.toNat ≠ 0x7F) := by
  have h9 : b = 9 ↔ b.toNat = 9 := ⟨fun h => by rw [h]; rfl, fun h => UInt8.toNat_inj.1 h⟩
  have h7F : b = 0x7F ↔ b.toNat = 0x7F := ⟨fun h => by rw [h]; rfl, fun h => UInt8.toNat_inj.1 h⟩
  have h20 : 0x20 ≤ b ↔ 0x20 ≤ b.toNat := UInt8.le_iff_toNat_le
  simp only [isHeaderByte, Bool.or_eq_true, Bool.and_eq_true, beq_iff_eq, decide_eq_true_eq, ne_eq, h9, h7F, h20]

theorem isHeaderByte_of_high {n : Nat} (h : 0x80 ≤ n) (hn : n < 256) : isHeaderByte (UInt8.ofNat n) = true := by
  rw [isHeaderByte_iff, Utf8.toNat_byte hn]
  omega

theorem all_isHeaderByte_utf8EncodeChar (c : Char) :
    (String.utf8EncodeChar c).all isHeaderByte = true ↔ isControl c = false := by
  have hval : c.val.toNat = c.toNat := rfl
  have hcontrol : isControl c = false ↔ ¬(c.toNat < 0x20 ∧ c.toNat ≠ 9) ∧ c.toNat ≠ 0x7F := by
    simp [isControl]
  rw [hcontrol]
  unfold String.utf8EncodeChar
  simp only [hval]
  split
  · rw [List.all_cons, List.all_nil, Bool.and_true, isHeaderByte_iff, Utf8.toNat_byte (by omega)]
    omega
  · have hhigh : ¬(c.toNat < 0x20 ∧ c.toNat ≠ 9) ∧ c.toNat ≠ 0x7F := by omega
    refine iff_of_true ?_ hhigh
    split
    · simp only [List.all_cons, List.all_nil, Bool.and_true, Bool.and_eq_true]
      exact ⟨isHeaderByte_of_high (by omega) (by omega), isHeaderByte_of_high (by omega) (by omega)⟩
    · split
      · simp only [List.all_cons, List.all_nil, Bool.and_true, Bool.and_eq_true]
        exact ⟨isHeaderByte_of_high (by omega) (by omega), isHeaderByte_of_high (by omega) (by omega),
          isHeaderByte_of_high (by omega) (by omega)⟩
      · simp only [List.all_cons, List.all_nil, Bool.and_true, Bool.and_eq_true]
        exact ⟨isHeaderByte_of_high (by omega) (by omega), isHeaderByte_of_high (by omega) (by omega),
          isHeaderByte_of_high (by omega) (by omega), isHeaderByte_of_high (by omega) (by omega)⟩

theorem all_isHeaderByte_encode (cs : List Char) :
    (Utf8.encode cs).all isHeaderByte = true ↔ ∀ c ∈ cs, isControl c = false := by
  rw [Utf8.encode, List.all_flatMap, List.all_eq_true]
  simp only [all_isHeaderByte_utf8EncodeChar]

theorem headerText_encode (v : String) : headerText (Utf8.encode v.toList) = v := by
  rw [headerText, Utf8.decodeLossy_encode, String.ofList_toList]

namespace HeaderMap

theorem put_eq_of_admitted (m : HeaderMap) {k v : String} (h : Admitted (k, v)) :
    m.put k v = .ok (m.set k [Utf8.encode v.toList]) := by
  rw [put, h.1]
  simp [(all_isHeaderByte_encode _).2 h.2]

theorem put_of_admitted (m : HeaderMap) {k v : String} (h : Admitted (k, v)) :
    (TextMap.put k v : EStateM CarrierError HeaderMap Unit) m = .ok () (m.set k [Utf8.encode v.toList]) := by
  simp only [TextMap.put, m.put_eq_of_admitted h]

theorem admitted_of_put {m m' : HeaderMap} {k v : String}
    (h : (TextMap.put k v : EStateM CarrierError HeaderMap Unit) m = .ok () m') : Admitted (k, v) := by
  by_cases hk : isHeaderName k = true
  · by_cases hv : (Utf8.encode v.toList).all isHeaderByte = true
    · exact ⟨hk, (all_isHeaderByte_encode _).1 hv⟩
    · simp [TextMap.put, put, hk, hv] at h
  · simp [TextMap.put, put, hk] at h

theorem put_eq_ok {m m' : HeaderMap} {k v : String}
    (h : (TextMap.put k v : EStateM CarrierError HeaderMap Unit) m = .ok () m') :
    m' = m.set k [Utf8.encode v.toList] := by
  rw [put_of_admitted m (admitted_of_put h)] at h
  cases h
  rfl

/-- Entries are taken exactly if HTTP can carry each of them. -/
theorem putAll_ok_iff (es : Entries) (m : HeaderMap) :
    (∃ m', putAll es m = .ok () m') ↔ ∀ e ∈ es, Admitted e := by
  induction es generalizing m with
  | nil => exact ⟨fun _ _ h => (nomatch h), fun _ => ⟨m, rfl⟩⟩
  | cons e es ih =>
    constructor
    · rintro ⟨m', h⟩
      obtain ⟨x, hx, hrest⟩ := putAll_append_of_ok (a := [e]) (b := es) h
      have he : Admitted e := by
        cases hput : (TextMap.put e.1 e.2 : EStateM CarrierError HeaderMap Unit) m with
        | ok u y => exact admitted_of_put hput
        | error e' y => simp [putAll, bind, EStateM.bind, hput] at hx
      exact List.forall_mem_cons.2 ⟨he, (ih x).1 ⟨m', hrest⟩⟩
    · intro h
      obtain ⟨m', hm'⟩ := (ih (m.set e.1 [Utf8.encode e.2.toList])).2 fun x hx => h x (by simp [hx])
      refine ⟨m', ?_⟩
      simp only [putAll, bind, EStateM.bind, put_of_admitted m (h e (by simp))]
      exact hm'

/-- Every one of these writes finds room, if all that come before it are made. -/
def HasRoom (full : HeaderMap → Bool) : Entries → HeaderMap → Prop
  | [], _ => True
  | e :: es, m => full m = false ∧ HasRoom full es (m.set e.1 [Utf8.encode e.2.toList])

theorem writeAll_written_iff {full : HeaderMap → Bool} {es : Entries} {m m' : HeaderMap} :
    writeAll full es m = .written m' ↔ putAll es m = .ok () m' ∧ HasRoom full es m := by
  induction es generalizing m with
  | nil => simp [writeAll, putAll, HasRoom, pure, EStateM.pure]
  | cons e es ih =>
    cases hput : m.put e.1 e.2 with
    | error err => simp [writeAll, putAll, bind, EStateM.bind, TextMap.put, hput]
    | ok x =>
      have htaken : (TextMap.put e.1 e.2 : EStateM CarrierError HeaderMap Unit) m = .ok () x := by
        simp only [TextMap.put, hput]
      simp only [writeAll, hput, putAll, bind, EStateM.bind, htaken, HasRoom, ← put_eq_ok htaken]
      cases full m with
      | true => simp
      | false => simpa using ih

theorem writeAll_of_full {full : HeaderMap → Bool} {e : String × String} {m : HeaderMap} (he : Admitted e)
    (hfull : full m = true) (es : Entries) : writeAll full (e :: es) m = .panicked m := by
  simp only [writeAll, m.put_eq_of_admitted he, hfull, if_pos]

theorem putValues_of_not_mem {name : String} {values : List HeaderValue} {fields : List (String × List HeaderValue)}
    (h : ∀ f ∈ fields, f.1 ≠ name) : putValues name values fields = fields ++ [(name, values)] := by
  induction fields with
  | nil => rfl
  | cons f r ih => rw [putValues, if_neg (h f (by simp)), ih fun x hx => h x (by simp [hx]), List.cons_append]

theorem mem_putValues_self (name : String) (values : List HeaderValue) (fields : List (String × List HeaderValue)) :
    (name, values) ∈ putValues name values fields := by
  induction fields with
  | nil => simp [putValues]
  | cons f r ih =>
    rw [putValues]
    split
    · simp
    · exact List.mem_cons_of_mem _ ih

theorem lookup_putValues_self (name : String) (values : List HeaderValue) (fields : List (String × List HeaderValue)) :
    (putValues name values fields).lookup name = some values := by
  induction fields with
  | nil => simp [putValues]
  | cons f r ih =>
    rw [putValues]
    split
    · simp
    · next hne => rw [List.lookup_cons, beq_eq_false_iff_ne.2 (Ne.symm hne), ih]

theorem lookup_putValues_of_ne {name other : String} (h : other ≠ name) (values : List HeaderValue)
    (fields : List (String × List HeaderValue)) : (putValues name values fields).lookup other = fields.lookup other := by
  induction fields with
  | nil => simp [putValues, h]
  | cons f r ih =>
    rw [putValues]
    split
    · next hf => rw [List.lookup_cons, List.lookup_cons, hf, beq_eq_false_iff_ne.2 h]
    · rw [List.lookup_cons, List.lookup_cons, ih]

@[simp] theorem fields_set (m : HeaderMap) (name : String) (values : List HeaderValue) :
    (m.set name values).fields = putValues (Ascii.lower name) values m.fields := rfl

def header (e : String × String) : String × List HeaderValue :=
  (Ascii.lower e.1, [Utf8.encode e.2.toList])

theorem perm_put {m : HeaderMap} {acc : Entries} (h : m.fields.Perm (acc.map header)) (k v : String)
    (hk : ∀ e ∈ acc, Ascii.lower e.1 ≠ Ascii.lower k) :
    (m.set k [Utf8.encode v.toList]).fields.Perm (((k, v) :: acc).map header) := by
  have hnew : ∀ f ∈ m.fields, f.1 ≠ Ascii.lower k := by
    intro f hf
    obtain ⟨e, he, rfl⟩ := List.mem_map.1 (h.mem_iff.1 hf)
    exact hk e he
  rw [fields_set, putValues_of_not_mem hnew]
  exact List.perm_append_comm.trans (h.cons _)

theorem entries_of_perm {m : HeaderMap} {acc : Entries} (h : m.fields.Perm (acc.map header)) :
    m.entries.Perm (lowered acc) := by
  refine (h.flatMap_right _).trans (.of_eq ?_)
  rw [List.flatMap_map, lowered, List.map_eq_flatMap]
  congr 1
  funext e
  simp [header, headerText_encode]

theorem lists_putAll_empty {es : Entries} (hd : Distinct es) (h : ∀ e ∈ es, Admitted e) :
    ∃ m', putAll es empty = .ok () m' ∧ Lists m'.entries es := by
  have hnd : ((es ++ []).map fun e : String × String => Ascii.lower e.1).Nodup := by
    rw [Distinct, lowered, List.map_map] at hd
    simpa [Function.comp_def] using hd
  have hempty : empty.fields.Perm (List.map header []) := .refl _
  obtain ⟨m', hput, hholds⟩ := putAll_of_step Admitted Ascii.lower
    (fun (m : HeaderMap) acc => m.fields.Perm (acc.map header))
    (fun m acc k v hm hk hadm => ⟨_, put_of_admitted m hadm, perm_put hm k v hk⟩) hempty hnd h
  have hreverse : (es.reverse ++ []).Perm es := by
    rw [List.append_nil]
    exact List.reverse_perm es
  refine ⟨m', hput, ?_⟩
  rw [Lists, ← lowered_lowered es]
  exact ((entries_of_perm hholds).trans (hreverse.map _)).map _

/-- Where a map is full with so many names, entries with keys of their own find room if they are not too many. -/
theorem hasRoom_iff {es : Entries} (hd : Distinct es) (hne : es ≠ []) {m : HeaderMap}
    (hnew : ∀ e ∈ es, ∀ f ∈ m.fields, f.1 ≠ Ascii.lower e.1) :
    HasRoom (fun m => decide (maxNames ≤ m.fields.length)) es m ↔ m.fields.length + es.length ≤ maxNames := by
  induction es generalizing m with
  | nil => exact absurd rfl hne
  | cons e es ih =>
    have hfields : (m.set e.1 [Utf8.encode e.2.toList]).fields = m.fields ++ [header e] := by
      rw [fields_set, putValues_of_not_mem (hnew e (by simp))]
      rfl
    have hkeys : (∀ x ∈ es, Ascii.lower e.1 ≠ Ascii.lower x.1) ∧ Distinct es := by
      simpa [Distinct, lowered, eq_comm] using hd
    have hlater : ∀ x ∈ es, ∀ f ∈ (m.set e.1 [Utf8.encode e.2.toList]).fields, f.1 ≠ Ascii.lower x.1 := by
      intro x hx f hf
      rw [hfields, List.mem_append, List.mem_singleton] at hf
      rcases hf with hf | rfl
      · exact hnew x (by simp [hx]) f hf
      · exact hkeys.1 x hx
    rw [HasRoom, decide_eq_false_iff_not, List.length_cons]
    cases es with
    | nil =>
      simp only [HasRoom, and_true, List.length_nil]
      omega
    | cons x r =>
      rw [ih hkeys.2 (by simp) hlater, hfields, List.length_append, List.length_singleton, List.length_cons]
      omega

def listed (f : String × List HeaderValue) : Entries :=
  f.2.map fun v => (f.1, headerText v)

theorem findEntry_listed_of_ne {f : String × List HeaderValue} {key : String} (hlower : Ascii.lower f.1 = f.1)
    (h : f.1 ≠ Ascii.lower key) : findEntry (listed f) key = none := by
  rw [findEntry, Option.map_eq_none_iff, List.find?_eq_none]
  intro e he
  obtain ⟨v, -, rfl⟩ := List.mem_map.1 he
  simpa [Ascii.sameIgnoringCase, hlower] using h

theorem findEntry_putValues {fields : List (String × List HeaderValue)} (hlower : ∀ f ∈ fields, Ascii.lower f.1 = f.1)
    {name : String} (hname : Ascii.lower name = name) (value : HeaderValue) (key : String) :
    findEntry ((putValues name [value] fields).flatMap listed) key =
      if name = Ascii.lower key then some (headerText value) else findEntry (fields.flatMap listed) key := by
  have hnew : findEntry (listed (name, [value])) key =
      if name = Ascii.lower key then some (headerText value) else none := by
    by_cases h : name = Ascii.lower key <;>
      simp [findEntry, listed, Ascii.sameIgnoringCase, hname, h]
  induction fields with
  | nil =>
    have hnone : findEntry [] key = none := rfl
    simpa [putValues, hnone] using hnew
  | cons f r ih =>
    have hrest := ih fun x hx => hlower x (by simp [hx])
    simp only [putValues]
    split
    · next hf =>
      rw [List.flatMap_cons, findEntry_append, hnew, List.flatMap_cons, findEntry_append]
      by_cases h : name = Ascii.lower key
      · simp [h]
      · rw [findEntry_listed_of_ne (hlower f (by simp)) (by rw [hf]; exact h)]
        simp [h]
    · next hf =>
      rw [List.flatMap_cons, findEntry_append, hrest, List.flatMap_cons, findEntry_append]
      by_cases h : name = Ascii.lower key
      · rw [findEntry_listed_of_ne (hlower f (by simp)) (by rw [← h]; exact hf)]
        simp [h]
      · simp [h]

theorem lower_of_mem {m : HeaderMap} {f : String × List HeaderValue} (hf : f ∈ m.fields) : Ascii.lower f.1 = f.1 :=
  m.lower f.1 (List.mem_map_of_mem hf)

theorem findEntry_set (m : HeaderMap) (name : String) (value : HeaderValue) (key : String) :
    findEntry (m.set name [value]).entries key =
      if Ascii.lower name = Ascii.lower key then some (headerText value) else findEntry m.entries key :=
  findEntry_putValues (fun _ => lower_of_mem) (Ascii.lower_lower name) value key

theorem lookup_of_mem {fields : List (String × List HeaderValue)} (hnd : (fields.map (·.1)).Nodup)
    {f : String × List HeaderValue} (hf : f ∈ fields) : fields.lookup f.1 = some f.2 := by
  induction fields with
  | nil => exact nomatch hf
  | cons x r ih =>
    rw [List.map_cons, List.nodup_cons] at hnd
    rcases List.mem_cons.1 hf with rfl | hf
    · exact List.lookup_cons_self
    · have hne : (f.1 == x.1) = false := by
        rw [beq_eq_false_iff_ne]
        exact fun heq => hnd.1 (heq ▸ List.mem_map_of_mem hf)
      rw [List.lookup_cons, hne]
      exact ih hnd.2 hf

theorem findEntry_of_values_nil {m : HeaderMap} {key : String} (h : m.values (Ascii.lower key) = []) :
    findEntry m.entries key = none := by
  rw [findEntry, Option.map_eq_none_iff, List.find?_eq_none]
  intro e he hsame
  obtain ⟨f, hf, hin⟩ := List.mem_flatMap.1 he
  obtain ⟨v, hv, rfl⟩ := List.mem_map.1 hin
  have hname : f.1 = Ascii.lower key := by
    rw [← lower_of_mem hf]
    simpa [Ascii.sameIgnoringCase] using hsame
  rw [values, ← hname, lookup_of_mem m.nodup hf, Option.getD_some] at h
  rw [h] at hv
  exact absurd hv List.not_mem_nil

end HeaderMap

end SpanFlow
