import SpanFlow.Carrier.Jms
import SpanFlow.Proofs.KeyMap

/-!
Stored keys read back. A stored key shows a dash where the key had one, and also where the key itself
spelt out what stands for a dash, be it that its last character came from a dash. Main statement: every
other key, and no such key, is read back as it was, so that no two of them are stored alike.
-/

namespace SpanFlow.JmsKey

def stem : List Char := ['_', '$', 'd', 'a', 's', 'h', '$']

/-- The key nowhere spells out what stands for a dash. -/
def Clear (key : String) : Prop :=
  ¬"_$dash$_".toList <:+: key.toList ∧ ¬"_$dash$-".toList <:+: key.toList

instance (key : String) : Decidable (Clear key) :=
  inferInstanceAs (Decidable (_ ∧ _))

theorem clear_iff (key : String) : Clear key ↔ ¬stem ++ ['_'] <:+: key.toList ∧ ¬stem ++ ['-'] <:+: key.toList :=
  .rfl

theorem encodeChars_cons_of_ne {c : Char} (hc : c ≠ '-') (cs : List Char) :
    encodeChars (c :: cs) = c :: encodeChars cs := by
  rw [encodeChars, List.flatMap_cons, if_neg hc]
  rfl

theorem encodeChars_dash (cs : List Char) : encodeChars ('-' :: cs) = dash ++ encodeChars cs := by
  rw [encodeChars, List.flatMap_cons, if_pos rfl]
  rfl

theorem decodeChars_dash (cs : List Char) : decodeChars (dash ++ cs) = '-' :: decodeChars cs := rfl

theorem decodeChars_cons {c : Char} {cs : List Char} (h : ¬dash <+: c :: cs) :
    decodeChars (c :: cs) = c :: decodeChars cs := by
  rw [decodeChars.eq_def]
  split
  · next r heq =>
    rw [heq] at h
    exact absurd ⟨r, rfl⟩ h
  · next heq =>
    injection heq with hc hr
    rw [hc, hr]
  · next heq => exact nomatch heq

theorem prefix_of_prefix_encodeChars {p r cs : List Char} (hp : '_' ∉ p) (h : p ++ r <+: encodeChars cs) :
    ∃ ds, cs = p ++ ds ∧ r <+: encodeChars ds := by
  induction p generalizing cs with
  | nil => exact ⟨cs, rfl, h⟩
  | cons d p ih =>
    have hd : d ≠ '_' := fun heq => hp (by simp [heq])
    cases cs with
    | nil => exact absurd h.length_le (by simp [encodeChars])
    | cons c cs =>
      by_cases hc : c = '-'
      · rw [hc, encodeChars_dash, dash] at h
        exact absurd (List.cons_prefix_cons.1 h).1 hd
      · rw [encodeChars_cons_of_ne hc] at h
        obtain ⟨hdc, hrest⟩ := List.cons_prefix_cons.1 h
        obtain ⟨ds, hds, hr⟩ := ih (fun hm => hp (by simp [hm])) hrest
        exact ⟨ds, by rw [hdc, hds, List.cons_append], hr⟩

theorem prefix_of_dash_prefix {c : Char} {cs : List Char} (h : dash <+: c :: encodeChars cs) :
    stem ++ ['_'] <+: c :: cs ∨ stem ++ ['-'] <+: c :: cs := by
  have hsplit : dash = '_' :: (['$', 'd', 'a', 's', 'h', '$'] ++ ['_']) := rfl
  rw [hsplit] at h
  obtain ⟨hc, hrest⟩ := List.cons_prefix_cons.1 h
  obtain ⟨ds, hds, hlast⟩ := prefix_of_prefix_encodeChars (by decide) hrest
  cases ds with
  | nil => exact absurd hlast.length_le (by simp [encodeChars])
  | cons d ds =>
    rw [← hc, hds]
    by_cases hd : d = '-'
    · exact .inr ⟨ds, by rw [hd]; rfl⟩
    · rw [encodeChars_cons_of_ne hd] at hlast
      exact .inl ⟨ds, by rw [← (List.cons_prefix_cons.1 hlast).1]; rfl⟩

theorem decodeChars_encodeChars {cs : List Char} (hdash : ¬stem ++ ['_'] <:+: cs) (hmixed : ¬stem ++ ['-'] <:+: cs) :
    decodeChars (encodeChars cs) = cs := by
  induction cs with
  | nil => rfl
  | cons c cs ih =>
    have hrest := ih (fun h => hdash (List.infix_cons h)) fun h => hmixed (List.infix_cons h)
    by_cases hc : c = '-'
    · rw [hc, encodeChars_dash, decodeChars_dash, hrest]
    · have hno : ¬dash <+: c :: encodeChars cs := by
        intro h
        rcases prefix_of_dash_prefix h with h | h
        · exact hdash h.isInfix
        · exact hmixed h.isInfix
      rw [encodeChars_cons_of_ne hc, decodeChars_cons hno, hrest]

theorem decode_encode {key : String} (h : Clear key) : decode (encode key) = key := by
  obtain ⟨hdash, hmixed⟩ := (clear_iff key).1 h
  rw [decode, encode, String.toList_ofList, decodeChars_encodeChars hdash hmixed, String.ofList_toList]

theorem encodeChars_stem (cs : List Char) : encodeChars (stem ++ cs) = stem ++ encodeChars cs := by
  rw [encodeChars, List.flatMap_append]
  rfl

/-- Where a key spells out what stands for a dash, its stored form shows one, whatever follows. -/
theorem dash_prefix_of_prefix {cs : List Char} (h : stem ++ ['_'] <+: cs ∨ stem ++ ['-'] <+: cs) :
    dash <+: encodeChars cs := by
  rcases h with ⟨ds, rfl⟩ | ⟨ds, rfl⟩
  · rw [List.append_assoc, encodeChars_stem, List.singleton_append, encodeChars_cons_of_ne (by decide)]
    exact ⟨encodeChars ds, rfl⟩
  · rw [List.append_assoc, encodeChars_stem, List.singleton_append, encodeChars_dash]
    exact ⟨dash.tail ++ encodeChars ds, rfl⟩

theorem clear_of_decodeChars_encodeChars {cs : List Char} (h : decodeChars (encodeChars cs) = cs) :
    ¬stem ++ ['_'] <:+: cs ∧ ¬stem ++ ['-'] <:+: cs := by
  induction cs with
  | nil => decide
  | cons c cs ih =>
    -- The key is not spelt out here, or this character would be read as a dash.
    have hhere : ¬(stem ++ ['_'] <+: c :: cs ∨ stem ++ ['-'] <+: c :: cs) := by
      intro hspelt
      obtain ⟨r, hr⟩ := dash_prefix_of_prefix hspelt
      rw [← hr, decodeChars_dash] at h
      have hc : '_' = c := by
        rcases hspelt with hspelt | hspelt
        · exact (List.cons_prefix_cons.1 hspelt).1
        · exact (List.cons_prefix_cons.1 hspelt).1
      rw [← hc] at h
      exact absurd (List.cons.inj h).1 (by decide)
    have hrest : decodeChars (encodeChars cs) = cs := by
      by_cases hc : c = '-'
      · rw [hc, encodeChars_dash, decodeChars_dash] at h
        exact (List.cons.inj h).2
      · have hno : ¬dash <+: c :: encodeChars cs := fun hp => hhere <| prefix_of_dash_prefix hp
        rw [encodeChars_cons_of_ne hc, decodeChars_cons hno] at h
        exact (List.cons.inj h).2
    obtain ⟨hdash, hmixed⟩ := ih hrest
    rw [List.infix_cons_iff, List.infix_cons_iff]
    exact ⟨fun hin => hin.elim (fun hp => hhere (.inl hp)) hdash, fun hin => hin.elim (fun hp => hhere (.inr hp)) hmixed⟩

theorem decode_encode_iff (key : String) : decode (encode key) = key ↔ Clear key := by
  refine ⟨fun h => (clear_iff key).2 (clear_of_decodeChars_encodeChars ?_), decode_encode⟩
  have hchars := congrArg String.toList h
  rwa [decode, encode, String.toList_ofList, String.toList_ofList] at hchars

theorem dash_not_mem_encodeChars (cs : List Char) : '-' ∉ encodeChars cs := by
  induction cs with
  | nil => decide
  | cons c cs ih =>
    by_cases hc : c = '-'
    · rw [hc, encodeChars_dash, List.mem_append]
      exact fun h => h.elim (by decide) ih
    · rw [encodeChars_cons_of_ne hc, List.mem_cons]
      exact fun h => h.elim (fun heq => hc heq.symm) ih

theorem mem_entries_of_get? {m : JmsMessage} {key v : String} (hkey : Clear key)
    (h : m.properties.get? (encode key) = some v) : ∃ es, TextMap.entries m = .ok es ∧ (key, v) ∈ es := by
  exact ⟨_, rfl, List.mem_map.2 ⟨(encode key, v), KeyMap.get?_eq_some_iff.1 h, by simp only [decode_encode hkey]⟩⟩

/-- A key is read back from its stored form exactly if it is clear, and no stored form holds a dash. Two
clear keys are never stored under one property: a message that takes both keeps both, each under its own
key. -/
theorem readable_iff_clear (key : String) :
    (decode (encode key) = key ↔ Clear key) ∧ '-' ∉ (encode key).toList ∧
    ∀ other, Clear key → Clear other → key ≠ other → encode key ≠ encode other ∧
      ∀ (m : JmsMessage) (v w : String), m.readOnly = false →
        ∃ m', putAll [(key, v), (other, w)] m = .ok () m' ∧
          m'.properties.get? (encode key) = some v ∧ m'.properties.get? (encode other) = some w ∧
          ∃ es, TextMap.entries m' = .ok es ∧ (key, v) ∈ es ∧ (other, w) ∈ es := by
  refine ⟨decode_encode_iff key, ?_, fun other hkey hother hne => ?_⟩
  · rw [encode, String.toList_ofList]
    exact dash_not_mem_encodeChars key.toList
  · have hstored : encode key ≠ encode other := by
      intro heq
      have hdecoded := congrArg decode heq
      rw [decode_encode hkey, decode_encode hother] at hdecoded
      exact hne hdecoded
    refine ⟨hstored, fun m v w hm => ?_⟩
    let m' : JmsMessage :=
      { m with properties := (m.properties.insert (encode key) v).insert (encode other) w }
    have hput : putAll [(key, v), (other, w)] m = .ok () m' := by
      simp [putAll, bind, EStateM.bind, TextMap.put, hm, m']
      rfl
    have hfirst : m'.properties.get? (encode key) = some v := by
      rw [KeyMap.get?_insert_of_ne _ hstored.symm, KeyMap.get?_insert_self]
    have hsecond : m'.properties.get? (encode other) = some w := KeyMap.get?_insert_self _ _ _
    obtain ⟨es, hes, hv⟩ := mem_entries_of_get? hkey hfirst
    obtain ⟨fs, hfs, hw⟩ := mem_entries_of_get? hother hsecond
    rw [hes] at hfs
    cases hfs
    exact ⟨m', hput, hfirst, hsecond, es, hes, hv, hw⟩

/-- What stands for a dash may begin in a dash and go on in the key. -/
theorem readable_iff_clear_overlapping :
    let m : JmsMessage := ⟨.empty, "", false⟩
    encode "-$dash$_" = "_$dash$_$dash$_" ∧ decode (encode "-$dash$_") = "-$dash$_" ∧
      ∃ m', putAll [("-$dash$_", "1"), ("_$dash_", "2")] m = .ok () m' ∧
        m'.properties.entries = [("_$dash$_$dash$_", "1"), ("_$dash_", "2")] ∧
        ∃ es, TextMap.entries m' = .ok es ∧ ("-$dash$_", "1") ∈ es ∧ ("_$dash_", "2") ∈ es := by
  intro m
  have hkey : Clear "-$dash$_" := by decide +kernel
  have hother : Clear "_$dash_" := by decide +kernel
  obtain ⟨hiff, -, hpair⟩ := readable_iff_clear "-$dash$_"
  obtain ⟨m', hput, -, -, hes⟩ := (hpair "_$dash_" hkey hother (by decide)).2 m "1" "2" rfl
  refine ⟨by decide +kernel, hiff.2 hkey, m', hput, ?_, hes⟩
  cases hput
  decide +kernel

/-- A dash behind the first seven characters is taken for the eighth. -/
example : decode (encode "_$dash$-") = "-$dash$_" := by decide +kernel

end SpanFlow.JmsKey
