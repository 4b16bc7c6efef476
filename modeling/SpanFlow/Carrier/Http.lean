import SpanFlow.Carrier.Basic
import SpanFlow.Text.Token
import SpanFlow.Text.Utf8

/-!
HTTP header fields. Names are compared without case and kept in small letters; a name may have
several values; names stand in the order in which they first came.
-/

namespace SpanFlow

abbrev HeaderValue := List UInt8

def isHeaderByte (b : UInt8) : Bool :=
  b == 9 || (0x20 ≤ b && b ≠ 0x7F)

/-- The most bytes that the name of a header may have. The characters of a token are single bytes. -/
def maxNameLength : Nat := 65535

def isHeaderName (s : String) : Bool :=
  Token.isToken s && decide (s.toList.length ≤ maxNameLength)

def headerText (v : HeaderValue) : String :=
  String.ofList (Utf8.decodeLossy v)

def putValues (name : String) (values : List HeaderValue) :
    List (String × List HeaderValue) → List (String × List HeaderValue)
  | [] => [(name, values)]
  | f :: r => if f.1 = name then (name, values) :: r else f :: putValues name values r

theorem map_fst_putValues_of_mem {name : String} {values : List HeaderValue}
    {fields : List (String × List HeaderValue)} (h : name ∈ fields.map (·.1)) :
    (putValues name values fields).map (·.1) = fields.map (·.1) := by
  induction fields with
  | nil => simp at h
  | cons f r ih =>
    simp only [putValues]
    split
    · next he => simp [he]
    · next hne =>
      simp only [List.map_cons, List.mem_cons] at h
      rcases h with h | h
      · exact absurd h.symm hne
      · simp [ih h]

theorem map_fst_putValues_of_not_mem {name : String} {values : List HeaderValue}
    {fields : List (String × List HeaderValue)} (h : name ∉ fields.map (·.1)) :
    (putValues name values fields).map (·.1) = fields.map (·.1) ++ [name] := by
  induction fields with
  | nil => simp [putValues]
  | cons f r ih =>
    simp only [List.map_cons, List.mem_cons, not_or] at h
    simp [putValues, Ne.symm h.1, ih h.2]

theorem nodup_putValues {name : String} {values : List HeaderValue}
    {fields : List (String × List HeaderValue)} (h : (fields.map (·.1)).Nodup) :
    ((putValues name values fields).map (·.1)).Nodup := by
  rcases Decidable.em (name ∈ fields.map (·.1)) with hm | hm
  · rw [map_fst_putValues_of_mem hm]; exact h
  · rw [map_fst_putValues_of_not_mem hm]
    refine List.nodup_append.2 ⟨h, by simp, fun a ha b hb => ?_⟩
    rw [List.mem_singleton] at hb
    subst hb
    exact fun e => hm (e ▸ ha)

theorem lower_putValues {name : String} {values : List HeaderValue}
    {fields : List (String × List HeaderValue)} (hn : Ascii.lower name = name)
    (h : ∀ n ∈ fields.map (·.1), Ascii.lower n = n) :
    ∀ n ∈ (putValues name values fields).map (·.1), Ascii.lower n = n := by
  intro n hmem
  rcases Decidable.em (name ∈ fields.map (·.1)) with hm | hm
  · rw [map_fst_putValues_of_mem hm] at hmem; exact h n hmem
  · rw [map_fst_putValues_of_not_mem hm, List.mem_append, List.mem_singleton] at hmem
    rcases hmem with hmem | rfl
    · exact h n hmem
    · exact hn

/-- Header fields: distinct names in small letters, each with its values. -/
structure HeaderMap where
  fields : List (String × List HeaderValue)
  nodup : (fields.map (·.1)).Nodup
  lower : ∀ n ∈ fields.map (·.1), Ascii.lower n = n

namespace HeaderMap

def empty : HeaderMap := ⟨[], by simp, by simp⟩

def values (m : HeaderMap) (name : String) : List HeaderValue :=
  (m.fields.lookup name).getD []

def set (m : HeaderMap) (name : String) (values : List HeaderValue) : HeaderMap :=
  ⟨putValues (Ascii.lower name) values m.fields, nodup_putValues m.nodup,
    lower_putValues (Ascii.lower_lower name) m.lower⟩

/-- Adds a value after those a name already has; names and values that HTTP does not admit are
passed over. -/
def append (m : HeaderMap) (name : String) (value : HeaderValue) : HeaderMap :=
  if isHeaderName name && value.all isHeaderByte then
    m.set name (m.values (Ascii.lower name) ++ [value])
  else m

def entries (m : HeaderMap) : Entries :=
  m.fields.flatMap fun (n, vs) => vs.map fun v => (n, headerText v)

/-- Writes one header, in place of all its earlier values. The map has room for it: see `writeAll`. -/
def put (m : HeaderMap) (key value : String) : Except CarrierError HeaderMap :=
  if !isHeaderName key then .error (.invalidEntry key "invalid HTTP header name")
  else
    let bytes := Utf8.encode value.toList
    if !bytes.all isHeaderByte then .error (.invalidEntry key "failed to parse header value")
    else .ok (m.set key [bytes])

/-- The most names for which the table of a map has room. It has less where too many names collide. -/
def maxNames : Nat := 24576

/-- How a row of writes ends: they are all made, one of them is refused, or one panics. -/
inductive WriteEnd where
  | written (m : HeaderMap)
  | refused (e : CarrierError) (m : HeaderMap)
  | panicked (m : HeaderMap)

/-- Writes entries one after the other. A write to a full map panics, even where the map has the name
already. -/
def writeAll (full : HeaderMap → Bool) : Entries → HeaderMap → WriteEnd
  | [], m => .written m
  | (k, v) :: r, m =>
    match m.put k v with
    | .error e => .refused e m
    | .ok m' => if full m then .panicked m else writeAll full r m'

end HeaderMap

instance : TextMap HeaderMap where
  name _ := "http_headers"
  entries m := .ok m.entries
  put k v := fun m =>
    match m.put k v with
    | .ok m' => .ok () m'
    | .error e => .error e m

end SpanFlow
