import SpanFlow.Proofs.Json.Double
import SpanFlow.Proofs.Json.Fields
import SpanFlow.Proofs.KeyMap
import SpanFlow.Span.Data

/-!
Contexts and span records as documents. Main statement: what is written is read back, field by field. The values
of tags and of log fields carry no mark of their sort, and still each keeps it: a floating-point number is never
written as an integer would be.
-/

namespace SpanFlow

section Sorts

def Attribute.isFinite : Attribute → Bool
  | .float x => x.isFinite
  | _ => true

inductive Attribute.Alike : Attribute → Attribute → Prop
  | same (a : Attribute) : Alike a a
  | float (x y : Double) : Alike (.float x) (.float y)

def KeyMap.Alike (m n : KeyMap Attribute) : Prop :=
  m.entries.Forall₂ (fun e e' => e.1 = e'.1 ∧ e.2.Alike e'.2) n.entries

structure LogRecord.Alike (r s : LogRecord) : Prop where
  time : r.time = s.time
  fields : r.fields.Alike s.fields

/-- Equal in every field, but for floating-point numbers among the tags and in the logs. -/
structure SpanData.Alike (d e : SpanData) : Prop where
  others : { d with tags := e.tags, logs := e.logs } = e
  tags : d.tags.Alike e.tags
  logs : d.logs.Forall₂ LogRecord.Alike e.logs

structure SpanData.IsFinite (d : SpanData) : Prop where
  tags : ∀ e ∈ d.tags.entries, e.2.isFinite = true
  logs : ∀ r ∈ d.logs, ∀ e ∈ r.fields.entries, e.2.isFinite = true

end Sorts

namespace Attribute

theorem proper_toJson (a : Attribute) : a.toJson.Proper := by
  cases a with
  | text s => exact .text s
  | int i => exact .ofInt i.toInt
  | float x =>
    rw [toJson, Json.ofDouble]
    split
    · exact .number (Json.Numeral.proper_ofDouble x)
    · exact .null
  | bool b => exact .bool b
  | texts items => exact .list_map fun s _ => .text s

/-- A value is read as one of the same sort. The numbers are told apart by the form of their numeral: that of an
integer has neither point nor power, that of a floating-point number one of them. -/
theorem ofJson?_toJson {a : Attribute} (h : a.isFinite = true) : ∃ b, ofJson? a.toJson = some b ∧ a.Alike b := by
  cases a with
  | text s => exact ⟨_, rfl, .same _⟩
  | int i =>
    refine ⟨.int i, ?_, .same _⟩
    have hrange : Int64.minValue.toInt ≤ i.toInt ∧ i.toInt ≤ Int64.maxValue.toInt := ⟨i.minValue_le_toInt, i.toInt_le⟩
    rw [toJson, Json.ofInt, ofJson?, ofNumeral?, Json.Numeral.int?_ofInt]
    simp only [if_pos hrange, Int64.ofInt_toInt]
  | float x =>
    obtain ⟨y, hy⟩ := Option.isSome_iff_exists.1 (Json.Numeral.toDouble?_ofDouble h)
    refine ⟨.float y, ?_, .float x y⟩
    rw [toJson, Json.ofDouble, if_pos (show x.isFinite = true from h), ofJson?, ofNumeral?, Json.Numeral.int?_ofDouble, hy]
    rfl
  | bool b => exact ⟨_, rfl, .same _⟩
  | texts items =>
    have hread : Json.list? Json.text? (.texts items) = some items := Json.list?_map_eq fun s _ => rfl
    exact ⟨.texts items, congrArg (Option.map texts) hread, .same _⟩

theorem ofJson?_toJson_eq_none {a : Attribute} (h : a.isFinite = false) : ofJson? a.toJson = none := by
  cases a with
  | float x => rw [toJson, Json.ofDouble, if_neg (show ¬x.isFinite = true from Bool.eq_false_iff.1 h), ofJson?] <;> nofun
  | text s => cases h
  | int i => cases h
  | bool b => cases h
  | texts items => cases h

end Attribute

namespace LogRecord

theorem proper_attributesJson (m : KeyMap Attribute) : (attributesJson m).Proper := by
  refine .obj fun e he => ?_
  obtain ⟨x, _, rfl⟩ := List.mem_map.1 he
  exact x.2.proper_toJson

theorem entries?_attributesJson {m : KeyMap Attribute} (h : ∀ e ∈ m.entries, e.2.isFinite = true) :
    ∃ l, Json.entries? Attribute.ofJson? (attributesJson m) = some l ∧ m.Alike (.ofList l) := by
  obtain ⟨l, hread, halike⟩ := Json.entries?_obj (R := Attribute.Alike) fun e he => Attribute.ofJson?_toJson (h e he)
  refine ⟨l, hread, ?_⟩
  have hkeys : m.entries.map (·.1) = l.map (·.1) := by
    rw [← List.forall₂_eq_eq_eq, List.forall₂_map_left_iff, List.forall₂_map_right_iff]
    exact halike.imp fun _ _ h => h.1
  have hsorted : l.Pairwise fun a b => a.1 < b.1 := by
    rw [← List.pairwise_map (R := (· < ·)), ← hkeys, List.pairwise_map]
    exact m.sorted
  rw [KeyMap.Alike, KeyMap.entries_ofList hsorted]
  exact halike

theorem proper_toJson (r : LogRecord) : r.toJson.Proper := by
  refine .obj ?_
  simp only [List.forall_mem_cons]
  exact ⟨.ofNat _, proper_attributesJson _, nofun⟩

theorem ofJson?_toJson {r : LogRecord} (h : ∀ e ∈ r.fields.entries, e.2.isFinite = true) :
    ∃ s, ofJson? r.toJson = some s ∧ r.Alike s := by
  obtain ⟨l, hread, halike⟩ := entries?_attributesJson h
  refine ⟨⟨r.time, .ofList l⟩, ?_, rfl, halike⟩
  rw [ofJson?, toJson, Json.fields?_obj (by decide : fieldNames.Nodup) rfl]
  simp [Json.Fields.required, List.lookup_cons, hread]

end LogRecord

namespace Kind

theorem choice?_name (k : Kind) : Json.choice? named (.text k.name) = some k := by
  cases k <;> rfl

end Kind

namespace Status

theorem choice?_name (s : Status) : Json.choice? named (.text s.name) = some s := by
  cases s <;> rfl

end Status

namespace SpanData

theorem proper_toJson (d : SpanData) : d.toJson.Proper := by
  have hparent : (Json.ofOption (fun p : SpanId => .ofNat p.toNat) d.parent).Proper := by
    cases d.parent with
    | none => exact .null
    | some p => exact .ofNat p.toNat
  refine .obj ?_
  simp only [List.forall_mem_cons]
  exact ⟨.ofNat _, .ofNat _, hparent, .ofNat _, .ofNat _, .text _, .text _, LogRecord.proper_attributesJson _,
    .list_map fun r _ => r.proper_toJson, .text _, .bool _, nofun⟩

theorem ofJson?_toJson {d : SpanData} (h : d.IsFinite) : ∃ e, ofJson? d.toJson = some e ∧ d.Alike e := by
  obtain ⟨tags, htags, halike⟩ := LogRecord.entries?_attributesJson h.tags
  obtain ⟨logs, hlogs, hlogsAlike⟩ := Json.list?_map (R := LogRecord.Alike) fun r hr => LogRecord.ofJson?_toJson (h.logs r hr)
  refine ⟨{ d with tags := .ofList tags, logs := logs }, ?_, rfl, halike, hlogsAlike⟩
  have hparent (fs : Json.Fields) (h : fs.lookup "parent_span_id" = some (.ofOption (fun p => .ofNat p.toNat) d.parent)) :
      fs.optional "parent_span_id" (Json.word? 64) = some d.parent :=
    Json.Fields.optional_ofOption h nofun fun p => Json.word?_ofNat p
  rw [ofJson?, toJson, Json.fields?_obj (by decide : fieldNames.Nodup) rfl]
  simp [Json.Fields.required, List.lookup_cons, hparent, Json.text?, Json.bool?, Kind.choice?_name, Status.choice?_name,
    htags, hlogs]

end SpanData

namespace Context

theorem proper_toJson (c : Context) : c.toJson.Proper := by
  have hbaggage : (Json.obj (c.baggage.entries.map fun e => (e.1, .text e.2))).Proper := by
    refine .obj fun e he => ?_
    obtain ⟨x, _, rfl⟩ := List.mem_map.1 he
    exact .text x.2
  refine .obj ?_
  simp only [List.forall_mem_cons]
  exact ⟨.ofNat _, .ofNat _, .bool _, hbaggage, nofun⟩

theorem ofJson?_toJson (c : Context) : ofJson? c.toJson = some c := by
  have hread : Json.entries? Json.text? (.obj (c.baggage.entries.map fun e => (e.1, .text e.2))) =
      some c.baggage.entries := Json.entries?_obj_eq fun e _ => rfl
  have hbaggage : KeyMap.ofList c.baggage.entries = c.baggage := KeyMap.ext (KeyMap.entries_ofList c.baggage.sorted)
  rw [ofJson?, toJson, Json.fields?_obj (by decide : fieldNames.Nodup) rfl]
  simp [Json.Fields.required, List.lookup_cons, hread, Json.bool?, hbaggage]

end Context

/-- **A context and a span record are read back from their text.** Whatever the identifiers and the baggage of a
context, the text gives back that context. Whatever the tags, logs, texts and times of a span record, so long as
its floating-point numbers are finite, the text gives back a record that is equal in every field, where a
floating-point number is one again; in particular no value of a tag or of a log field changes its sort. -/
theorem documents_read_back :
    (∀ c : Context, (Json.parse? c.toJson.render).bind Context.ofJson? = some c) ∧
    ∀ d : SpanData, d.IsFinite → ∃ e, (Json.parse? d.toJson.render).bind SpanData.ofJson? = some e ∧ d.Alike e := by
  constructor
  · intro c
    rw [Json.parse?_render c.proper_toJson, Option.bind_some]
    exact c.ofJson?_toJson
  · intro d hd
    rw [Json.parse?_render d.proper_toJson, Option.bind_some]
    exact SpanData.ofJson?_toJson hd

/-- Numbers that are near to changing their sort: a one with and without a point, the integers of 64 bits at the
ends of their range, a negative zero, the greatest and the least number. -/
theorem numbers_read_back :
    let fields : KeyMap Attribute := ⟨[("greatest", .float ⟨0x7fefffffffffffff⟩), ("least", .float ⟨1⟩),
      ("zero", .float ⟨0x8000000000000000⟩)], by decide⟩
    let tags : KeyMap Attribute := ⟨[("first", .int Int64.minValue), ("last", .int Int64.maxValue),
      ("one", .int 1), ("one.0", .float .one), ("text", .text "1.0"), ("texts", .texts ["true", "\"\u0001\\"]), ("true", .bool true)], by decide⟩
    let d : SpanData := ⟨.allOnes 128, .allOnes 64, some 7, 1, 0, "a \"b\"", .server, tags, [⟨3, fields⟩, ⟨2, .empty⟩], .error, true⟩
    d.IsFinite ∧ ∃ e, (Json.parse? d.toJson.render).bind SpanData.ofJson? = some e ∧ d.Alike e := by
  intro fields tags d
  have hd : d.IsFinite := ⟨by decide, by decide⟩
  exact ⟨hd, documents_read_back.2 d hd⟩

end SpanFlow
