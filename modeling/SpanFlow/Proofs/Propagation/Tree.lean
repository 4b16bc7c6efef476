import SpanFlow.Proofs.Propagation.Entries
import SpanFlow.Propagation.B3
import SpanFlow.Propagation.TraceContext

namespace SpanFlow

variable {L C : Type}

namespace Extraction

def orElse (x y : Extraction) : Extraction :=
  match x.answer with
  | .ok none => ⟨x.events ++ y.events, y.answer⟩
  | _ => x

theorem orElse_absent (x : Extraction) : x.orElse absent = x := by
  obtain ⟨events, answer⟩ := x
  rcases answer with e | (_ | c) <;> simp [orElse, absent]

theorem absent_orElse (x : Extraction) : absent.orElse x = x := by
  simp [orElse, absent]

theorem orElse_assoc (x y z : Extraction) : (x.orElse y).orElse z = x.orElse (y.orElse z) := by
  obtain ⟨events, answer⟩ := x
  rcases answer with e | (_ | c)
  · simp [orElse]
  · rcases y with ⟨more, answer⟩
    rcases answer with e | (_ | c) <;> simp [orElse]
  · simp [orElse]

end Extraction

namespace Propagator

theorem injectAll_append (c : Context) (ps qs : List (Propagator C)) :
    injectAll c (ps ++ qs) = injectAll c ps >>= fun _ => injectAll c qs := by
  induction ps with
  | nil => rfl
  | cons p ps ih => simp only [List.cons_append, injectAll, ih, bind_assoc]

theorem extractFirst_cons (m : C) (p : Propagator C) (ps : List (Propagator C)) :
    extractFirst m (p :: ps) = (p.extract m).orElse (extractFirst m ps) := rfl

theorem extractFirst_append (m : C) (ps qs : List (Propagator C)) :
    extractFirst m (ps ++ qs) = (extractFirst m ps).orElse (extractFirst m qs) := by
  induction ps with
  | nil => exact (Extraction.absent_orElse _).symm
  | cons p ps ih => rw [List.cons_append, extractFirst_cons, ih, extractFirst_cons, Extraction.orElse_assoc]

end Propagator

/-- Composites one within the other, with a format of some sort at each leaf. -/
inductive PropagatorTree (L : Type) where
  | leaf (l : L)
  | composite (parts : List (PropagatorTree L))

namespace PropagatorTree

mutual

def leaves : PropagatorTree L → List L
  | .leaf l => [l]
  | .composite parts => leavesAll parts

def leavesAll : List (PropagatorTree L) → List L
  | [] => []
  | t :: r => t.leaves ++ leavesAll r

end

mutual

def build (f : L → Propagator C) : PropagatorTree L → Propagator C
  | .leaf l => f l
  | .composite parts => .composite (buildAll f parts)

def buildAll (f : L → Propagator C) : List (PropagatorTree L) → List (Propagator C)
  | [] => []
  | t :: r => t.build f :: buildAll f r

end

mutual

theorem inject_build (f : L → Propagator C) (c : Context) : ∀ t : PropagatorTree L,
    (t.build f).inject c = Propagator.injectAll c (t.leaves.map f)
  | .leaf l => by simp [build, leaves, Propagator.injectAll]
  | .composite parts => by
    rw [build, leaves]
    exact injectAll_buildAll f c parts

theorem injectAll_buildAll (f : L → Propagator C) (c : Context) : ∀ ts : List (PropagatorTree L),
    Propagator.injectAll c (buildAll f ts) = Propagator.injectAll c ((leavesAll ts).map f)
  | [] => rfl
  | t :: r => by
    rw [buildAll, leavesAll, List.map_append, Propagator.injectAll_append, Propagator.injectAll, inject_build f c t,
      injectAll_buildAll f c r]

end

mutual

theorem extract_build (f : L → Propagator C) (m : C) : ∀ t : PropagatorTree L,
    (t.build f).extract m = Propagator.extractFirst m (t.leaves.map f)
  | .leaf l => by
    rw [build, leaves, List.map_singleton, Propagator.extractFirst_cons]
    exact (Extraction.orElse_absent _).symm
  | .composite parts => by
    rw [build, leaves]
    exact extractFirst_buildAll f m parts

theorem extractFirst_buildAll (f : L → Propagator C) (m : C) : ∀ ts : List (PropagatorTree L),
    Propagator.extractFirst m (buildAll f ts) = Propagator.extractFirst m ((leavesAll ts).map f)
  | [] => rfl
  | t :: r => by
    rw [buildAll, leavesAll, List.map_append, Propagator.extractFirst_append, Propagator.extractFirst_cons,
      extract_build f m t, extractFirst_buildAll f m r]

end

mutual

theorem fields_build (f : L → Propagator C) : ∀ t : PropagatorTree L,
    (t.build f).fields = t.leaves.flatMap fun l => (f l).fields
  | .leaf l => by simp [build, leaves]
  | .composite parts => by
    rw [build, leaves]
    exact fields_buildAll f parts

theorem fields_buildAll (f : L → Propagator C) : ∀ ts : List (PropagatorTree L),
    (buildAll f ts).flatMap Propagator.fields = (leavesAll ts).flatMap fun l => (f l).fields
  | [] => rfl
  | t :: r => by rw [buildAll, leavesAll, List.flatMap_cons, List.flatMap_append, fields_build f t, fields_buildAll f r]

end

end PropagatorTree

inductive SingleFormat where
  | b3 (baggagePrefix : String)
  | w3c

namespace SingleFormat

def propagator [TextMap C] : SingleFormat → Propagator C
  | .b3 p => B3.propagator p
  | .w3c => TraceContext.propagator

def usedPrefix? : SingleFormat → Option String
  | .b3 p => some (B3.usedPrefix p)
  | .w3c => none

def fields : SingleFormat → List String
  | .b3 _ => B3.fields
  | .w3c => TraceContext.fields

def written : SingleFormat → Context → Entries
  | .b3 p => B3.written (B3.usedPrefix p)
  | .w3c => TraceContext.written

def read : SingleFormat → String → Entries → Extraction
  | .b3 p => B3.read (B3.usedPrefix p)
  | .w3c => TraceContext.read

theorem inject_eq [TextMap C] (f : SingleFormat) (c : Context) :
    (f.propagator : Propagator C).inject c = putAll (f.written c) := by
  cases f <;> rfl

theorem fields_eq [TextMap C] (f : SingleFormat) : (f.propagator : Propagator C).fields = f.fields := by
  cases f <;> rfl

theorem extract_eq [TextMap C] (f : SingleFormat) {m : C} {es : Entries} (hm : TextMap.entries m = .ok es) :
    f.propagator.extract m = f.read (TextMap.name m) es := by
  cases f with
  | b3 p => simp only [propagator, read, B3.propagator, Propagator.ofEntries, hm]
  | w3c => simp only [propagator, read, TraceContext.propagator, Propagator.ofEntries, hm]

end SingleFormat

abbrev FormatTree := PropagatorTree SingleFormat

namespace FormatTree

def propagator [TextMap C] (t : FormatTree) : Propagator C :=
  t.build SingleFormat.propagator

def fields (t : FormatTree) : List String :=
  (t.propagator : Propagator (KeyMap String)).fields

def usedPrefixes (t : FormatTree) : List String :=
  t.leaves.filterMap SingleFormat.usedPrefix?

def written (t : FormatTree) (c : Context) : Entries :=
  t.leaves.flatMap fun f => f.written c

def read (t : FormatTree) (carrier : String) (es : Entries) : Extraction :=
  (t.leaves.map fun f => f.read carrier es).foldr Extraction.orElse .absent

theorem mem_fields_iff {t : FormatTree} {key : String} : key ∈ t.fields ↔ ∃ f ∈ t.leaves, key ∈ f.fields := by
  rw [fields, propagator, PropagatorTree.fields_build]
  simp only [SingleFormat.fields_eq, List.mem_flatMap]

theorem mem_usedPrefixes_iff {t : FormatTree} {p : String} :
    p ∈ t.usedPrefixes ↔ ∃ f ∈ t.leaves, f.usedPrefix? = some p := by
  rw [usedPrefixes, List.mem_filterMap]

theorem injectAll_singles [TextMap C] (c : Context) (fs : List SingleFormat) :
    Propagator.injectAll c (fs.map SingleFormat.propagator) =
      (putAll (fs.flatMap fun f => f.written c) : EStateM CarrierError C Unit) := by
  induction fs with
  | nil => rfl
  | cons f fs ih =>
    funext m
    rw [List.map_cons, Propagator.injectAll, ih, f.inject_eq, List.flatMap_cons, putAll_append]
    simp only [bind, EStateM.bind]
    cases putAll (f.written c) m with
    | ok u m' => rfl
    | error e m' => rfl

/-- A tree puts one row of entries, up to the first that is refused. -/
theorem inject_eq [TextMap C] (t : FormatTree) (c : Context) :
    (t.propagator : Propagator C).inject c = putAll (t.written c) := by
  rw [propagator, PropagatorTree.inject_build, injectAll_singles, written]

/-- A tree reads nothing but the carrier's entries and its name. -/
theorem extract_eq [TextMap C] (t : FormatTree) {m : C} {es : Entries} (hm : TextMap.entries m = .ok es) :
    t.propagator.extract m = t.read (TextMap.name m) es := by
  rw [propagator, PropagatorTree.extract_build, read]
  induction t.leaves with
  | nil => rfl
  | cons f fs ih =>
    rw [List.map_cons, Propagator.extractFirst_cons, ih, f.extract_eq hm]
    rfl

end FormatTree

end SpanFlow
