import SpanFlow.Proofs.Propagation.Tree

/-!
Composites within composites and one composite of all that they hold. Main statements: a tree of
propagators is the composite of its leaves from left to right; such a composite writes one leaf after
the other up to the first that fails, asks one leaf after the other up to the first that has something
to say, and makes the same puts in the same order, also those that the carrier refuses.
-/

namespace SpanFlow

variable {L C : Type}

namespace Propagator

inductive Wrote (context : Context) : List (Propagator C) → C → C → Prop
  | nil (m : C) : Wrote context [] m m
  | cons {p : Propagator C} {ps : List (Propagator C)} {m m' m'' : C}
      (first : p.inject context m = .ok () m') (rest : Wrote context ps m' m'') : Wrote context (p :: ps) m m''

/-- The propagators of the row all write, or those before some one write and that one fails. -/
def WritesInTurn (context : Context) (ps : List (Propagator C)) (m : C) :
    EStateM.Result CarrierError C Unit → Prop
  | .ok _ m' => Wrote context ps m m'
  | .error e m' => ∃ before p after m₀, ps = before ++ p :: after ∧ Wrote context before m m₀ ∧
      p.inject context m₀ = .error e m'

def AsksInTurn (ps : List (Propagator C)) (m : C) (answer : Except CarrierError (Option Context)) : Prop :=
  (answer = .ok none ∧ ∀ p ∈ ps, (p.extract m).answer = .ok none) ∨
    (answer ≠ .ok none ∧ ∃ before p after, ps = before ++ p :: after ∧
      (∀ q ∈ before, (q.extract m).answer = .ok none) ∧ (p.extract m).answer = answer)

/-- A propagator that does what the propagators of a row do one after the other. -/
structure IsRow (p : Propagator C) (ps : List (Propagator C)) : Prop where
  inject (context : Context) (m : C) : WritesInTurn context ps m (p.inject context m)
  extract (m : C) : AsksInTurn ps m (p.extract m).answer
  fields : p.fields = ps.flatMap Propagator.fields

theorem injectAll_inTurn (context : Context) (ps : List (Propagator C)) (m : C) :
    WritesInTurn context ps m (injectAll context ps m) := by
  induction ps generalizing m with
  | nil => exact .nil m
  | cons p ps ih =>
    simp only [injectAll, bind, EStateM.bind]
    cases hp : p.inject context m with
    | error e m' => exact ⟨[], p, ps, m, rfl, .nil m, hp⟩
    | ok u m' =>
      have later := ih m'
      dsimp only
      cases hps : injectAll context ps m' with
      | ok u m'' =>
        rw [hps] at later
        exact Wrote.cons hp later
      | error e m'' =>
        rw [hps] at later
        obtain ⟨before, q, after, m₀, rfl, wrote, failed⟩ := later
        exact ⟨p :: before, q, after, m₀, rfl, .cons hp wrote, failed⟩

theorem extractFirst_inTurn (ps : List (Propagator C)) (m : C) : AsksInTurn ps m (extractFirst m ps).answer := by
  induction ps with
  | nil => exact .inl ⟨rfl, by simp⟩
  | cons p ps ih =>
    by_cases found : (p.extract m).answer = .ok none
    · have passed : (extractFirst m (p :: ps)).answer = (extractFirst m ps).answer := by
        simp only [extractFirst, found]
      rw [passed]
      obtain ⟨hnone, all⟩ | ⟨hsome, before, q, after, rfl, hbefore, hq⟩ := ih
      · exact .inl ⟨hnone, List.forall_mem_cons.2 ⟨found, all⟩⟩
      · exact .inr ⟨hsome, p :: before, q, after, rfl, List.forall_mem_cons.2 ⟨found, hbefore⟩, hq⟩
    · have stopped : (extractFirst m (p :: ps)).answer = (p.extract m).answer := by
        rw [extractFirst_cons, Extraction.orElse]
        split
        · exact absurd ‹_› found
        · rfl
      rw [stopped]
      exact .inr ⟨found, [], p, ps, rfl, by simp, rfl⟩

theorem composite_isRow (ps : List (Propagator C)) : (composite ps).IsRow ps where
  inject context := injectAll_inTurn context ps
  extract := extractFirst_inTurn ps
  fields := rfl

end Propagator

/-- A carrier with the entries that were put to it so far, taken or refused, in order. -/
structure Recorded (C : Type) where
  object : C
  puts : Entries

namespace Recorded

instance [TextMap C] : TextMap (Recorded C) where
  name m := TextMap.name m.object
  entries m := TextMap.entries m.object
  put k v := fun m =>
    match TextMap.put k v m.object with
    | .ok () o => .ok () ⟨o, m.puts ++ [(k, v)]⟩
    | .error e o => .error e ⟨o, m.puts ++ [(k, v)]⟩

theorem put_taken [TextMap C] {k v : String} {m : Recorded C} {o : C}
    (taken : TextMap.put k v m.object = .ok () o) : TextMap.put k v m = .ok () (⟨o, m.puts ++ [(k, v)]⟩ : Recorded C) := by
  simp only [TextMap.put, taken]

theorem put_refused [TextMap C] {k v : String} {m : Recorded C} {e : CarrierError} {o : C}
    (refused : TextMap.put k v m.object = .error e o) :
    TextMap.put k v m = .error e (⟨o, m.puts ++ [(k, v)]⟩ : Recorded C) := by
  simp only [TextMap.put, refused]

theorem putAll_taken [TextMap C] {es : Entries} {m : Recorded C} {o : C} (taken : putAll es m.object = .ok () o) :
    putAll es m = .ok () (⟨o, m.puts ++ es⟩ : Recorded C) := by
  induction es generalizing m with
  | nil =>
    cases taken
    simp [putAll, pure, EStateM.pure]
  | cons e es ih =>
    obtain ⟨o', he, hes⟩ := putAll_cons_of_ok taken
    have later := @ih ⟨o', m.puts ++ [e]⟩ hes
    simp only [putAll, bind, EStateM.bind, put_taken he, later, List.append_assoc, List.singleton_append]

theorem putAll_refused [TextMap C] {es : Entries} {m : Recorded C} {e : CarrierError} {o : C}
    (refused : putAll es m.object = .error e o) : ∃ before x after mid, es = before ++ x :: after ∧
      putAll before m.object = .ok () mid ∧ putAll es m = .error e (⟨o, m.puts ++ before ++ [x]⟩ : Recorded C) := by
  obtain ⟨before, x, after, mid, rfl, hbefore, hx⟩ := split_of_putAll_error refused
  exact ⟨before, x, after, mid, rfl, hbefore, putAll_error_of_split (putAll_taken hbefore) (put_refused hx)⟩

end Recorded

/-- A propagator for carriers of every sort: of a carrier it knows what every carrier offers, and no more. -/
abbrev UniformPropagator : Type 1 := (D : Type) → [TextMap D] → Propagator D

namespace UniformPropagator

def puts [TextMap C] (p : UniformPropagator) (context : Context) (m : C) : Entries :=
  match (p (Recorded C)).inject context ⟨m, []⟩ with
  | .ok _ r => r.puts
  | .error _ r => r.puts

end UniformPropagator

/-- A tree of the formats at hand puts all that they write, or that up to the first entry that is refused. -/
theorem FormatTree.puts_eq [TextMap C] (t : FormatTree) (context : Context) (m : C) :
    match (t.propagator : Propagator C).inject context m with
    | .ok _ _ => UniformPropagator.puts (fun _ => t.propagator) context m = t.written context
    | .error _ _ => ∃ before x after mid, t.written context = before ++ x :: after ∧
        putAll before m = .ok () mid ∧ UniformPropagator.puts (fun _ => t.propagator) context m = before ++ [x] := by
  simp only [UniformPropagator.puts, inject_eq]
  cases h : putAll (t.written context) m with
  | ok u o =>
    rw [Recorded.putAll_taken (m := ⟨m, []⟩) h]
    rfl
  | error e o =>
    obtain ⟨before, x, after, mid, hes, hbefore, hrefused⟩ := Recorded.putAll_refused (m := ⟨m, []⟩) h
    rw [hrefused]
    exact ⟨before, x, after, mid, hes, hbefore, rfl⟩

namespace PropagatorTree

theorem build_eq_composite (f : L → Propagator C) (t : PropagatorTree L) :
    t.build f = .composite (t.leaves.map f) := by
  have hfields : (t.build f).fields = (t.leaves.map f).flatMap Propagator.fields := by
    rw [fields_build, List.flatMap_map]
  have hinject : (t.build f).inject = fun context => Propagator.injectAll context (t.leaves.map f) :=
    funext fun context => inject_build f context t
  have hextract : (t.build f).extract = fun m => Propagator.extractFirst m (t.leaves.map f) :=
    funext fun m => extract_build f m t
  rw [Propagator.composite, ← hfields, ← hinject, ← hextract]

/-- A tree of propagators of any sort is the composite of its leaves: it writes them in turn, asks them in
turn and names their fields in turn, and the puts that it makes on the way are theirs. -/
theorem tree_is_row (t : PropagatorTree L) :
    (∀ f : L → Propagator C, t.build f = .composite (t.leaves.map f) ∧ (t.build f).IsRow (t.leaves.map f)) ∧
    ∀ [TextMap C] (f : L → UniformPropagator) (context : Context) (m : C),
      UniformPropagator.puts (fun D _ => t.build fun l => f l D) context m =
        UniformPropagator.puts (fun D _ => .composite (t.leaves.map fun l => f l D)) context m := by
  refine ⟨fun f => ?_, fun f context m => ?_⟩
  · rw [build_eq_composite]
    exact ⟨rfl, Propagator.composite_isRow _⟩
  · simp only [UniformPropagator.puts, build_eq_composite]

end PropagatorTree

end SpanFlow
