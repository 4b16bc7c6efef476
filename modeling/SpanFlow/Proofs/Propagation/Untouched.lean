import SpanFlow.Proofs.Carrier.Others
import SpanFlow.Proofs.Propagation.RoundTrip
import SpanFlow.Proofs.Propagation.Tree

/-!
What injection leaves alone. A format's own keys for a context are its fixed keys and, under each of its
prefixes, the keys of the baggage. Main statement: whatever a tree of formats does to a transport
object, and wherever it fails, the object without its own headers is the one that it was.
-/

namespace SpanFlow.FormatTree

variable {C : Type}

def ownKeys (t : FormatTree) (c : Context) : List String :=
  t.fields ++ t.usedPrefixes.flatMap fun p => c.baggage.keys.map fun k => p ++ k

def after [TextMap C] (t : FormatTree) (c : Context) (m : C) : C :=
  stateOf (t.propagator.inject c m)

theorem mem_ownKeys {t : FormatTree} {c : Context} {e : String × String} (he : e ∈ t.written c) :
    e.1 ∈ t.ownKeys c := by
  obtain ⟨f, hf, he⟩ := List.mem_flatMap.1 he
  cases f with
  | w3c => exact List.mem_append_left _ (mem_fields_iff.2 ⟨.w3c, hf, Format.mem_fields_of_mem_written he⟩)
  | b3 p =>
    rw [SingleFormat.written, B3.written_eq] at he
    rcases List.mem_append.1 he with he | he
    · exact List.mem_append_left _ (mem_fields_iff.2 ⟨.b3 p, hf, B3.mem_fields_of_mem_writtenParts he⟩)
    · obtain ⟨i, hi, rfl⟩ := List.mem_map.1 he
      have hprefix : B3.usedPrefix p ∈ t.usedPrefixes := mem_usedPrefixes_iff.2 ⟨.b3 p, hf, rfl⟩
      have hkey : i.1 ∈ c.baggage.keys := List.mem_map_of_mem hi
      exact List.mem_append_right _ (List.mem_flatMap.2 ⟨_, hprefix, List.mem_map_of_mem hkey⟩)

theorem after_leaves [TextMap C] {D : Type} (rest : C → D) (t : FormatTree) (c : Context)
    (hput : ∀ k ∈ t.ownKeys c, ∀ (v : String) (m : C), rest (stateOf (TextMap.put k v m)) = rest m) (m : C) :
    rest (t.after c m) = rest m := by
  rw [after, inject_eq]
  exact putAll_leaves rest (fun e he => hput e.1 (mem_ownKeys he) e.2) m

/-- Injection changes no header but those under the format's own keys, as the transport stores their
names: dashes are encoded for JMS, and HTTP has small letters. All that is kept is as before, in the same
order and with all its values, and so is everything else in the message, even where the injection fails
in the middle. -/
theorem injection_spares_others (t : FormatTree) (c : Context) (keep : String → Bool) :
    ((∀ k ∈ t.ownKeys c, keep k = false) →
      (∀ m : KeyMap String, (t.after c m).only keep = m.only keep) ∧
      (∀ order, ∀ m : Unordered order, (t.after c m).content.only keep = m.content.only keep) ∧
      (∀ m : AmqpMessage, (t.after c m).only keep = m.only keep) ∧
      (∀ m : StompMessage, (t.after c m).only keep = m.only keep)) ∧
    ((∀ k ∈ t.ownKeys c, keep (JmsKey.encode k) = false) →
      ∀ m : JmsMessage, (t.after c m).only keep = m.only keep) ∧
    ((∀ k ∈ t.ownKeys c, keep (Ascii.lower k) = false) →
      (∀ m : HeaderMap, (t.after c m).only keep = m.only keep) ∧
      (∀ m : WriteOnly HeaderMap, (t.after c m).object.only keep = m.object.only keep)) := by
  refine ⟨fun h => ⟨?_, fun order => ?_, ?_, ?_⟩, fun h => ?_, fun h => ⟨?_, ?_⟩⟩
  · exact t.after_leaves _ c fun k hk => only_put_map (h k hk)
  · exact t.after_leaves (fun m : Unordered order => m.content.only keep) c
      fun k hk v m => m.content.only_insert (h k hk) v
  · exact t.after_leaves _ c fun k hk => only_put_amqp (h k hk)
  · exact t.after_leaves _ c fun k hk => only_put_stomp (h k hk)
  · exact t.after_leaves _ c fun k hk => only_put_jms (h k hk)
  · exact t.after_leaves _ c fun k hk => only_put_http (h k hk)
  · refine t.after_leaves (fun m : WriteOnly HeaderMap => m.object.only keep) c fun k hk v m => ?_
    rw [stateOf_put_writeOnly, only_put_http (h k hk)]

/-- HTTP refuses a blank in a name after other headers were written; both values of `via` are still there. -/
theorem injection_spares_others_refused :
    let t : FormatTree := .composite [.leaf .w3c, .composite [.leaf (.b3 "Baggage-"), .composite []]]
    let c := (Context.new 1 2 true).withBaggage [("a b", "1")]
    let keep : String → Bool := fun name => name == "via"
    let m := (HeaderMap.empty.append "Via" [97]).append "via" [98]
    (∀ k ∈ t.ownKeys c, keep (Ascii.lower k) = false) ∧
      (∃ e m', t.propagator.inject c m = .error e m' ∧ m'.fields.length = 6) ∧
      (t.after c m).only keep = m.only keep ∧ (m.only keep).fields = [("via", [[97], [98]])] := by
  intro t c keep m
  have hkeep : ∀ k ∈ t.ownKeys c, keep (Ascii.lower k) = false := by decide +kernel
  have hrefused : (match t.propagator.inject c m with
      | .ok () _ => none
      | .error _ m' => some m'.fields.length) = some 6 := by decide +kernel
  refine ⟨hkeep, ?_, ((injection_spares_others t c keep).2.2 hkeep).1 m, by decide +kernel⟩
  cases hm : t.propagator.inject c m with
  | ok u m' =>
    rw [hm] at hrefused
    cases hrefused
  | error e m' =>
    rw [hm] at hrefused
    exact ⟨e, m', rfl, Option.some.inj hrefused⟩

end SpanFlow.FormatTree
