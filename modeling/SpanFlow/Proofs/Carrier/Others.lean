import SpanFlow.Carrier.Amqp
import SpanFlow.Carrier.Http
import SpanFlow.Carrier.Jms
import SpanFlow.Carrier.Stomp

namespace SpanFlow

variable {α C D : Type} {keep : String → Bool} {k : String}

theorem filter_insertSorted (h : keep k = false) (v : α) (l : List (String × α)) :
    (insertSorted k v l).filter (fun e => keep e.1) = l.filter fun e => keep e.1 := by
  induction l with
  | nil => simp [insertSorted, h]
  | cons e l ih =>
    simp only [insertSorted]
    split
    · simp [h]
    · split
      · next he => simp [he, h]
      · simp [List.filter_cons, ih]

theorem filter_putValues (h : keep k = false) (values : List HeaderValue) (fields : List (String × List HeaderValue)) :
    (putValues k values fields).filter (fun f => keep f.1) = fields.filter fun f => keep f.1 := by
  induction fields with
  | nil => simp [putValues, h]
  | cons f r ih =>
    simp only [putValues]
    split
    · next hf => simp [hf, h]
    · simp [List.filter_cons, ih]

def stateOf : EStateM.Result CarrierError C Unit → C
  | .ok () m => m
  | .error _ m => m

theorem putAll_leaves [TextMap C] (rest : C → D) {es : Entries}
    (hput : ∀ e ∈ es, ∀ m : C, rest (stateOf (TextMap.put e.1 e.2 m)) = rest m) (m : C) :
    rest (stateOf (putAll es m)) = rest m := by
  induction es generalizing m with
  | nil => rfl
  | cons e es ih =>
    have he := hput e (by simp) m
    simp only [putAll, bind, EStateM.bind]
    cases hm : TextMap.put e.1 e.2 m with
    | ok u m' =>
      rw [hm] at he
      exact (ih (fun x hx => hput x (by simp [hx])) m').trans he
    | error x m' =>
      rw [hm] at he
      exact he

def KeyMap.only (keep : String → Bool) (m : KeyMap α) : KeyMap α :=
  ⟨m.entries.filter fun e => keep e.1, m.sorted.filter _⟩

theorem KeyMap.only_insert (h : keep k = false) (m : KeyMap α) (v : α) : (m.insert k v).only keep = m.only keep :=
  KeyMap.ext (filter_insertSorted h v m.entries)

def AmqpMessage.only (keep : String → Bool) (m : AmqpMessage) : AmqpMessage :=
  { m with headers := m.headers.only keep }

def JmsMessage.only (keep : String → Bool) (m : JmsMessage) : JmsMessage :=
  { m with properties := m.properties.only keep }

def StompMessage.only (keep : String → Bool) (m : StompMessage) : StompMessage :=
  ⟨m.headers.only keep, m.native.only keep⟩

def HeaderMap.only (keep : String → Bool) (m : HeaderMap) : HeaderMap where
  fields := m.fields.filter fun f => keep f.1
  nodup := (List.filter_sublist.map _).nodup m.nodup
  lower n hn := m.lower n ((List.filter_sublist.map _).subset hn)

theorem HeaderMap.ext {m n : HeaderMap} (h : m.fields = n.fields) : m = n := by
  cases m
  cases n
  cases h
  rfl

section Puts

theorem only_put_map (h : keep k = false) (v : String) (m : KeyMap String) :
    (stateOf (TextMap.put k v m)).only keep = m.only keep :=
  m.only_insert h v

theorem only_put_amqp (h : keep k = false) (v : String) (m : AmqpMessage) :
    (stateOf (TextMap.put k v m)).only keep = m.only keep := by
  simp only [TextMap.put, stateOf, AmqpMessage.only, m.headers.only_insert h]

theorem only_put_stomp (h : keep k = false) (v : String) (m : StompMessage) :
    (stateOf (TextMap.put k v m)).only keep = m.only keep := by
  simp only [TextMap.put, stateOf, StompMessage.put, StompMessage.only, m.headers.only_insert h, m.native.only_insert h]

theorem only_put_jms (h : keep (JmsKey.encode k) = false) (v : String) (m : JmsMessage) :
    (stateOf (TextMap.put k v m)).only keep = m.only keep := by
  simp only [TextMap.put]
  split
  · rfl
  · simp only [stateOf, JmsMessage.only, m.properties.only_insert h]

theorem only_put_http (h : keep (Ascii.lower k) = false) (v : String) (m : HeaderMap) :
    (stateOf (TextMap.put k v m)).only keep = m.only keep := by
  simp only [TextMap.put]
  cases hput : m.put k v with
  | error e => rfl
  | ok m' =>
    simp only [HeaderMap.put] at hput
    split at hput
    · cases hput
    · split at hput
      · cases hput
      · cases hput
        exact HeaderMap.ext (filter_putValues h _ m.fields)

theorem stateOf_put_writeOnly [TextMap C] (k v : String) (m : WriteOnly C) :
    (stateOf (TextMap.put k v m)).object = stateOf (TextMap.put k v m.object) := by
  simp only [TextMap.put]
  cases TextMap.put k v m.object with
  | ok u o => rfl
  | error e o => rfl

end Puts

end SpanFlow
