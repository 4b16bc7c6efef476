import SpanFlow.Proofs.Guarded.Stages

namespace SpanFlow

variable {ν ε R α β δ : Type} {w v : World ν ε} {s : SpanRef}

structure Span.Origin where
  context : Context
  parent : Option SpanId
  name : String
  kind : Kind

def Span.origin (s : Span) : Span.Origin :=
  ⟨s.context, s.parent, s.name, s.kind⟩

namespace World

def told (w : World ν ε) (es : List Event) : World ν ε :=
  es.foldl (fun v e => v.note (.event e)) w

structure Spares (s : SpanRef) (w v : World ν ε) : Prop where
  active : v.active = w.active
  span : ∀ t, w.span? s = some t → ∃ t', v.span? s = some t' ∧ t.Annotated t'

theorem Spares.trans {u v w : World ν ε} (h : u.Spares s v) (g : v.Spares s w) : u.Spares s w := by
  refine ⟨g.active.trans h.active, fun t ht => ?_⟩
  obtain ⟨t', ht', htt'⟩ := h.span t ht
  obtain ⟨t'', ht'', ht't''⟩ := g.span t' ht'
  exact ⟨t'', ht'', htt'.trans ht't''⟩

instance : IsPreorder (World ν ε) (Spares s) where
  refl _ := ⟨rfl, fun t ht => ⟨t, ht, .refl t⟩⟩
  trans _ _ _ := Spares.trans

theorem Ordinary.spares (h : w.Ordinary v) : w.Spares s v :=
  ⟨h.steady.active, fun t ht => h.kept.spans s t ht⟩

structure Recalls (s : SpanRef) (w v : World ν ε) : Prop where
  active : v.active = w.active
  span : ∀ t, w.span? s = some t → ∃ t', v.span? s = some t' ∧ t'.origin = t.origin

theorem Recalls.trans {u v w : World ν ε} (h : u.Recalls s v) (g : v.Recalls s w) : u.Recalls s w := by
  refine ⟨g.active.trans h.active, fun t ht => ?_⟩
  obtain ⟨t', ht', htt'⟩ := h.span t ht
  obtain ⟨t'', ht'', ht't''⟩ := g.span t' ht'
  exact ⟨t'', ht'', ht't''.trans htt'⟩

instance : IsPreorder (World ν ε) (Recalls s) where
  refl _ := ⟨rfl, fun t ht => ⟨t, ht, rfl⟩⟩
  trans _ _ _ := Recalls.trans

theorem Spares.recalls (h : w.Spares s v) : w.Recalls s v := by
  refine ⟨h.active, fun t ht => ?_⟩
  obtain ⟨t', ht', hann⟩ := h.span t ht
  refine ⟨t', ht', ?_⟩
  rw [Span.origin, hann.context, hann.parent, hann.name, hann.kind, Span.origin]

theorem ordinary_told (w : World ν ε) (es : List Event) : w.Ordinary (w.told es) := by
  induction es generalizing w with
  | nil => exact .refl w
  | cons e es ih => exact (w.ordinary_note e).trans (ih (w.note (.event e)))

end World

theorem Activity.emitAll_apply (es : List Event) (w : World ν ε) : emitAll es w = (.done (), w.told es) := by
  induction es generalizing w with
  | nil => rfl
  | cons e es ih => exact ih (w.note (.event e))

structure Surroundings (ν ε : Type) where
  thread : Thread
  flags : Array Bool
  channels : Array (Channel ν)
  extra : ε

def World.surroundings (w : World ν ε) : Surroundings ν ε :=
  ⟨w.thread, w.flags, w.channels, w.extra⟩

@[simp] theorem World.surroundings_told (w : World ν ε) (es : List Event) :
    (w.told es).surroundings = w.surroundings := by
  induction es generalizing w with
  | nil => rfl
  | cons e es ih => exact ih (w.note (.event e))

def KeepsAt (rel : World ν ε → World ν ε → Prop) (render : δ → Rendered) (x : Activity ν ε (Except δ α))
    (w : World ν ε) : Prop :=
  Act.Moves rel x w ∧ ∀ e v, x w = (.done (.error e), v) → ∃ text, render e = .ok text

/-- Code that keeps to a relation between states, and whose failures can be told. -/
def Keeping (rel : World ν ε → World ν ε → Prop) (render : δ → Rendered) (x : Activity ν ε (Except δ α)) : Prop :=
  ∀ w, Act.Moves rel x w ∧ ∀ e v, x w = (.done (.error e), v) → ∃ text, render e = .ok text

def Sparing (s : SpanRef) (render : δ → Rendered) (x : Activity ν ε (Except δ α)) : Prop :=
  Keeping (World.Spares s) render x

inductive HookEnd where
  | fine
  | failed (error : String)
  | panicked (p : Payload)

namespace HookEnd

def exit : HookEnd → Exit (Except Rendered Unit)
  | fine => .done (.ok ())
  | failed error => .done (.error (.ok error))
  | panicked p => .panic p

def events (hook decorator : String) : HookEnd → List Event
  | fine => []
  | failed error =>
    [⟨.warn, "span decorator failed", [("decorator", decorator), ("hook", hook), ("error", error)]⟩]
  | panicked p =>
    [⟨.warn, "span decorator panicked", [("decorator", decorator), ("hook", hook), ("panic", p.message)]⟩]

def failures : HookEnd → Nat
  | fine => 0
  | _ => 1

end HookEnd

theorem KeepsAt.hookEnd {rel : World ν ε → World ν ε → Prop} {x : Activity ν ε (Except Rendered Unit)}
    (hx : KeepsAt rel id x w) : ∃ (e : HookEnd) (v : World ν ε), x w = (e.exit, v) ∧ rel w v := by
  obtain ⟨hmoves, htold⟩ := hx
  rcases hmoves.cases with ⟨r, v, hr, hv⟩ | ⟨p, v, hp, hv⟩
  · match r with
    | .ok () => exact ⟨.fine, v, hr, hv⟩
    | .error e =>
      obtain ⟨text, rfl⟩ := htold e v hr
      exact ⟨.failed text, v, hr, hv⟩
  · exact ⟨.panicked p, v, hp, hv⟩

structure Decorator.Discreet (d : Decorator ν ε R) : Prop where
  name : ∃ text, d.name = .ok text
  preCall : ∀ call s, Sparing s id (d.preCall call s)
  postCall : ∀ call r s, Sparing s id (d.postCall call r s)
  onError : ∀ call f s, Sparing s id (d.onError call f s)

structure Decorator.Orderly (d : Decorator ν ε R) : Prop where
  name : ∃ text, d.name = .ok text
  preCall : ∀ call s, Keeping (World.Recalls s) id (d.preCall call s)

theorem Decorator.Discreet.orderly {d : Decorator ν ε R} (h : d.Discreet) : d.Orderly := by
  refine ⟨h.name, fun call s w => ?_⟩
  obtain ⟨hmoves, htold⟩ := h.preCall call s w
  exact ⟨hmoves.mono fun _ => World.Spares.recalls, htold⟩

theorem sparing_pure (s : SpanRef) (render : δ → Rendered) (a : α) :
    Sparing s render (pure (.ok a) : Activity ν ε (Except δ α)) :=
  fun _ => ⟨Act.moves_pure _, fun _ _ h => nomatch h⟩

theorem Decorator.discreet_standardTags : (standardTags : Decorator ν ε R).Discreet where
  name := ⟨_, rfl⟩
  preCall call s w := by
    refine ⟨(moves_standardTags call s).mono fun _ => World.Ordinary.spares, fun e v h => ?_⟩
    obtain ⟨_, _, -, h⟩ := Act.bind_eq_done h
    obtain ⟨_, _, -, h⟩ := Act.bind_eq_done h
    obtain ⟨_, _, -, h⟩ := Act.bind_eq_done h
    cases h
  postCall _ _ s := sparing_pure s id ()
  onError _ _ s := sparing_pure s id ()

structure Decorator.Unseen (view : Surroundings ν ε → β) (d : Decorator ν ε R) : Prop where
  preCall : ∀ call s w, view (d.preCall call s w).2.surroundings = view w.surroundings
  postCall : ∀ call r s w, view (d.postCall call r s w).2.surroundings = view w.surroundings
  onError : ∀ call f s w, view (d.onError call f s w).2.surroundings = view w.surroundings

theorem Decorator.runHook_apply (hook name : String) {x : Activity ν ε (Except Rendered Unit)} {e : HookEnd}
    (hx : x w = (e.exit, v)) : runHook hook (.ok name) x w = (.done e.failures, v.told (e.events hook name)) := by
  cases e with
  | fine => exact Act.bind_of_done (Act.attempt_of_done hx)
  | failed error => exact Act.bind_of_done (Act.attempt_of_done hx)
  | panicked p => exact Act.bind_of_done (Act.attempt_of_panic hx)

namespace DecoratorChain

variable {hook : String} {invoke : Decorator ν ε R → Activity ν ε (Except Rendered Unit)} {chain : DecoratorChain ν ε R}
  {n : Nat}

/-- `Passes hook invoke chain w n v`: from `w` on every hook of the chain is run once and in order, each in
the state that is left when the one before it is over and told; `n` of them fail or panic; `v` is left. -/
inductive Passes (hook : String) (invoke : Decorator ν ε R → Activity ν ε (Except Rendered Unit)) :
    DecoratorChain ν ε R → World ν ε → Nat → World ν ε → Prop where
  | nil {w : World ν ε} : Passes hook invoke [] w 0 w
  | cons {d : Decorator ν ε R} {name : String} {e : HookEnd} {chain : DecoratorChain ν ε R} {n : Nat}
      {w v x : World ν ε} (hname : d.name = .ok name) (hhook : invoke d w = (e.exit, v))
      (hrest : Passes hook invoke chain (v.told (e.events hook name)) n x) :
      Passes hook invoke (d :: chain) w (e.failures + n) x

theorem Passes.run_eq (h : Passes hook invoke chain w n v) : run hook invoke chain w = (.done n, v) := by
  induction h with
  | nil => rfl
  | cons hname hhook _ ih =>
    rw [run, hname, Act.bind_of_done (Decorator.runHook_apply hook _ hhook), Act.bind_of_done ih]
    rfl

def Each (P : Decorator ν ε R → World ν ε → Prop) (hook : String)
    (invoke : Decorator ν ε R → Activity ν ε (Except Rendered Unit)) (chain : DecoratorChain ν ε R) (w : World ν ε) :
    Prop :=
  ∀ before d after n v, chain = before ++ d :: after → Passes hook invoke before w n v → P d v

theorem Each.tail {P : Decorator ν ε R → World ν ε → Prop} {d : Decorator ν ε R} {name : String} {e : HookEnd}
    (h : Each P hook invoke (d :: chain) w) (hname : d.name = .ok name) (hhook : invoke d w = (e.exit, v)) :
    Each P hook invoke chain (v.told (e.events hook name)) := by
  rintro before d' after n x rfl hpasses
  exact h (d :: before) d' after _ x rfl (.cons hname hhook hpasses)

theorem passes_of_each {rel : World ν ε → World ν ε → Prop} [IsPreorder (World ν ε) rel]
    (htold : ∀ v es, rel v (World.told v es)) {chain : DecoratorChain ν ε R} {w : World ν ε}
    (h : chain.Each (fun d v => (∃ text, d.name = .ok text) ∧ KeepsAt rel id (invoke d) v) hook invoke w) :
    ∃ n v, Passes hook invoke chain w n v ∧ rel w v := by
  induction chain generalizing w with
  | nil => exact ⟨0, w, .nil, refl w⟩
  | cons d chain ih =>
    obtain ⟨⟨name, hname⟩, hkeeps⟩ := h [] d chain 0 w rfl .nil
    obtain ⟨e, v, hhook, hv⟩ := hkeeps.hookEnd
    obtain ⟨n, x, hrest, hx⟩ := ih (h.tail hname hhook)
    exact ⟨_, x, .cons hname hhook hrest, trans_of rel (trans_of rel hv (htold v _)) hx⟩

theorem passes_of_keeping {rel : World ν ε → World ν ε → Prop} [IsPreorder (World ν ε) rel]
    (hrel : ∀ w v, World.Ordinary w v → rel w v) (hook : String) (chain : DecoratorChain ν ε R)
    (hd : ∀ d ∈ chain, (∃ text, d.name = .ok text) ∧ Keeping rel id (invoke d)) (w : World ν ε) :
    ∃ n v, Passes hook invoke chain w n v ∧ rel w v := by
  refine passes_of_each (fun v es => hrel _ _ (v.ordinary_told es)) ?_
  rintro before d after n v rfl -
  obtain ⟨hname, hkeeping⟩ := hd d (by simp)
  exact ⟨hname, hkeeping v⟩

theorem passes_of_sparing (hook : String) (chain : DecoratorChain ν ε R)
    (hd : ∀ d ∈ chain, (∃ text, d.name = .ok text) ∧ Sparing s id (invoke d)) (w : World ν ε) :
    ∃ n v, Passes hook invoke chain w n v ∧ w.Spares s v :=
  passes_of_keeping (fun _ _ h => h.spares) hook chain hd w

theorem Passes.view_eq {view : Surroundings ν ε → β} (h : Passes hook invoke chain w n v)
    (hd : ∀ d ∈ chain, ∀ u, view (invoke d u).2.surroundings = view u.surroundings) :
    view v.surroundings = view w.surroundings := by
  induction h with
  | nil => rfl
  | @cons d _ _ chain _ w v x _ hhook _ ih =>
    have hfirst := hd d (by simp) w
    rw [hhook] at hfirst
    rw [ih fun d' h => hd d' (by simp [h]), World.surroundings_told, hfirst]

end DecoratorChain

end SpanFlow
