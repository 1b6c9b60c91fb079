import Tako.Theory.Traced

/-!
# Generators

A generator is a computation that yields items and does nothing before it is asked for the next
one. Meanwhile others may change the world: what it does next depends on the world that it then
finds. `play` is the run of a consumer that takes every item at once.

`Acts`, `Spends`, `Settles` and `Guided` state what a generator does however the world changes
between its actions; `Guided` is about an automaton that reads its items.
-/

/-- A generator on worlds `ω` with actions `τ`, errors `ε`, items `ι` and a value in `α` at its
end. -/
inductive Generator (ω τ ε ι α : Type) where
  | done (a : α)
  | fail (e : ε)
  | item (i : ι) (rest : Generator ω τ ε ι α)
  | act (step : ω → τ × ω) (rest : ω → Generator ω τ ε ι α)

/-- What is left after a first part. -/
def Outcome.after (trace : List τ) (o : Outcome ω τ ε α) : Outcome ω τ ε α :=
  ⟨o.result, o.world, trace ++ o.trace⟩

namespace Generator

variable {ω τ τ' ε ι κ α β : Type}

def andThen : Generator ω τ ε ι α → (α → Generator ω τ ε ι β) → Generator ω τ ε ι β
  | done a, f => f a
  | fail e, _ => fail e
  | item i rest, f => item i (rest.andThen f)
  | act step rest, f => act step fun w => (rest w).andThen f

instance : Monad (Generator ω τ ε ι) where
  pure := done
  bind := andThen

/-- One item. -/
def yield (i : ι) : Generator ω τ ε ι Unit := item i (done ())

/-- One action without effect on the world. -/
def emit (t : τ) : Generator ω τ ε ι Unit := act (fun w => (t, w)) fun _ => done ()

def ofExcept : Except ε α → Generator ω τ ε ι α
  | .ok a => done a
  | .error e => fail e

/-- One action: a handler answers in the current world. -/
def call (h : ω → Except ε α × ω) (t : Except ε α → τ) : Generator ω τ ε ι α :=
  act (fun w => (t (h w).1, (h w).2)) fun w => ofExcept (h w).1

/-- A generator with other names for its actions. -/
def relabel (f : τ → τ') : Generator ω τ ε ι α → Generator ω τ' ε ι α
  | done a => done a
  | fail e => fail e
  | item i rest => item i (rest.relabel f)
  | act step rest => act (fun w => (f (step w).1, (step w).2)) fun w => (rest w).relabel f

/-- Every item is taken at once. -/
def play : Generator ω τ ε ι α → Traced ω (τ ⊕ ι) ε α
  | done a => pure a
  | fail e => .throw e
  | item i rest => ⟨fun w =>
    let o := rest.play.run w
    ⟨o.result, o.world, .inr i :: o.trace⟩⟩
  | act step rest => ⟨fun w =>
    let o := (rest w).play.run (step w).2
    ⟨o.result, o.world, .inl (step w).1 :: o.trace⟩⟩

theorem pure_bind (a : α) (f : α → Generator ω τ ε ι β) : pure a >>= f = f a := rfl

theorem item_bind (i : ι) (rest : Generator ω τ ε ι α) (f : α → Generator ω τ ε ι β) :
    item i rest >>= f = item i (rest >>= f) := rfl

theorem act_bind (step : ω → τ × ω) (rest : ω → Generator ω τ ε ι α)
    (f : α → Generator ω τ ε ι β) : act step rest >>= f = act step fun w => rest w >>= f := rfl

theorem play_bind (x : Generator ω τ ε ι α) (f : α → Generator ω τ ε ι β) :
    (x >>= f).play = x.play >>= fun a => (f a).play := by
  refine Traced.ext fun w => ?_
  induction x generalizing w with
  | done a => rfl
  | fail e => rfl
  | item i rest ih =>
    rw [item_bind, play]
    dsimp only
    rw [ih, Traced.run_bind, Traced.run_bind, play]
    cases hr : (rest.play.run w).result with
    | ok a => simp only [Traced.andThen, hr, List.cons_append]
    | error e => simp only [Traced.andThen, hr]
  | act step rest ih =>
    rw [act_bind, play]
    dsimp only
    rw [ih, Traced.run_bind, Traced.run_bind, play]
    cases hr : ((rest w).play.run (step w).2).result with
    | ok a => simp only [Traced.andThen, hr, List.cons_append]
    | error e => simp only [Traced.andThen, hr]

theorem play_ofExcept (r : Except ε α) (w : ω) :
    (ofExcept r : Generator ω τ ε ι α).play.run w = ⟨r, w, []⟩ := by
  cases r <;> rfl

theorem play_call (h : ω → Except ε α × ω) (t : Except ε α → τ) (w : ω) :
    (call h t : Generator ω τ ε ι α).play.run w = ⟨(h w).1, (h w).2, [.inl (t (h w).1)]⟩ := by
  rw [call, play]
  dsimp only
  rw [play_ofExcept]

/-! ## Runs in parts -/

theorem run_bind_ok {x : Generator ω τ ε ι α} (f : α → Generator ω τ ε ι β)
    (h : (x.play.run w).result = .ok a) :
    (x >>= f).play.run w =
      ((f a).play.run (x.play.run w).world).after (x.play.run w).trace := by
  rw [play_bind, Traced.run_bind_ok _ h]
  rfl

theorem result_bind {x : Generator ω τ ε ι α} (f : α → Generator ω τ ε ι β)
    (h : (x.play.run w).result = .ok a) :
    ((x >>= f).play.run w).result = ((f a).play.run (x.play.run w).world).result := by
  rw [run_bind_ok f h]
  rfl

theorem run_bind_error {x : Generator ω τ ε ι α} (f : α → Generator ω τ ε ι β)
    (h : (x.play.run w).result = .error e) :
    (x >>= f).play.run w = ⟨.error e, (x.play.run w).world, (x.play.run w).trace⟩ := by
  rw [play_bind, Traced.run_bind_error _ h]

theorem run_emit_bind (t : τ) (f : Unit → Generator ω τ ε ι β) (w : ω) :
    (emit t >>= f).play.run w = ((f ()).play.run w).after [.inl t] := rfl

theorem run_yield_bind (i : ι) (f : Unit → Generator ω τ ε ι β) (w : ω) :
    (yield i >>= f).play.run w = ((f ()).play.run w).after [.inr i] := rfl

theorem run_call_bind_ok {h : ω → Except ε α × ω} (t : Except ε α → τ)
    (f : α → Generator ω τ ε ι β) (hr : (h w).1 = .ok a) :
    (call h t >>= f).play.run w = ((f a).play.run (h w).2).after [.inl (t (.ok a))] := by
  rw [run_bind_ok f (a := a) (by rw [play_call, hr]), play_call, hr]

theorem run_call_bind_error {h : ω → Except ε α × ω} (t : Except ε α → τ)
    (f : α → Generator ω τ ε ι β) (hr : (h w).1 = .error e) :
    (call h t >>= f).play.run w = ⟨.error e, (h w).2, [.inl (t (.error e))]⟩ := by
  rw [run_bind_error f (e := e) (by rw [play_call, hr]), play_call, hr]

/-! ## What a generator does in any company -/

/-- Every action satisfies `P`. -/
def Acts (P : τ → Prop) : Generator ω τ ε ι α → Prop
  | done _ | fail _ => True
  | item _ rest => rest.Acts P
  | act step rest => ∀ w, P (step w).1 ∧ (rest w).Acts P

/-- There are at most `n` actions that `v` sees. -/
def Spends (v : τ → Option κ) : Nat → Generator ω τ ε ι α → Prop
  | _, done _ | _, fail _ => True
  | n, item _ rest => rest.Spends v n
  | n, act step rest => ∀ w, if (v (step w).1).isSome then 0 < n ∧ (rest w).Spends v (n - 1)
    else (rest w).Spends v n

/-- At the end, `Q` holds of what `v` has seen of the actions, of the items and of the value; `seen`
and `given` are those before `x`. -/
def Settles (v : τ → Option κ) (Q : List κ → List ι → α → Prop) :
    List κ → List ι → Generator ω τ ε ι α → Prop
  | seen, given, done a => Q seen given a
  | _, _, fail _ => True
  | seen, given, item i rest => rest.Settles v Q seen (given ++ [i])
  | seen, given, act step rest => ∀ w, (rest w).Settles v Q (seen ++ (v (step w).1).toList) given

/-- The actions of a trace that `v` sees. -/
def seen (v : τ → Option κ) (trace : List (τ ⊕ ι)) : List κ :=
  trace.filterMap fun t => t.getLeft?.bind v

/-- The items of a trace. -/
def items (trace : List (τ ⊕ ι)) : List ι := trace.filterMap Sum.getRight?

theorem seen_append (v : τ → Option κ) (trace trace' : List (τ ⊕ ι)) :
    seen v (trace ++ trace') = seen v trace ++ seen v trace' := List.filterMap_append

theorem items_append (trace trace' : List (τ ⊕ ι)) :
    items (trace ++ trace') = items trace ++ items trace' := List.filterMap_append

theorem seen_cons (v : τ → Option κ) (t : τ) (trace : List (τ ⊕ ι)) :
    seen v (.inl t :: trace) = (v t).toList ++ seen v trace := by
  have hv : ((Sum.inl t : τ ⊕ ι).getLeft?.bind v) = v t := rfl
  rw [seen, List.filterMap_cons, hv]
  cases v t <;> rfl

/-- A handler with other names leaves the same trace but for the names. -/
theorem play_relabel (f : τ → τ') (x : Generator ω τ ε ι α) (w : ω) :
    (x.relabel f).play.run w = ⟨(x.play.run w).result, (x.play.run w).world,
      (x.play.run w).trace.map (Sum.map f id)⟩ := by
  induction x generalizing w with
  | done | fail => rfl
  | item i rest ih =>
    rw [relabel, play, play]
    dsimp only
    rw [ih]
    rfl
  | act step rest ih =>
    rw [relabel, play, play]
    dsimp only
    rw [ih]
    rfl

theorem seen_bind (v : τ → Option κ) {x : Generator ω τ ε ι α} (f : α → Generator ω τ ε ι β)
    (h : (x.play.run w).result = .ok a) :
    seen v ((x >>= f).play.run w).trace =
      seen v (x.play.run w).trace ++ seen v ((f a).play.run (x.play.run w).world).trace := by
  rw [run_bind_ok f h, Outcome.after, seen_append]

theorem run_relabel_bind_ok (f : τ → τ') {x : Generator ω τ ε ι α}
    (g : α → Generator ω τ' ε ι β) (h : (x.play.run w).result = .ok a) :
    (x.relabel f >>= g).play.run w =
      ((g a).play.run (x.play.run w).world).after ((x.relabel f).play.run w).trace := by
  rw [run_bind_ok g (a := a) (by rw [play_relabel, h]), play_relabel]

theorem run_relabel_bind_error (f : τ → τ') {x : Generator ω τ ε ι α}
    (g : α → Generator ω τ' ε ι β) (h : (x.play.run w).result = .error e) :
    (x.relabel f >>= g).play.run w =
      ⟨.error e, (x.play.run w).world, ((x.relabel f).play.run w).trace⟩ := by
  rw [run_bind_error g (e := e) (by rw [play_relabel, h]), play_relabel]

theorem seen_map (v : τ' → Option κ) (f : τ → τ') (trace : List (τ ⊕ ι)) :
    seen v (trace.map (Sum.map f id)) = seen (fun t => v (f t)) trace := by
  rw [seen, List.filterMap_map]
  refine congrFun (congrArg _ (funext fun t => ?_)) trace
  cases t <;> rfl

namespace Acts

variable {P P' : τ → Prop} {x : Generator ω τ ε ι α}

theorem weaken (h : x.Acts P) (hP : ∀ t, P t → P' t) : x.Acts P' := by
  induction x with
  | done | fail => trivial
  | item i rest ih => exact ih h
  | act step rest ih => exact fun w => ⟨hP _ (h w).1, ih w (h w).2⟩

theorem of (h : ∀ t, P t) : x.Acts P := by
  induction x with
  | done | fail => trivial
  | item i rest ih => exact ih
  | act step rest ih => exact fun w => ⟨h _, ih w⟩

theorem bind {f : α → Generator ω τ ε ι β} (hx : x.Acts P) (hf : ∀ a, (f a).Acts P) :
    (x >>= f).Acts P := by
  induction x with
  | done a => exact hf a
  | fail => trivial
  | item i rest ih => exact ih hx
  | act step rest ih => exact fun w => ⟨(hx w).1, ih w (hx w).2⟩

theorem emit {t : τ} (h : P t) : Acts P (Generator.emit t : Generator ω τ ε ι Unit) :=
  fun _ => ⟨h, trivial⟩

theorem ofExcept (r : Except ε α) : Acts P (Generator.ofExcept r : Generator ω τ ε ι α) := by
  cases r <;> trivial

theorem call {h : ω → Except ε α × ω} {t : Except ε α → τ} (hP : ∀ r, P (t r)) :
    Acts P (Generator.call h t : Generator ω τ ε ι α) :=
  fun _ => ⟨hP _, ofExcept _⟩

theorem relabel {f : τ' → τ} {x : Generator ω τ' ε ι α} (h : x.Acts fun t => P (f t)) :
    (x.relabel f).Acts P := by
  induction x with
  | done | fail => trivial
  | item i rest ih => exact ih h
  | act step rest ih => exact fun w => ⟨(h w).1, ih w (h w).2⟩

theorem play (h : x.Acts P) (w : ω) : ∀ t, .inl t ∈ (x.play.run w).trace → P t := by
  induction x generalizing w with
  | done | fail => exact fun t ht => absurd ht List.not_mem_nil
  | item i rest ih =>
    intro t ht
    rcases List.mem_cons.1 ht with ht | ht
    · cases ht
    · exact ih h w t ht
  | act step rest ih =>
    intro t ht
    rcases List.mem_cons.1 ht with ht | ht
    · cases ht
      exact (h w).1
    · exact ih w (h w).2 _ t ht

end Acts

namespace Spends

variable {v : τ → Option κ} {n m : Nat} {x : Generator ω τ ε ι α}

theorem mono (h : x.Spends v n) (hnm : n ≤ m) : x.Spends v m := by
  induction x generalizing n m with
  | done | fail => trivial
  | item i rest ih => exact ih h hnm
  | act step rest ih =>
    intro w
    have hw := h w
    split at hw
    · next hp =>
      rw [if_pos hp]
      exact ⟨Nat.lt_of_lt_of_le hw.1 hnm, ih w hw.2 (Nat.sub_le_sub_right hnm 1)⟩
    · next hp =>
      rw [if_neg hp]
      exact ih w hw hnm

theorem bind {f : α → Generator ω τ ε ι β} (hx : x.Spends v n) (hf : ∀ a, (f a).Spends v m) :
    (x >>= f).Spends v (n + m) := by
  induction x generalizing n with
  | done a => exact (hf a).mono (Nat.le_add_left _ _)
  | fail => trivial
  | item i rest ih => exact ih hx
  | act step rest ih =>
    intro w
    have hw := hx w
    split at hw
    · next hp =>
      rw [if_pos hp, show n + m - 1 = n - 1 + m by omega]
      exact ⟨Nat.add_pos_left hw.1 m, ih w hw.2⟩
    · next hp =>
      rw [if_neg hp]
      exact ih w hw

theorem of_acts (h : x.Acts fun t => v t = none) (n : Nat) : x.Spends v n := by
  induction x with
  | done | fail => trivial
  | item i rest ih => exact ih h
  | act step rest ih =>
    intro w
    rw [(h w).1]
    exact ih w (h w).2

theorem emit (t : τ) : Spends v 1 (Generator.emit t : Generator ω τ ε ι Unit) := by
  intro w
  split
  · exact ⟨Nat.one_pos, trivial⟩
  · trivial

theorem relabel {f : τ' → τ} {x : Generator ω τ' ε ι α} (h : x.Spends (fun t => v (f t)) n) :
    (x.relabel f).Spends v n := by
  induction x generalizing n with
  | done | fail => trivial
  | item i rest ih => exact ih h
  | act step rest ih =>
    intro w
    have hw := h w
    split at hw
    · next hp =>
      exact (if_pos hp).symm ▸ ⟨hw.1, ih w hw.2⟩
    · next hp => exact (if_neg hp).symm ▸ ih w hw

theorem play (h : x.Spends v n) (w : ω) : (seen v (x.play.run w).trace).length ≤ n := by
  induction x generalizing n w with
  | done | fail => exact Nat.zero_le _
  | item i rest ih => exact ih h w
  | act step rest ih =>
    have hw := h w
    rw [Generator.play, seen_cons]
    split at hw
    · next hv =>
      have hrest := ih w hw.2 (step w).2
      obtain ⟨k, hk⟩ := Option.isSome_iff_exists.1 hv
      rw [hk, List.length_append]
      simp only [Option.toList_some, List.length_singleton]
      omega
    · next hv =>
      rw [Option.not_isSome_iff_eq_none.1 hv]
      exact ih w hw (step w).2

end Spends

theorem Settles.bind {v : τ → Option κ} {R : List κ → List ι → α → Prop}
    {Q : List κ → List ι → β → Prop} {ks : List κ} {given : List ι} {x : Generator ω τ ε ι α}
    {f : α → Generator ω τ ε ι β} (hx : x.Settles v R ks given)
    (hf : ∀ ks given a, R ks given a → (f a).Settles v Q ks given) :
    (x >>= f).Settles v Q ks given := by
  induction x generalizing ks given with
  | done a => exact hf _ _ a hx
  | fail e => trivial
  | item i rest ih => exact ih hx
  | act step rest ih => exact fun w => ih w (hx w)

theorem Settles.call {v : τ → Option κ} {Q : List κ → List ι → α → Prop} {ks : List κ}
    {given : List ι} {h : ω → Except ε α × ω} {t : Except ε α → τ}
    (hQ : ∀ a, Q (ks ++ (v (t (.ok a))).toList) given a) :
    (Generator.call h t).Settles v Q ks given := by
  intro w
  dsimp only
  cases (h w).1 with
  | ok a => exact hQ a
  | error e => trivial

theorem Settles.play {v : τ → Option κ} {Q : List κ → List ι → α → Prop} {ks : List κ}
    {given : List ι} {x : Generator ω τ ε ι α} (h : x.Settles v Q ks given) {w : ω} {a : α}
    (hr : (x.play.run w).result = .ok a) :
    Q (ks ++ seen v (x.play.run w).trace) (given ++ items (x.play.run w).trace) a := by
  induction x generalizing ks given w with
  | done b =>
    cases hr
    have hnil : (Generator.play (done a : Generator ω τ ε ι α)).run w = ⟨.ok a, w, []⟩ := rfl
    rw [hnil, seen, items, List.filterMap_nil, List.filterMap_nil, List.append_nil, List.append_nil]
    exact h
  | fail e => cases hr
  | item i rest ih =>
    have hrest := ih h hr
    rw [List.append_assoc] at hrest
    exact hrest
  | act step rest ih =>
    have hrest := ih w (h w) hr
    rw [List.append_assoc, ← seen_cons] at hrest
    exact hrest

/-! ## Automata on the items -/

/-- From its state the automaton accepts the items, and is led to a state of `Q` with the value, or
to one of `F` if the generator fails. -/
def Guided {σ : Type} (m : σ → ι → Option σ) (F : σ → Prop) (Q : α → σ → Prop) :
    σ → Generator ω τ ε ι α → Prop
  | s, done a => Q a s
  | s, fail _ => F s
  | s, item i rest => ∃ s', m s i = some s' ∧ rest.Guided m F Q s'
  | s, act _ rest => ∀ w, (rest w).Guided m F Q s

namespace Guided

variable {σ : Type} {m : σ → ι → Option σ} {F : σ → Prop} {Q : α → σ → Prop} {s s' : σ}
  {x : Generator ω τ ε ι α}

theorem bind {P : β → σ → Prop} {f : α → Generator ω τ ε ι β} (hx : x.Guided m F Q s)
    (hf : ∀ a s', Q a s' → (f a).Guided m F P s') : (x >>= f).Guided m F P s := by
  induction x generalizing s with
  | done a => exact hf a s hx
  | fail e => exact hx
  | item i rest ih =>
    obtain ⟨s', hm, hrest⟩ := hx
    exact ⟨s', hm, ih hrest⟩
  | act step rest ih => exact fun w => ih w (hx w)

theorem emit_bind {t : τ} {f : Unit → Generator ω τ ε ι α} (h : (f ()).Guided m F Q s) :
    (emit t >>= f).Guided m F Q s := fun _ => h

theorem yield_bind {i : ι} {f : Unit → Generator ω τ ε ι α} (hm : m s i = some s')
    (h : (f ()).Guided m F Q s') : (yield i >>= f).Guided m F Q s := ⟨s', hm, h⟩

theorem call_bind {h : ω → Except ε α × ω} {t : Except ε α → τ} {P : β → σ → Prop}
    {f : α → Generator ω τ ε ι β} (hs : F s) (hf : ∀ a, (f a).Guided m F P s) :
    (call h t >>= f).Guided m F P s := by
  intro w
  dsimp only
  cases (h w).1 with
  | ok a => exact hf a
  | error e => exact hs

/-- What a run leaves. -/
theorem play (h : x.Guided m F Q s) (w : ω) :
    ∃ s', (items (x.play.run w).trace).foldlM m s = some s' ∧
      (∀ a, (x.play.run w).result = .ok a → Q a s') ∧
      ∀ e, (x.play.run w).result = .error e → F s' := by
  induction x generalizing s w with
  | done a =>
    refine ⟨s, rfl, fun b hr => Except.ok.inj hr ▸ h, fun e hr => ?_⟩
    cases hr
  | fail e =>
    refine ⟨s, rfl, fun a hr => ?_, fun _ _ => h⟩
    cases hr
  | item i rest ih =>
    obtain ⟨s', hm, hrest⟩ := h
    obtain ⟨t, ht, hok, herr⟩ := ih hrest w
    refine ⟨t, ?_, hok, herr⟩
    change (i :: items (rest.play.run w).trace).foldlM m s = some t
    rw [List.foldlM_cons, hm]
    exact ht
  | act step rest ih => exact ih w (h w) (step w).2

end Guided

end Generator
