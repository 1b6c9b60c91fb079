/-!
# Computations with a trace

A `Traced` computation reads and changes a world, may fail, and leaves a trace of the actions that
it took. The world keeps what was done before a failure, and so does the trace.

`Ensures` states what every run of a computation results in and leaves in its trace; `Acts`, `Under`
and `Monitored` are its forms for single actions, for actions under an assumption on the answers and
for an automaton that reads the trace. `Sim` relates two computations that run in related worlds:
they leave related worlds, the same view of their traces, and related results or the same error.
Each has one rule for each way of building a computation.
-/

/-- What a computation leaves. -/
structure Outcome (ω τ ε α : Type) where
  result : Except ε α
  world : ω
  trace : List τ

/-- A computation on worlds `ω` with actions `τ`, errors `ε` and values `α`. -/
structure Traced (ω τ ε α : Type) where
  run : ω → Outcome ω τ ε α

namespace Traced

variable {ω τ ε α β γ δ : Type}

/-- The rest of a computation after its first part. -/
def andThen (o : Outcome ω τ ε α) (f : α → Traced ω τ ε β) : Outcome ω τ ε β :=
  match o.result with
  | .ok a =>
    let o' := (f a).run o.world
    ⟨o'.result, o'.world, o.trace ++ o'.trace⟩
  | .error e => ⟨.error e, o.world, o.trace⟩

instance : Monad (Traced ω τ ε) where
  pure a := ⟨fun w => ⟨.ok a, w, []⟩⟩
  bind x f := ⟨fun w => andThen (x.run w) f⟩

def throw (e : ε) : Traced ω τ ε α := ⟨fun w => ⟨.error e, w, []⟩⟩

/-- A value that is computed without the world. -/
def ofExcept : Except ε α → Traced ω τ ε α
  | .ok a => pure a
  | .error e => throw e

/-- A look at the world. -/
def read (f : ω → α) : Traced ω τ ε α := ⟨fun w => ⟨.ok (f w), w, []⟩⟩

/-- A change of the world that is no action. -/
def modify (f : ω → ω) : Traced ω τ ε Unit := ⟨fun w => ⟨.ok (), f w, []⟩⟩

/-- One action without effect on the world. -/
def emit (t : τ) : Traced ω τ ε Unit := ⟨fun w => ⟨.ok (), w, [t]⟩⟩

/-- One action: a handler answers in the current world. -/
def call (h : ω → Except ε α × ω) (act : ω → Except ε α → τ) : Traced ω τ ε α :=
  ⟨fun w => ⟨(h w).1, (h w).2, [act w (h w).1]⟩⟩

/-- A computation whose failure is handed to the rest. -/
def attempt (x : Traced ω τ ε α) : Traced ω τ ε (Except ε α) :=
  ⟨fun w => ⟨.ok (x.run w).result, (x.run w).world, (x.run w).trace⟩⟩

/-- A computation as one with other actions and errors. -/
def embed {τ' ε' : Type} (f : τ → τ') (g : ε → ε') (x : Traced ω τ ε α) : Traced ω τ' ε' α :=
  ⟨fun w => ⟨(x.run w).result.mapError g, (x.run w).world, (x.run w).trace.map f⟩⟩

theorem run_pure (a : α) (w : ω) : (pure a : Traced ω τ ε α).run w = ⟨.ok a, w, []⟩ := rfl

theorem run_ofExcept (r : Except ε α) (w : ω) :
    (ofExcept r : Traced ω τ ε α).run w = ⟨r, w, []⟩ := by
  cases r <;> rfl

theorem run_bind (x : Traced ω τ ε α) (f : α → Traced ω τ ε β) (w : ω) :
    (x >>= f).run w = andThen (x.run w) f := rfl

theorem run_bind_ok {x : Traced ω τ ε α} (f : α → Traced ω τ ε β)
    (h : (x.run w).result = .ok a) :
    (x >>= f).run w = ⟨((f a).run (x.run w).world).result, ((f a).run (x.run w).world).world,
      (x.run w).trace ++ ((f a).run (x.run w).world).trace⟩ := by
  rw [run_bind, andThen, h]

theorem run_bind_error {x : Traced ω τ ε α} (f : α → Traced ω τ ε β)
    (h : (x.run w).result = .error e) :
    (x >>= f).run w = ⟨.error e, (x.run w).world, (x.run w).trace⟩ := by
  rw [run_bind, andThen, h]

theorem run_read_bind (g : ω → α) (f : α → Traced ω τ ε β) (w : ω) :
    (read g >>= f).run w = (f (g w)).run w := rfl

theorem mem_trace_bind {x : Traced ω τ ε α} (f : α → Traced ω τ ε β) (h : t ∈ (x.run w).trace) :
    t ∈ ((x >>= f).run w).trace := by
  cases hr : (x.run w).result with
  | ok a =>
    rw [run_bind_ok f hr]
    exact List.mem_append_left _ h
  | error e =>
    rw [run_bind_error f hr]
    exact h

theorem mem_trace_bind_ok {x : Traced ω τ ε α} (f : α → Traced ω τ ε β)
    (hr : (x.run w).result = .ok a) (h : t ∈ ((f a).run (x.run w).world).trace) :
    t ∈ ((x >>= f).run w).trace := by
  rw [run_bind_ok f hr]
  exact List.mem_append_right _ h

theorem ext {x y : Traced ω τ ε α} (h : ∀ w, x.run w = y.run w) : x = y :=
  congrArg Traced.mk (funext h)

theorem bind_assoc (x : Traced ω τ ε α) (f : α → Traced ω τ ε β) (g : β → Traced ω τ ε γ) :
    x >>= f >>= g = x >>= fun a => f a >>= g := by
  refine ext fun w => ?_
  cases hx : (x.run w).result with
  | ok a =>
    rw [run_bind_ok _ hx, run_bind, run_bind_ok f hx, run_bind]
    cases hf : ((f a).run (x.run w).world).result with
    | ok b => simp only [andThen, hf, List.append_assoc]
    | error e => simp only [andThen, hf]
  | error e => rw [run_bind_error _ hx, run_bind, run_bind_error f hx, andThen]

theorem bind_pure (x : Traced ω τ ε α) : x >>= pure = x := by
  refine ext fun w => ?_
  cases hx : (x.run w).result with
  | ok a =>
    rw [run_bind_ok _ hx, run_pure, List.append_nil, ← hx]
  | error e => rw [run_bind_error _ hx, ← hx]

theorem pure_bind (a : α) (f : α → Traced ω τ ε β) : (pure a : Traced ω τ ε α) >>= f = f a :=
  rfl

/-! ## What runs ensure -/

/-- Every run ends in a result and a trace that satisfy `Q`. -/
def Ensures (x : Traced ω τ ε α) (Q : Except ε α → List τ → Prop) : Prop :=
  ∀ w, Q (x.run w).result (x.run w).trace

namespace Ensures

variable {x : Traced ω τ ε α} {Q Q' : Except ε α → List τ → Prop}
  {f : α → Traced ω τ ε β} {P : Except ε β → List τ → Prop}

theorem weaken (h : x.Ensures Q) (hQ : ∀ r l, Q r l → Q' r l) : x.Ensures Q' :=
  fun w => hQ _ _ (h w)

theorem and (h : x.Ensures Q) (h' : x.Ensures Q') : x.Ensures fun r l => Q r l ∧ Q' r l :=
  fun w => ⟨h w, h' w⟩

theorem pure {a : α} (h : Q (.ok a) []) : Ensures (Pure.pure a : Traced ω τ ε α) Q := fun _ => h

theorem throw {e : ε} (h : Q (.error e) []) : Ensures (Traced.throw e : Traced ω τ ε α) Q :=
  fun _ => h

theorem ofExcept {r : Except ε α} (h : Q r []) :
    Ensures (Traced.ofExcept r : Traced ω τ ε α) Q := by
  cases r with
  | ok a => exact pure h
  | error e => exact throw h

theorem read {g : ω → α} (h : ∀ w, Q (.ok (g w)) []) :
    Ensures (Traced.read g : Traced ω τ ε α) Q := h

theorem emit {t : τ} {Q : Except ε Unit → List τ → Prop} (h : Q (.ok ()) [t]) :
    Ensures (Traced.emit t : Traced ω τ ε Unit) Q := fun _ => h

theorem call {h : ω → Except ε α × ω} {act : ω → Except ε α → τ}
    (hq : ∀ w, Q (h w).1 [act w (h w).1]) : Ensures (Traced.call h act) Q := hq

theorem attempt {Q : Except ε (Except ε α) → List τ → Prop}
    (h : x.Ensures fun r l => Q (.ok r) l) : x.attempt.Ensures Q := h

/-- First `x`, then what follows it; a failure of `x` is the failure of the whole. -/
theorem bind (hx : x.Ensures Q) (herr : ∀ e l, Q (.error e) l → P (.error e) l)
    (hok : ∀ a l, Q (.ok a) l → (f a).Ensures fun r l' => P r (l ++ l')) :
    (x >>= f).Ensures P := by
  intro w
  have hw := hx w
  cases hr : (x.run w).result with
  | ok a =>
    rw [hr] at hw
    rw [run_bind_ok f hr]
    exact hok a _ hw _
  | error e =>
    rw [hr] at hw
    rw [run_bind_error f hr]
    exact herr e _ hw

end Ensures

/-- Every value of a run satisfies `Q`. -/
def Values (Q : α → Prop) (x : Traced ω τ ε α) : Prop := x.Ensures fun r _ => ∀ a, r = .ok a → Q a

namespace Values

theorem pure {Q : α → Prop} {a : α} (h : Q a) : Values Q (Pure.pure a : Traced ω τ ε α) :=
  Ensures.pure fun _ ha => Except.ok.inj ha ▸ h

/-- What the last part sees to. -/
theorem last {x : Traced ω τ ε α} {f : α → Traced ω τ ε β} {Q : β → Prop}
    (hf : ∀ a, (f a).Values Q) : (x >>= f).Values Q :=
  Ensures.bind (Q := fun _ _ => True) (fun _ => trivial) (fun _ _ _ _ h => by cases h)
    fun a _ _ => hf a

theorem bind {x : Traced ω τ ε α} {f : α → Traced ω τ ε β} {P : α → Prop} {Q : β → Prop}
    (hx : x.Values P) (hf : ∀ a, P a → (f a).Values Q) : (x >>= f).Values Q :=
  Ensures.bind hx (fun _ _ _ _ h => by cases h) fun a _ ha => hf a (ha a rfl)

end Values

/-- Every action of every run satisfies `P`. -/
def Acts (P : τ → Prop) (x : Traced ω τ ε α) : Prop := x.Ensures fun _ l => ∀ t ∈ l, P t

namespace Acts

variable {P : τ → Prop}

theorem bind {x : Traced ω τ ε α} {f : α → Traced ω τ ε β} (hx : x.Acts P)
    (hf : ∀ a, (f a).Acts P) : (x >>= f).Acts P := by
  refine Ensures.bind hx (fun _ _ h => h) fun a l hl => (hf a).weaken fun _ l' hl' t ht => ?_
  rcases List.mem_append.1 ht with ht | ht
  · exact hl t ht
  · exact hl' t ht

theorem pure (a : α) : Acts P (Pure.pure a : Traced ω τ ε α) :=
  Ensures.pure fun _ ht => absurd ht List.not_mem_nil

theorem throw (e : ε) : Acts P (Traced.throw e : Traced ω τ ε α) :=
  Ensures.throw fun _ ht => absurd ht List.not_mem_nil

theorem ofExcept (r : Except ε α) : Acts P (Traced.ofExcept r : Traced ω τ ε α) :=
  Ensures.ofExcept fun _ ht => absurd ht List.not_mem_nil

theorem read (g : ω → α) : Acts P (Traced.read g : Traced ω τ ε α) :=
  Ensures.read fun _ _ ht => absurd ht List.not_mem_nil

theorem modify (g : ω → ω) : Acts P (Traced.modify g : Traced ω τ ε Unit) :=
  fun _ _ ht => absurd ht List.not_mem_nil

theorem emit {t : τ} (h : P t) : Acts P (Traced.emit t : Traced ω τ ε Unit) :=
  Ensures.emit fun _ ht => List.mem_singleton.1 ht ▸ h

theorem call {h : ω → Except ε α × ω} {act : ω → Except ε α → τ}
    (hp : ∀ w, P (act w (h w).1)) : Acts P (Traced.call h act) :=
  Ensures.call fun w _ ht => List.mem_singleton.1 ht ▸ hp w

theorem attempt {x : Traced ω τ ε α} (h : x.Acts P) : x.attempt.Acts P := h

theorem embed {τ' ε' : Type} {f : τ' → τ} {g : ε' → ε} {x : Traced ω τ' ε' α}
    (h : x.Acts fun t => P (f t)) : (x.embed f g).Acts P :=
  fun w => List.forall_mem_map.2 (h w)

theorem forM {α : Type} {f : α → Traced ω τ ε PUnit} (h : ∀ a, (f a).Acts P) (l : List α) :
    (l.forM f).Acts P := by
  induction l with
  | nil => exact .pure _
  | cons a l ih => exact .bind (h a) fun _ => ih

theorem of_run {x : Traced ω τ ε α} (h : x.Acts P) (hrun : x.run w = ⟨r, w', l⟩) :
    ∀ t ∈ l, P t := by
  have hw := h w
  rwa [hrun] at hw

/-- The rest of a computation adds nothing to what its first part has to satisfy. -/
theorem forall_trace_bind (x : Traced ω τ ε α) {f : α → Traced ω τ ε β} (hf : ∀ a, (f a).Acts P)
    (w : ω) : (∀ t ∈ ((x >>= f).run w).trace, P t) ↔ ∀ t ∈ (x.run w).trace, P t := by
  refine ⟨fun h t ht => h t (mem_trace_bind f ht), fun h => ?_⟩
  cases hx : (x.run w).result with
  | ok a =>
    rw [run_bind_ok f hx]
    exact fun t ht => (List.mem_append.1 ht).elim (h t) (hf a _ t)
  | error e =>
    rw [run_bind_error f hx]
    exact h

end Acts

/-- If every action of a run satisfies the assumption `C`, every one satisfies `P` and the value
satisfies `Q`. -/
def Under (C P : τ → Prop) (x : Traced ω τ ε α) (Q : α → Prop) : Prop :=
  x.Ensures fun r l => (∀ t ∈ l, C t) → (∀ t ∈ l, P t) ∧ ∀ a, r = .ok a → Q a

namespace Under

variable {C P : τ → Prop} {x : Traced ω τ ε α} {Q Q' : α → Prop}

theorem weaken (h : Under C P x Q) (hQ : ∀ a, Q a → Q' a) : Under C P x Q' :=
  Ensures.weaken h fun _ _ hr hc => ⟨(hr hc).1, fun a ha => hQ a ((hr hc).2 a ha)⟩

theorem of_acts (h : x.Acts P) : Under C P x fun _ => True :=
  Ensures.weaken h fun _ _ hl _ => ⟨hl, fun _ _ => trivial⟩

theorem pure {a : α} (h : Q a) : Under C P (Pure.pure a : Traced ω τ ε α) Q :=
  Ensures.pure fun _ => ⟨fun _ ht => absurd ht List.not_mem_nil, fun _ ha => Except.ok.inj ha ▸ h⟩

theorem call {h : ω → Except ε α × ω} {act : ω → Except ε α → τ} (hp : ∀ w, P (act w (h w).1))
    (hq : ∀ w a, (h w).1 = .ok a → C (act w (.ok a)) → Q a) :
    Under C P (Traced.call h act) Q := by
  refine Ensures.call fun w hc => ⟨fun t ht => List.mem_singleton.1 ht ▸ hp w, fun a ha => ?_⟩
  have hact := hc _ (List.mem_singleton.2 rfl)
  rw [ha] at hact
  exact hq w a ha hact

theorem bind {f : α → Traced ω τ ε β} {Q' : β → Prop} (hx : Under C P x Q)
    (hf : ∀ a, Q a → Under C P (f a) Q') : Under C P (x >>= f) Q' := by
  refine Ensures.bind hx (fun e l h hc => ⟨(h hc).1, fun b hb => by cases hb⟩) fun a l h => ?_
  by_cases hc : ∀ t ∈ l, C t
  · obtain ⟨hp, hq⟩ := h hc
    refine Ensures.weaken (hf a (hq a rfl)) fun r l' h' hc' => ?_
    obtain ⟨hp', hq'⟩ := h' fun t ht => hc' t (List.mem_append_right _ ht)
    refine ⟨fun t ht => ?_, hq'⟩
    rcases List.mem_append.1 ht with ht | ht
    · exact hp t ht
    · exact hp' t ht
  · exact fun w hc' => absurd (fun t ht => hc' t (List.mem_append_left _ ht)) hc

end Under

/-- No run fails. -/
def Infallible (x : Traced ω τ ε α) : Prop := x.Ensures fun r _ => r.isOk = true

theorem Infallible.pure (a : α) : Infallible (Pure.pure a : Traced ω τ ε α) := Ensures.pure rfl

theorem Infallible.emit (t : τ) : Infallible (Traced.emit t : Traced ω τ ε Unit) :=
  Ensures.emit rfl

theorem Infallible.bind {x : Traced ω τ ε α} {f : α → Traced ω τ ε β} (hx : x.Infallible)
    (hf : ∀ a, (f a).Infallible) : (x >>= f).Infallible :=
  Ensures.bind hx (fun _ _ h => h) fun a _ _ => hf a

theorem Infallible.attempt (x : Traced ω τ ε α) : x.attempt.Infallible := fun _ => rfl

/-- A first part that does not fail leaves what the rest ensures of the result. -/
theorem Infallible.ensures_bind {x : Traced ω τ ε α} {f : α → Traced ω τ ε β}
    {Q : Except ε β → Prop} (hx : x.Infallible) (hf : ∀ a, (f a).Ensures fun r _ => Q r) :
    (x >>= f).Ensures fun r _ => Q r :=
  Ensures.bind hx (fun _ _ h => nomatch h) fun a _ _ => hf a

/-! ## Monitors -/

/-- The automaton `m` accepts the trace of every run of `x` from its state `s`, and ends in a state
that satisfies `Q` with the result. -/
def Monitored {σ : Type} (m : σ → τ → Option σ) (s : σ) (x : Traced ω τ ε α)
    (Q : Except ε α → σ → Prop) : Prop :=
  x.Ensures fun r l => ∃ s', l.foldlM m s = some s' ∧ Q r s'

namespace Monitored

variable {σ : Type} {m : σ → τ → Option σ} {s : σ} {x : Traced ω τ ε α}
  {Q Q' : Except ε α → σ → Prop}

theorem weaken (h : Monitored m s x Q) (hQ : ∀ r s', Q r s' → Q' r s') : Monitored m s x Q' :=
  Ensures.weaken h fun _ _ ⟨s', hm, hq⟩ => ⟨s', hm, hQ _ _ hq⟩

theorem pure {a : α} (h : Q (.ok a) s) : Monitored m s (Pure.pure a : Traced ω τ ε α) Q :=
  Ensures.pure ⟨s, rfl, h⟩

theorem throw {e : ε} (h : Q (.error e) s) : Monitored m s (Traced.throw e : Traced ω τ ε α) Q :=
  Ensures.throw ⟨s, rfl, h⟩

theorem read {g : ω → α} (h : ∀ w, Q (.ok (g w)) s) :
    Monitored m s (Traced.read g : Traced ω τ ε α) Q :=
  Ensures.read fun w => ⟨s, rfl, h w⟩

theorem emit {t : τ} {Q : Except ε Unit → σ → Prop} (hm : m s t = some s') (h : Q (.ok ()) s') :
    Monitored m s (Traced.emit t : Traced ω τ ε Unit) Q :=
  Ensures.emit ⟨s', by simp [hm], h⟩

theorem call {h : ω → Except ε α × ω} {act : ω → Except ε α → τ}
    (hh : ∀ w, ∃ s', m s (act w (h w).1) = some s' ∧ Q (h w).1 s') :
    Monitored m s (Traced.call h act) Q :=
  Ensures.call fun w => by
    obtain ⟨s', hm, hq⟩ := hh w
    exact ⟨s', by simp [hm], hq⟩

theorem attempt {Q : Except ε (Except ε α) → σ → Prop}
    (h : Monitored m s x fun r s' => Q (.ok r) s') : Monitored m s x.attempt Q := h

theorem bind {f : α → Traced ω τ ε β} {P : Except ε β → σ → Prop} (hx : Monitored m s x Q)
    (herr : ∀ e s', Q (.error e) s' → P (.error e) s')
    (hok : ∀ a s', Q (.ok a) s' → Monitored m s' (f a) P) : Monitored m s (x >>= f) P := by
  refine Ensures.bind hx ?_ ?_
  · rintro e l ⟨s', hm, hq⟩
    exact ⟨s', hm, herr e s' hq⟩
  · rintro a l ⟨s', hm, hq⟩
    refine Ensures.weaken (hok a s' hq) ?_
    rintro r l' ⟨s'', hm', hp⟩
    exact ⟨s'', by simp [List.foldlM_append, hm, hm'], hp⟩

/-- Actions that leave the automaton's state alone. -/
theorem of_acts (h : x.Acts fun t => m s t = some s) : Monitored m s x fun _ s' => s' = s := by
  refine Ensures.weaken h fun _ l hl => ⟨s, ?_, rfl⟩
  induction l with
  | nil => rfl
  | cons t l ih =>
    rw [List.foldlM_cons, hl t List.mem_cons_self]
    exact ih fun t' ht' => hl t' (List.mem_cons_of_mem _ ht')

theorem of_acts_infallible (h : x.Acts fun t => m s t = some s) (hok : x.Infallible) :
    Monitored m s x fun r s' => s' = s ∧ r.isOk = true := by
  intro w
  obtain ⟨s', hm, rfl⟩ := of_acts h w
  exact ⟨s', hm, rfl, hok w⟩

end Monitored

/-! ## Two computations in related worlds -/

/-- Related values, or the same error. -/
inductive ResultRel (Q : α → β → Prop) : Except ε α → Except ε β → Prop
  | ok : Q a b → ResultRel Q (.ok a) (.ok b)
  | error : ResultRel Q (.error e) (.error e)

theorem ResultRel.weaken {Q Q' : α → β → Prop} {r : Except ε α} {r' : Except ε β}
    (h : ResultRel Q r r') (hQ : ∀ a b, Q a b → Q' a b) : ResultRel Q' r r' := by
  cases h with
  | ok h => exact .ok (hQ _ _ h)
  | error => exact .error

section

variable {κ : Type} (R : ω → ω → Prop) (v : τ → Option κ)

/-- From the worlds `w` and `w'`, `x` and `y` end in related worlds and related results, and their
traces look the same to `v`. -/
def SimAt (Q : α → β → Prop) (x : Traced ω τ ε α) (y : Traced ω τ ε β) (w w' : ω) : Prop :=
  ResultRel Q (x.run w).result (y.run w').result ∧ R (x.run w).world (y.run w').world ∧
    (x.run w).trace.filterMap v = (y.run w').trace.filterMap v

/-- `x` and `y` do the same from any related worlds. -/
def Sim (Q : α → β → Prop) (x : Traced ω τ ε α) (y : Traced ω τ ε β) : Prop :=
  ∀ w w', R w w' → SimAt R v Q x y w w'

/-- `y` succeeds, keeps the worlds related that its own is related to, and is not seen by `v`. -/
def Silent (P : β → Prop) (y : Traced ω τ ε β) : Prop :=
  ∀ w w', R w w' → (∃ b, (y.run w').result = .ok b ∧ P b) ∧ R w (y.run w').world ∧
    (y.run w').trace.filterMap v = []

/-- `y` fails with `e`, keeps the worlds related that its own is related to, and is not seen by
`v`. -/
def Fails (e : ε) (y : Traced ω τ ε β) : Prop :=
  ∀ w w', R w w' → (y.run w').result = .error e ∧ R w (y.run w').world ∧
    (y.run w').trace.filterMap v = []

/-- A handler answers the same in related worlds, and leaves related worlds. -/
def Respects (h : ω → Except ε α × ω) : Prop :=
  ∀ w w', R w w' → (h w).1 = (h w').1 ∧ R (h w).2 (h w').2

end

variable {κ : Type} {R : ω → ω → Prop} {v : τ → Option κ}

theorem ResultRel.eq {r r' : Except ε α} (h : ResultRel Eq r r') : r = r' := by
  cases h with
  | ok h => rw [h]
  | error => rfl

theorem ResultRel.refl (r : Except ε α) : ResultRel Eq r r := by
  cases r with
  | ok a => exact .ok rfl
  | error e => exact .error

theorem SimAt.bind {Q : α → β → Prop} {x : Traced ω τ ε α} {y : Traced ω τ ε β}
    {f : α → Traced ω τ ε γ} {g : β → Traced ω τ ε δ} {P : γ → δ → Prop}
    (h : SimAt R v Q x y w w')
    (hf : ∀ a b, Q a b → R (x.run w).world (y.run w').world →
      SimAt R v P (f a) (g b) (x.run w).world (y.run w').world) :
    SimAt R v P (x >>= f) (y >>= g) w w' := by
  obtain ⟨hr, hw, ht⟩ := h
  unfold SimAt
  cases hx : (x.run w).result with
  | ok a =>
    cases hy : (y.run w').result with
    | ok b =>
      rw [hx, hy] at hr
      obtain ⟨hq⟩ := hr
      obtain ⟨hr', hw', ht'⟩ := hf a b hq hw
      rw [run_bind_ok f hx, run_bind_ok g hy]
      exact ⟨hr', hw', by simp only [List.filterMap_append, ht, ht']⟩
    | error e =>
      rw [hx, hy] at hr
      cases hr
  | error e =>
    cases hy : (y.run w').result with
    | ok b =>
      rw [hx, hy] at hr
      cases hr
    | error e' =>
      rw [hx, hy] at hr
      cases hr
      rw [run_bind_error f hx, run_bind_error g hy]
      exact ⟨.error, hw, ht⟩

/-- A first part of the right computation that is not seen. -/
theorem SimAt.skip {Q : α → β → Prop} {x : Traced ω τ ε α} {z : Traced ω τ ε γ}
    {g : γ → Traced ω τ ε β} (hz : (z.run w').result = .ok c)
    (hv : (z.run w').trace.filterMap v = []) (h : SimAt R v Q x (g c) w (z.run w').world) :
    SimAt R v Q x (z >>= g) w w' := by
  obtain ⟨hr, hw, ht⟩ := h
  unfold SimAt
  rw [run_bind_ok g hz]
  exact ⟨hr, hw, by simp only [List.filterMap_append, hv, ht, List.nil_append]⟩

/-- An action beside the first part of the right computation that looks the same. -/
theorem SimAt.call_bind {Q : α → β → Prop} {h : ω → Except ε α × ω} {act : ω → Except ε α → τ}
    {z : Traced ω τ ε γ} {g : γ → Traced ω τ ε β} (hz : (z.run w').result = .ok c)
    (hv : [act w (h w).1].filterMap v = (z.run w').trace.filterMap v)
    (hrest : SimAt R v Q (Traced.ofExcept (h w).1) (g c) (h w).2 (z.run w').world) :
    SimAt R v Q (Traced.call h act) (z >>= g) w w' := by
  obtain ⟨hr, hw, ht⟩ := hrest
  rw [run_ofExcept] at hr hw ht
  unfold SimAt
  rw [run_bind_ok g hz]
  refine ⟨hr, hw, ?_⟩
  simp only [Traced.call, List.filterMap_append, ← hv, ← ht, List.filterMap_nil, List.append_nil]

namespace Sim

variable {Q : α → β → Prop} {x : Traced ω τ ε α} {y : Traced ω τ ε β}

theorem weaken {Q' : α → β → Prop} (h : Sim R v Q x y) (hQ : ∀ a b, Q a b → Q' a b) :
    Sim R v Q' x y := by
  intro w w' hR
  obtain ⟨hr, hw, ht⟩ := h w w' hR
  exact ⟨hr.weaken hQ, hw, ht⟩

theorem pure {a : α} {b : β} (h : Q a b) :
    Sim R v Q (Pure.pure a : Traced ω τ ε α) (Pure.pure b) :=
  fun _ _ hR => ⟨.ok h, hR, rfl⟩

theorem throw (e : ε) : Sim R v Q (Traced.throw e : Traced ω τ ε α) (Traced.throw e) :=
  fun _ _ hR => ⟨.error, hR, rfl⟩

theorem ofExcept (r : Except ε α) :
    Sim R v Eq (Traced.ofExcept r : Traced ω τ ε α) (Traced.ofExcept r) := by
  cases r with
  | ok a => exact pure rfl
  | error e => exact throw e

theorem read {g : ω → α} {g' : ω → β} (h : ∀ w w', R w w' → Q (g w) (g' w')) :
    Sim R v Q (Traced.read g : Traced ω τ ε α) (Traced.read g') :=
  fun w w' hR => ⟨.ok (h w w' hR), hR, rfl⟩

theorem call {h : ω → Except ε α × ω} {h' : ω → Except ε β × ω} {act : ω → Except ε α → τ}
    {act' : ω → Except ε β → τ}
    (hh : ∀ w w', R w w' → ResultRel Q (h w).1 (h' w').1 ∧ R (h w).2 (h' w').2 ∧
      v (act w (h w).1) = v (act' w' (h' w').1)) :
    Sim R v Q (Traced.call h act) (Traced.call h' act') := by
  intro w w' hR
  obtain ⟨hr, hw, hv⟩ := hh w w' hR
  refine ⟨hr, hw, ?_⟩
  simp only [Traced.call, List.filterMap_cons, List.filterMap_nil, hv]

theorem bind {f : α → Traced ω τ ε γ} {g : β → Traced ω τ ε δ} {P : γ → δ → Prop}
    (h : Sim R v Q x y) (hf : ∀ a b, Q a b → Sim R v P (f a) (g b)) :
    Sim R v P (x >>= f) (y >>= g) :=
  fun w w' hR => (h w w' hR).bind fun a b hab hR' => hf a b hab _ _ hR'

theorem map_right {f : β → δ} {P : α → δ → Prop} (h : Sim R v Q x y)
    (hf : ∀ a b, Q a b → P a (f b)) : Sim R v P x (y >>= fun b => Pure.pure (f b)) := by
  rw [← bind_pure x]
  exact h.bind fun a b hab => pure (hf a b hab)

/-- The same action of a handler that respects the relation. -/
theorem call_of_respects {h : ω → Except ε α × ω} {act act' : ω → Except ε α → τ}
    (hh : Respects R h) (hv : ∀ w w' r, v (act w r) = v (act' w' r)) :
    Sim R v Eq (Traced.call h act) (Traced.call h act') := by
  refine call fun w w' hR => ?_
  obtain ⟨hr, hw⟩ := hh w w' hR
  rw [← hr]
  exact ⟨.refl _, hw, hv _ _ _⟩

theorem embed {τ' ε' : Type} {f : τ' → τ} {g : ε' → ε} {x y : Traced ω τ' ε' α}
    (h : Sim R (fun t => v (f t)) Eq x y) : Sim R v Eq (x.embed f g) (y.embed f g) := by
  intro w w' hR
  obtain ⟨hr, hw, ht⟩ := h w w' hR
  refine ⟨?_, hw, ?_⟩
  · simp only [Traced.embed, hr.eq]
    exact .refl _
  · simp only [Traced.embed, List.filterMap_map]
    exact ht

theorem attempt {y : Traced ω τ ε α} (h : Sim R v Eq x y) : Sim R v Eq x.attempt y.attempt := by
  intro w w' hR
  obtain ⟨hr, hw, ht⟩ := h w w' hR
  exact ⟨.ok hr.eq, hw, ht⟩

/-- A silent computation before the right one. -/
theorem silent_bind {g : γ → Traced ω τ ε β} {P : γ → Prop} {z : Traced ω τ ε γ}
    (hz : Silent R v P z) (h : ∀ c, P c → Sim R v Q x (g c)) : Sim R v Q x (z >>= g) := by
  intro w w' hR
  obtain ⟨⟨c, hc, hP⟩, hw, ht⟩ := hz w w' hR
  exact .skip hc ht (h c hP _ _ hw)

theorem of_fails {e : ε} (hy : Fails R v e y) :
    Sim R v Q (Traced.throw e : Traced ω τ ε α) y := by
  intro w w' hR
  obtain ⟨hr, hw, ht⟩ := hy w w' hR
  unfold SimAt
  rw [hr, ht]
  exact ⟨.error, hw, rfl⟩

end Sim

namespace Silent

variable {P : β → Prop}

theorem pure {b : β} (h : P b) : Silent R v P (Pure.pure b : Traced ω τ ε β) :=
  fun _ _ hR => ⟨⟨b, rfl, h⟩, hR, rfl⟩

theorem emit {t : τ} (h : v t = none) :
    Silent R v (fun _ => True) (Traced.emit t : Traced ω τ ε Unit) :=
  fun _ _ hR => ⟨⟨(), rfl, trivial⟩, hR, by simp [Traced.emit, h]⟩

theorem call {h : ω → Except ε β × ω} {act : ω → Except ε β → τ}
    (hh : ∀ w w', R w w' → (∃ b, (h w').1 = .ok b ∧ P b) ∧ R w (h w').2)
    (hv : ∀ w r, v (act w r) = none) : Silent R v P (Traced.call h act) := by
  intro w w' hR
  obtain ⟨hb, hw⟩ := hh w w' hR
  exact ⟨hb, hw, by simp [Traced.call, hv]⟩

theorem weaken {P' : β → Prop} {y : Traced ω τ ε β} (h : Silent R v P y) (hP : ∀ b, P b → P' b) :
    Silent R v P' y := by
  intro w w' hR
  obtain ⟨⟨b, hb, hPb⟩, hw, ht⟩ := h w w' hR
  exact ⟨⟨b, hb, hP b hPb⟩, hw, ht⟩

theorem bind {y : Traced ω τ ε β} {g : β → Traced ω τ ε γ} {P' : γ → Prop} (hy : Silent R v P y)
    (hg : ∀ b, P b → Silent R v P' (g b)) : Silent R v P' (y >>= g) := by
  intro w w' hR
  obtain ⟨⟨b, hb, hP⟩, hw, ht⟩ := hy w w' hR
  obtain ⟨hc, hw', ht'⟩ := hg b hP _ _ hw
  rw [run_bind_ok g hb]
  exact ⟨hc, hw', by simp only [List.filterMap_append, ht, ht', List.nil_append]⟩

theorem attempt {y : Traced ω τ ε β} (h : Silent R v P y) :
    Silent R v (fun r => ∃ b, r = .ok b ∧ P b) y.attempt := by
  intro w w' hR
  obtain ⟨hb, hw, ht⟩ := h w w' hR
  exact ⟨⟨_, rfl, hb⟩, hw, ht⟩

theorem embed {τ' ε' : Type} {f : τ' → τ} {g : ε' → ε} {y : Traced ω τ' ε' β}
    (h : Silent R (fun t => v (f t)) P y) : Silent R v P (y.embed f g) := by
  intro w w' hR
  obtain ⟨⟨b, hb, hP⟩, hw, ht⟩ := h w w' hR
  refine ⟨⟨b, congrArg (Except.mapError g) hb, hP⟩, hw, ?_⟩
  simp only [Traced.embed, List.filterMap_map]
  exact ht

theorem forM {α : Type} {f : α → Traced ω τ ε PUnit} (h : ∀ a, Silent R v (fun _ => True) (f a))
    (l : List α) : Silent R v (fun _ => True) (l.forM f) := by
  induction l with
  | nil => exact .pure trivial
  | cons a l ih => exact .bind (h a) fun _ _ => ih

/-- A silent computation beside one that does nothing. -/
theorem sim {y : Traced ω τ ε β} (hy : Silent R v P y) (a : α) :
    Sim R v (fun _ _ => True) (Pure.pure a : Traced ω τ ε α) y := by
  intro w w' hR
  obtain ⟨⟨b, hb, -⟩, hw, ht⟩ := hy w w' hR
  unfold SimAt
  rw [hb, ht]
  exact ⟨.ok trivial, hw, rfl⟩

theorem bind_fails {y : Traced ω τ ε β} {g : β → Traced ω τ ε γ} {e : ε} (hy : Silent R v P y)
    (hg : ∀ b, P b → Fails R v e (g b)) : Fails R v e (y >>= g) := by
  intro w w' hR
  obtain ⟨⟨b, hb, hP⟩, hw, ht⟩ := hy w w' hR
  obtain ⟨hr, hw', ht'⟩ := hg b hP _ _ hw
  rw [run_bind_ok g hb]
  exact ⟨hr, hw', by simp only [List.filterMap_append, ht, ht', List.nil_append]⟩

end Silent

theorem Fails.bind {y : Traced ω τ ε β} {e : ε} (hy : Fails R v e y) (g : β → Traced ω τ ε γ) :
    Fails R v e (y >>= g) := by
  intro w w' hR
  obtain ⟨hr, hw, ht⟩ := hy w w' hR
  rw [run_bind_error g hr]
  exact ⟨rfl, hw, ht⟩

theorem Fails.throw (e : ε) : Fails R v e (Traced.throw e : Traced ω τ ε β) :=
  fun _ _ hR => ⟨rfl, hR, rfl⟩

end Traced
