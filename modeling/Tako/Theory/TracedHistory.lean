import Tako.Theory.Traced

/-!
# Computations after a history

A computation that runs after a history of actions makes the history longer. `Triple` states what
holds of result, history and world afterwards, `AtMost` how many actions of a kind are taken, and
`Guided` to which states an automaton that reads the history is led. Each has one rule for each way
of building a computation.
-/

namespace Traced

variable {ω τ ε α β : Type}

/-- After a history and in a world of `P` the computation leaves a result, a history and a world of
`Q`. -/
def Triple (P : List τ → ω → Prop) (x : Traced ω τ ε α)
    (Q : Except ε α → List τ → ω → Prop) : Prop :=
  ∀ h w, P h w → Q (x.run w).result (h ++ (x.run w).trace) (x.run w).world

namespace Triple

variable {P P' : List τ → ω → Prop} {x : Traced ω τ ε α} {Q Q' : Except ε α → List τ → ω → Prop}

theorem weaken (hx : Triple P x Q) (hP : ∀ h w, P' h w → P h w)
    (hQ : ∀ r h w, Q r h w → Q' r h w) : Triple P' x Q' :=
  fun h w hp => hQ _ _ _ (hx h w (hP h w hp))

theorem pure {a : α} (hq : ∀ h w, P h w → Q (.ok a) h w) :
    Triple P (Pure.pure a : Traced ω τ ε α) Q := by
  intro h w hp
  rw [run_pure, List.append_nil]
  exact hq h w hp

theorem ofExcept {r : Except ε α} (hq : ∀ h w, P h w → Q r h w) :
    Triple P (Traced.ofExcept r : Traced ω τ ε α) Q := by
  intro h w hp
  rw [run_ofExcept, List.append_nil]
  exact hq h w hp

theorem throw {e : ε} (hq : ∀ h w, P h w → Q (.error e) h w) :
    Triple P (Traced.throw e : Traced ω τ ε α) Q :=
  Triple.ofExcept (r := .error e) hq

theorem read {g : ω → α} (hq : ∀ h w, P h w → Q (.ok (g w)) h w) :
    Triple P (Traced.read g : Traced ω τ ε α) Q :=
  fun h w hp => (List.append_nil h).symm ▸ hq h w hp

theorem modify {g : ω → ω} {Q : Except ε Unit → List τ → ω → Prop}
    (hq : ∀ h w, P h w → Q (.ok ()) h (g w)) :
    Triple P (Traced.modify g : Traced ω τ ε Unit) Q :=
  fun h w hp => (List.append_nil h).symm ▸ hq h w hp

theorem emit {t : τ} {Q : Except ε Unit → List τ → ω → Prop}
    (hq : ∀ h w, P h w → Q (.ok ()) (h ++ [t]) w) :
    Triple P (Traced.emit t : Traced ω τ ε Unit) Q := hq

theorem call {g : ω → Except ε α × ω} {act : ω → Except ε α → τ}
    (hq : ∀ h w, P h w → Q (g w).1 (h ++ [act w (g w).1]) (g w).2) :
    Triple P (Traced.call g act) Q := hq

theorem attempt {Q : Except ε (Except ε α) → List τ → ω → Prop}
    (hx : Triple P x fun r => Q (.ok r)) : Triple P x.attempt Q := hx

/-- First `x`, then what follows it; a failure of `x` is the failure of the whole. -/
theorem bind {f : α → Traced ω τ ε β} {Q' : Except ε β → List τ → ω → Prop} (hx : Triple P x Q)
    (herr : ∀ e h w, Q (.error e) h w → Q' (.error e) h w)
    (hf : ∀ a, Triple (Q (.ok a)) (f a) Q') : Triple P (x >>= f) Q' := by
  intro h w hp
  have hw := hx h w hp
  cases hr : (x.run w).result with
  | ok a =>
    rw [hr] at hw
    rw [run_bind_ok f hr, ← List.append_assoc]
    exact hf a _ _ hw
  | error e =>
    rw [hr] at hw
    rw [run_bind_error f hr]
    exact herr e _ _ hw

end Triple

/-- No run takes more than `n` actions of the kind. -/
def AtMost (p : τ → Bool) (n : Nat) (x : Traced ω τ ε α) : Prop :=
  x.Ensures fun _ l => l.countP p ≤ n

namespace AtMost

variable {p : τ → Bool} {x : Traced ω τ ε α} {m n : Nat}

theorem weaken (h : AtMost p m x) (hle : m ≤ n) : AtMost p n x :=
  fun w => Nat.le_trans (h w) hle

theorem of_acts (h : x.Acts fun t => p t = false) : AtMost p 0 x :=
  fun w => Nat.le_of_eq (List.countP_eq_zero.2 fun t ht => Bool.eq_false_iff.1 (h w t ht))

theorem call {g : ω → Except ε α × ω} {act : ω → Except ε α → τ} :
    AtMost p 1 (Traced.call g act) := fun _ => List.countP_le_length

theorem attempt (h : AtMost p n x) : AtMost p n x.attempt := h

theorem bind {f : α → Traced ω τ ε β} (hx : AtMost p m x) (hf : ∀ a, AtMost p n (f a)) :
    AtMost p (m + n) (x >>= f) := by
  refine Ensures.bind hx (fun _ _ h => Nat.le_trans h (Nat.le_add_right m n)) fun a l hl => ?_
  refine Ensures.weaken (hf a) fun _ l' hl' => ?_
  rw [List.countP_append]
  exact Nat.add_le_add hl hl'

theorem pure (a : α) : AtMost p n (Pure.pure a : Traced ω τ ε α) := fun _ => Nat.zero_le n

theorem throw (e : ε) : AtMost p n (Traced.throw e : Traced ω τ ε α) := fun _ => Nat.zero_le n

theorem read (g : ω → α) : AtMost p n (Traced.read g : Traced ω τ ε α) := fun _ => Nat.zero_le n

/-- A first part that takes none. -/
theorem after {f : α → Traced ω τ ε β} (hx : x.Acts fun t => p t = false)
    (hf : ∀ a, AtMost p n (f a)) : AtMost p n (x >>= f) :=
  ((of_acts hx).bind hf).weaken (Nat.le_of_eq (Nat.zero_add n))

/-- A last part that takes none. -/
theorem before {f : α → Traced ω τ ε β} (hx : AtMost p n x)
    (hf : ∀ a, (f a).Acts fun t => p t = false) : AtMost p n (x >>= f) :=
  hx.bind fun a => of_acts (hf a)

theorem embed {τ' ε' : Type} {f : τ' → τ} {g : ε' → ε} {x : Traced ω τ' ε' α}
    (h : AtMost (fun t => p (f t)) n x) : AtMost p n (x.embed f g) := by
  intro w
  change ((x.run w).trace.map f).countP p ≤ n
  rw [List.countP_map]
  exact h w

end AtMost

/-! ## Automata -/

/-- How a part of a computation ends: in a state of `Q`, or failed in one of `F`. -/
def EndsIn {σ : Type} (F : σ → Prop) (Q : α → σ → Prop) : Except ε α → σ → Prop
  | .ok a, s => Q a s
  | .error _, s => F s

/-- From its state `s` the automaton accepts what `x` does, and is led to a state of `Q`, or to one
of `F` if `x` fails. -/
def Guided {σ : Type} (m : σ → τ → Option σ) (F : σ → Prop) (s : σ) (x : Traced ω τ ε α)
    (Q : α → σ → Prop) : Prop :=
  Monitored m s x (EndsIn F Q)

namespace Guided

variable {σ : Type} {m : σ → τ → Option σ} {F : σ → Prop} {s : σ} {x : Traced ω τ ε α}
  {Q Q' : α → σ → Prop}

theorem weaken (h : Guided m F s x Q) (hQ : ∀ a s', Q a s' → Q' a s') : Guided m F s x Q' := by
  refine Monitored.weaken h fun r s' hr => ?_
  cases r with
  | ok a => exact hQ a s' hr
  | error e => exact hr

theorem bind {f : α → Traced ω τ ε β} {P : β → σ → Prop} (hx : Guided m F s x Q)
    (hf : ∀ a s', Q a s' → Guided m F s' (f a) P) : Guided m F s (x >>= f) P :=
  Monitored.bind hx (fun _ _ h => h) hf

/-- A first part that leads to one state. -/
theorem seq {f : α → Traced ω τ ε β} {P : β → σ → Prop} {t : σ}
    (hx : Guided m F s x fun _ s' => s' = t) (hf : ∀ a, Guided m F t (f a) P) :
    Guided m F s (x >>= f) P :=
  hx.bind fun a _ hs => hs.symm ▸ hf a

theorem pure {a : α} (h : Q a s) : Guided m F s (Pure.pure a : Traced ω τ ε α) Q :=
  Monitored.pure h

theorem throw {e : ε} (h : F s) : Guided m F s (Traced.throw e : Traced ω τ ε α) Q :=
  Monitored.throw h

theorem emit {t : τ} {Q : Unit → σ → Prop} (hm : m s t = some s') (h : Q () s') :
    Guided m F s (Traced.emit t : Traced ω τ ε Unit) Q :=
  Monitored.emit hm h

theorem embed {τ' ε' : Type} {f : τ' → τ} {g : ε' → ε} {x : Traced ω τ' ε' α}
    (h : Guided (fun s t => m s (f t)) F s x Q) : Guided m F s (x.embed f g) Q := by
  intro w
  obtain ⟨s', hm, hends⟩ := h w
  refine ⟨s', by rw [Traced.embed, List.foldlM_map, hm], ?_⟩
  change EndsIn F Q ((x.run w).result.mapError g) s'
  cases hr : (x.run w).result with
  | ok a =>
    rw [hr] at hends
    exact hends
  | error e =>
    rw [hr] at hends
    exact hends

/-- Actions that the automaton does not see. -/
theorem of_acts (h : x.Acts fun t => m s t = some s) (hs : F s) :
    Guided m F s x fun _ s' => s' = s := by
  refine Monitored.weaken (Monitored.of_acts h) fun r s' hr => ?_
  cases r with
  | ok a => exact hr
  | error e => exact hr.symm ▸ hs

/-- Actions that the automaton does not see, without a failure. -/
theorem of_acts_infallible (h : x.Acts fun t => m s t = some s) (hx : x.Infallible) :
    Guided m F s x fun _ s' => s' = s := by
  refine Monitored.weaken (Monitored.of_acts_infallible h hx) fun r s' hr => ?_
  cases r with
  | ok a => exact hr.1
  | error e => cases hr.2

end Guided

end Traced
