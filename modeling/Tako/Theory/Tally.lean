import Tako.Theory.Result
import Tako.Theory.Traced

/-!
# Tallies

What the actions of a trace add to an account. A computation is `Tallied` if the account that its
value carries is what its trace has made of the one that it was given; the rules follow the ways of
building a computation.
-/

namespace Traced

variable {ω τ ε α β σ χ : Type}

/-- The account after a trace, of whose actions some carry a charge. -/
def tally (v : τ → Option χ) (f : σ → χ → σ) (s : σ) (l : List τ) : σ := (l.filterMap v).foldl f s

section

variable {v : τ → Option χ} {f : σ → χ → σ}

theorem tally_append (s : σ) (l l' : List τ) :
    tally v f s (l ++ l') = tally v f (tally v f s l) l' := by
  unfold tally
  rw [List.filterMap_append, List.foldl_append]

theorem tally_eq_of_none {l : List τ} (h : ∀ t ∈ l, v t = none) (s : σ) : tally v f s l = s := by
  unfold tally
  rw [List.filterMap_eq_nil_iff.2 h]
  rfl

end

variable (v : τ → Option χ) (f : σ → χ → σ)

/-- In every run that has a value, `g` of the value is the account after the trace. -/
def Tallied (s : σ) (g : α → σ) (x : Traced ω τ ε α) : Prop :=
  x.Ensures fun r l => ∀ a, r = .ok a → g a = tally v f s l

namespace Tallied

variable {v f} {s : σ} {g : α → σ} {g' : β → σ} {x : Traced ω τ ε α} {k : α → Traced ω τ ε β}

theorem pure {a : α} (h : g a = s) : Tallied v f s g (Pure.pure a : Traced ω τ ε α) :=
  Ensures.pure fun _ ha => Except.ok.inj ha ▸ h

theorem throw (e : ε) : Tallied v f s g (Traced.throw e : Traced ω τ ε α) := Ensures.throw nofun

theorem ofExcept {r : Except ε α} (h : ∀ a, r = .ok a → g a = s) :
    Tallied v f s g (Traced.ofExcept r : Traced ω τ ε α) := Ensures.ofExcept h

theorem bind (hx : Tallied v f s g x) (hk : ∀ a, Tallied v f (g a) g' (k a)) :
    Tallied v f s g' (x >>= k) := by
  refine Ensures.bind hx (fun e l _ => nofun) fun a l ha => ?_
  refine Ensures.weaken (hk a) fun r l' hr b hb => ?_
  rw [hr b hb, ha a rfl, tally_append]

/-- A part without charges. -/
theorem of_acts (h : x.Acts fun t => v t = none) : Tallied v f s (fun _ => s) x :=
  Ensures.weaken h fun _ _ hl _ _ => (tally_eq_of_none hl s).symm

/-- A first part without charges. -/
theorem silent_bind (hx : x.Acts fun t => v t = none) (hk : ∀ a, Tallied v f s g' (k a)) :
    Tallied v f s g' (x >>= k) := bind (of_acts hx) hk

/-- An action that is charged if it succeeds. -/
theorem call {h : ω → Except ε α × ω} {act : ω → Except ε α → τ}
    (hv : ∀ w a, (h w).1 = .ok a → g a = tally v f s [act w (.ok a)]) :
    Tallied v f s g (Traced.call h act) := by
  refine Ensures.call fun w a ha => ?_
  rw [ha]
  exact hv w a ha

/-- An action that may fail without being the end of the run. -/
theorem attempt_call {h : ω → Except ε α × ω} {act : ω → Except ε α → τ} {g : Except ε α → σ}
    (hv : ∀ w, g (h w).1 = tally v f s [act w (h w).1]) :
    Tallied v f s g (Traced.call h act).attempt :=
  Ensures.attempt (Ensures.call fun w _ ha => Except.ok.inj ha ▸ hv w)

theorem embed {τ' ε' : Type} {i : τ → τ'} {j : ε → ε'} {v : τ' → Option χ}
    (hx : Tallied (fun t => v (i t)) f s g x) : Tallied v f s g (x.embed i j) := by
  intro w a ha
  refine (hx w a (Except.mapError_eq_ok.1 ha)).trans ?_
  unfold tally Traced.embed
  rw [List.filterMap_map]
  rfl

end Tallied

end Traced
