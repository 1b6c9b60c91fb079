import Tako.Theory.Result
import Tako.Theory.Traced

/-!
# What a computation says

Some actions of a trace carry an answer that was received, some a text that is said. `Says` relates
both to the value of the computation, with one rule for each way of building a computation.
-/

namespace Traced

variable {ω τ ε α β κ : Type}

/-- The text that a trace says. -/
def told (d : τ → Option String) (l : List τ) : String := String.join (l.filterMap d)

theorem told_append (d : τ → Option String) (l l' : List τ) :
    told d (l ++ l') = told d l ++ told d l' := by
  unfold told
  rw [List.filterMap_append, String.join_append]

theorem told_eq_empty {d : τ → Option String} {l : List τ} (h : ∀ t ∈ l, d t = none) :
    told d l = "" := by
  rw [told, List.filterMap_eq_nil_iff.2 h]
  rfl

variable (v : τ → Option κ) (d : τ → Option String)

/-- In every run that has a value, `Q` holds of it, of the answers and of the text said. -/
def Says (Q : α → List κ → String → Prop) (x : Traced ω τ ε α) : Prop :=
  x.Ensures fun r l => ∀ a, r = .ok a → Q a (l.filterMap v) (told d l)

/-- Nothing is received or said. -/
abbrev Mute (x : Traced ω τ ε α) : Prop := x.Acts fun t => v t = none ∧ d t = none

namespace Says

variable {v d} {Q : α → List κ → String → Prop} {P : β → List κ → String → Prop}
  {x : Traced ω τ ε α} {f : α → Traced ω τ ε β}

theorem pure {a : α} (h : Q a [] "") : Says v d Q (Pure.pure a : Traced ω τ ε α) :=
  Ensures.pure fun _ ha => Except.ok.inj ha ▸ h

theorem throw (e : ε) : Says v d Q (Traced.throw e : Traced ω τ ε α) := Ensures.throw nofun

theorem weaken {Q' : α → List κ → String → Prop} (h : Says v d Q x)
    (hQ : ∀ a ks t, Q a ks t → Q' a ks t) : Says v d Q' x :=
  Ensures.weaken h fun _ _ hr a ha => hQ _ _ _ (hr a ha)

theorem bind (hx : Says v d Q x)
    (hf : ∀ a ks t, Q a ks t → Says v d (fun b ks' t' => P b (ks ++ ks') (t ++ t')) (f a)) :
    Says v d P (x >>= f) := by
  refine Ensures.bind hx (fun _ _ _ => nofun) fun a l ha => ?_
  refine Ensures.weaken (hf a _ _ (ha a rfl)) fun r l' hr b hb => ?_
  rw [List.filterMap_append, told_append]
  exact hr b hb

theorem of_mute (h : Mute v d x) : Says v d (fun _ ks t => ks = [] ∧ t = "") x :=
  Ensures.weaken h fun _ _ hl _ _ =>
    ⟨List.filterMap_eq_nil_iff.2 fun t ht => (hl t ht).1, told_eq_empty fun t ht => (hl t ht).2⟩

/-- A first part that says nothing. -/
theorem mute_bind (hx : Mute v d x) (hf : ∀ a, Says v d P (f a)) : Says v d P (x >>= f) := by
  refine bind (of_mute hx) ?_
  rintro a _ _ ⟨rfl, rfl⟩
  exact weaken (hf a) fun b ks t h => by rwa [List.nil_append, String.empty_append]

/-- A last part that says nothing. -/
theorem bind_mute (hx : Says v d Q x) (hf : ∀ a, Says v d (fun b ks t => ks = [] ∧ t = "" ∧
    ∀ ks t, Q a ks t → P b ks t) (f a)) : Says v d P (x >>= f) := by
  refine bind hx fun a ks t h => weaken (hf a) ?_
  rintro b _ _ ⟨rfl, rfl, hP⟩
  rw [List.append_nil, String.append_empty]
  exact hP _ _ h

/-- A computation with other names for its actions and errors. -/
theorem embed {τ' ε' : Type} {i : τ → τ'} {j : ε → ε'} {v : τ' → Option κ}
    {d : τ' → Option String} (hx : Says (fun t => v (i t)) (fun t => d (i t)) Q x) :
    Says v d Q (x.embed i j) := by
  intro w a ha
  have h := hx w a (Except.mapError_eq_ok.1 ha)
  unfold told Traced.embed at *
  rw [List.filterMap_map, List.filterMap_map]
  exact h

end Says

end Traced
