import Mathlib.Data.Finset.Lattice.Fold
import Mathlib.Data.Fintype.Basic
import Mathlib.Logic.Relation

/-!
# Interleavings of tasks over a shared state

Any number of tasks, each with a local state, take atomic steps on one shared state in any order.
An invariant of the steps is an invariant of the runs. If what is shared is a list to which each
task adds its elements, the tasks' lists are woven into one. The last section is about a shared
value that only grows by joins: it is then the join of the start value and what the tasks have put
in.
-/

namespace Interleaving

/-- The shared state and every task's local state. -/
@[ext] structure Config (ι σ τ : Type) where
  shared : σ
  locals : ι → τ

variable {ι σ τ : Type} [DecidableEq ι] (step : ι → σ → τ → σ → τ → Prop)

/-- One task takes one step. -/
inductive Step : Config ι σ τ → Config ι σ τ → Prop
  | task (i : ι) : step i c.shared (c.locals i) s t → Step c ⟨s, Function.update c.locals i t⟩

/-- Finitely many steps. -/
abbrev Run : Config ι σ τ → Config ι σ τ → Prop := Relation.ReflTransGen (Step step)

variable {step}

theorem Run.invariant {I : Config ι σ τ → Prop} (h : Run step c c')
    (hstep : ∀ {c i s t}, I c → step i c.shared (c.locals i) s t →
      I ⟨s, Function.update c.locals i t⟩) (h0 : I c) : I c' := by
  induction h with
  | refl => exact h0
  | tail _ hs ih =>
    cases hs with
    | task i hi => exact hstep ih hi

/-- A run goes on with a step of a task. -/
theorem Run.task (h : Run step c c') (i : ι) (ht : c'.locals i = t) (hs : step i c'.shared t s u) :
    Run step c ⟨s, Function.update c'.locals i u⟩ := h.tail (.task i (ht ▸ hs))

/-- What holds of every task's local state is kept by the steps that keep it of one task. -/
theorem forall_update {P : ι → τ → Prop} {locals : ι → τ} (h : ∀ i, P i (locals i))
    (hi : P i t) : ∀ j, P j (Function.update locals i t j) := by
  intro j
  rcases eq_or_ne j i with rfl | hne
  · rwa [Function.update_self]
  · rw [Function.update_of_ne hne]
    exact h j

/-- The states as another machine has them. -/
def Config.map {σ' τ' : Type} (f : σ → σ') (g : τ → τ') (c : Config ι σ τ) : Config ι σ' τ' :=
  ⟨f c.shared, fun i => g (c.locals i)⟩

/-- If the steps are steps of another machine, the runs are its runs. -/
theorem Run.map {σ' τ' : Type} {step' : ι → σ' → τ' → σ' → τ' → Prop} {f : σ → σ'} {g : τ → τ'}
    (h : Run step c c')
    (hstep : ∀ {i s t s' t'}, step i s t s' t' → step' i (f s) (g t) (f s') (g t')) :
    Run step' (c.map f g) (c'.map f g) := by
  induction h with
  | refl => exact .refl
  | @tail d _ _ hs ih =>
    cases hs with
    | @task s t _ i hi =>
      have hmap : Config.map f g ⟨s, Function.update d.locals i t⟩ =
          ⟨f s, Function.update (d.map f g).locals i (g t)⟩ := by
        ext j
        · rfl
        · rcases eq_or_ne j i with rfl | hne
          · simp [Config.map]
          · simp [Config.map, Function.update_of_ne hne]
      exact ih.tail (hmap ▸ .task i (hstep hi))

theorem Run.shared_mono [Preorder σ] (h : Run step c c')
    (hstep : ∀ {i s t s' t'}, step i s t s' t' → s ≤ s') : c.shared ≤ c'.shared :=
  h.invariant (I := fun d => c.shared ≤ d.shared) (fun hd hs => hd.trans (hstep hs)) le_rfl

/-! ## Lists woven into one -/

variable {α : Type}

/-- The list takes the elements of the lists in turns, each list from its first element on. -/
inductive Woven : (ι → List α) → List α → Prop
  | nil : (∀ i, f i = []) → Woven f []
  | cons (i : ι) : f i = a :: l → Woven (Function.update f i l) w → Woven f (a :: w)

variable {key : α → ι}

theorem Woven.mem (h : Woven f w) (hf : ∀ i, ∀ a ∈ f i, key a = i) : ∀ a ∈ w, a ∈ f (key a) := by
  induction h with
  | nil _ => exact fun a ha => nomatch ha
  | @cons f a l w i hi _ ih =>
    have ha : key a = i := hf i a (hi ▸ List.mem_cons_self)
    have hle (j : ι) : ∀ b ∈ Function.update f i l j, b ∈ f j := by
      intro b hb
      rcases eq_or_ne j i with rfl | hne
      · rw [Function.update_self] at hb
        exact hi ▸ List.mem_cons_of_mem _ hb
      · rwa [Function.update_of_ne hne] at hb
    intro b hb
    rcases List.mem_cons.1 hb with rfl | hb
    · exact ha ▸ hi ▸ List.mem_cons_self
    · exact hle _ _ (ih (fun j b hb => hf j b (hle j b hb)) b hb)

/-- If each element knows its list, the lists are found again. -/
theorem Woven.filter_eq (h : Woven f w) (hf : ∀ i, ∀ a ∈ f i, key a = i) (j : ι) :
    w.filter (key · = j) = f j := by
  induction h with
  | nil hnil => exact (hnil j).symm
  | @cons f a l w i hi _ ih =>
    have ha : key a = i := hf i a (hi ▸ List.mem_cons_self)
    have hrest := ih fun k b hb => by
      rcases eq_or_ne k i with rfl | hne
      · rw [Function.update_self] at hb
        exact hf k b (hi ▸ List.mem_cons_of_mem _ hb)
      · rw [Function.update_of_ne hne] at hb
        exact hf k b hb
    rw [List.filter_cons, hrest, ha]
    rcases eq_or_ne j i with rfl | hne
    · rw [if_pos (by simp), Function.update_self, hi]
    · rw [if_neg (by simpa using hne.symm), Function.update_of_ne hne]

/-- A list is woven of its elements by their keys. -/
theorem woven_filter (key : α → ι) (w : List α) : Woven (fun i => w.filter (key · = i)) w := by
  induction w with
  | nil => exact .nil fun _ => rfl
  | cons a w ih =>
    refine .cons (key a) (List.filter_cons_of_pos (by simp)) ?_
    have hrest : Function.update (fun i => (a :: w).filter (key · = i)) (key a)
        (w.filter (key · = key a)) = fun i => w.filter (key · = i) := by
      funext i
      rcases eq_or_ne i (key a) with rfl | hne
      · rw [Function.update_self]
      · rw [Function.update_of_ne hne, List.filter_cons_of_neg (by simpa using hne.symm)]
    rwa [hrest]

/-! ## A shared value that grows by joins -/

variable [SemilatticeSup σ] [OrderBot σ] [Fintype ι]

/-- The join of what the tasks have put in. -/
def total (contribution : τ → σ) (locals : ι → τ) : σ :=
  Finset.univ.sup fun i => contribution (locals i)

omit [DecidableEq ι] in
theorem le_total (contribution : τ → σ) (locals : ι → τ) (i : ι) :
    contribution (locals i) ≤ total contribution locals :=
  Finset.le_sup (f := fun i => contribution (locals i)) (Finset.mem_univ i)

/-- A contribution that grows joins the total. -/
theorem total_update {contribution : τ → σ} {locals : ι → τ}
    (h : contribution (locals i) ≤ contribution t) :
    total contribution (Function.update locals i t) = total contribution locals ⊔ contribution t := by
  apply le_antisymm
  · apply Finset.sup_le
    intro j _
    rcases eq_or_ne j i with rfl | hne
    · simp
    · rw [Function.update_of_ne hne]
      exact (le_total contribution locals j).trans le_sup_left
  · refine sup_le (Finset.sup_le fun j _ => ?_) ?_
    · apply le_trans _ (le_total contribution _ j)
      rcases eq_or_ne j i with rfl | hne
      · simpa using h
      · rw [Function.update_of_ne hne]
    · simpa using le_total contribution (Function.update locals i t) i

/-- If each step joins its contribution into the shared value, that value is the join of the seed
and all contributions. -/
theorem Run.shared_eq_sup_total {contribution : τ → σ} (h : Run step c c')
    (hstep : ∀ {i s t s' t'}, step i s t s' t' → contribution t ≤ s →
      s' = s ⊔ contribution t' ∧ contribution t ≤ contribution t')
    (h0 : c.shared = seed ⊔ total contribution c.locals) :
    c'.shared = seed ⊔ total contribution c'.locals := by
  refine h.invariant (I := fun c => c.shared = seed ⊔ total contribution c.locals) ?_ h0
  intro c i s t hc hs
  have hle : contribution (c.locals i) ≤ c.shared := by
    rw [hc]
    exact (le_total contribution c.locals i).trans le_sup_right
  obtain ⟨rfl, hgrow⟩ := hstep hs hle
  change c.shared ⊔ contribution t = _
  rw [total_update hgrow, hc, sup_assoc]

end Interleaving
