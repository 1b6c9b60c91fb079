import Mathlib.Data.Finset.Insert
import Tako.Theory.Interleaving
import Tako.Theory.Traced

/-!
# Asynchronous programs

A program runs in atomic steps on a shared state. It may have to wait before a step, others take
theirs in between, and where it waits it may be dropped, which lets go of what it holds. Alone it
is a function (`exec`). Beside others it is reasoned about with a rely, what the others may do to
the state, and a guarantee, what its own steps do to it (`Safe`): if each program's guarantee is
within the others' relies, all stay safe in whatever order they take their steps (`Run.safe`).
-/

open Interleaving (Config)

/-- `update` and `next` are given the state before the step, and `drop` is what becomes of it if
the program is dropped there. -/
inductive Async (σ α : Type) where
  | done (a : α)
  | await (ready : σ → Bool) (update drop : σ → σ) (next : σ → Async σ α)

namespace Async

variable {σ α β γ : Type}

/-! ## Programs -/

def bind : Async σ α → (α → Async σ β) → Async σ β
  | done a, k => k a
  | await ready update drop next, k => await ready update drop fun s => (next s).bind k

instance : Monad (Async σ) where
  pure := done
  bind := bind

/-- One step that never waits. -/
def atomically (f : σ → α × σ) : Async σ α :=
  await (fun _ => true) (fun s => (f s).2) id fun s => done (f s).1

def read (f : σ → α) : Async σ α := atomically fun s => (f s, s)

def modify (f : σ → σ) : Async σ Unit := atomically fun s => ((), f s)

/-- What is held is let go at the end, and where the program is dropped. -/
def holding (release : σ → σ) : Async σ α → Async σ α
  | done a => await (fun _ => true) release release fun _ => done a
  | await ready update drop next =>
    await ready update (release ∘ drop) fun s => (next s).holding release

/-- The program waits for something, and holds it until it is through. -/
def acquiring (ready : σ → Bool) (acquire release : σ → σ) (x : Async σ α) : Async σ α :=
  await ready acquire id fun _ => x.holding release

/-- What the program alone makes of the state, up to where it would have to wait. -/
def leaves : Async σ α → σ → σ
  | done _, s => s
  | await ready update _ next, s => if ready s then (next s).leaves (update s) else s

/-- For a program that does not wait. Others take steps between its own all the same, but it cannot
be dropped there: it goes on to its end first. -/
def unbroken : Async σ α → Async σ α
  | done a => done a
  | await ready update drop next =>
    await ready update (await ready update drop next).leaves fun s => (next s).unbroken

/-- The rest of a program whose first part may fail. -/
def andThen {ε : Type} (x : Async σ (Except ε α)) (k : α → Async σ (Except ε β)) :
    Async σ (Except ε β) :=
  x >>= fun r => match r with
    | .ok a => k a
    | .error e => pure (.error e)

/-! ## Alone -/

/-- The program without anything in between, if it need not wait. -/
def exec : Async σ α → σ → Option (α × σ)
  | done a, s => some (a, s)
  | await ready update _ next, s => if ready s then (next s).exec (update s) else none

/-- At most `n` steps of the program without anything in between, as long as it need not wait. -/
def advance : Nat → Async σ α → σ → Async σ α × σ
  | n + 1, await ready update drop next, s =>
    if ready s then (next s).advance n (update s) else (await ready update drop next, s)
  | _, x, s => (x, s)

theorem exec_await {ready : σ → Bool} {update drop : σ → σ} {next : σ → Async σ α} (s : σ) :
    (await ready update drop next).exec s =
      if ready s then (next s).exec (update s) else none := rfl

@[simp] theorem exec_pure (a : α) (s : σ) : (pure a : Async σ α).exec s = some (a, s) := rfl

@[simp] theorem exec_atomically (f : σ → α × σ) (s : σ) : (atomically f).exec s = some (f s) := rfl

@[simp] theorem exec_read (f : σ → α) (s : σ) : (read f).exec s = some (f s, s) := rfl

@[simp] theorem exec_modify (f : σ → σ) (s : σ) : (modify f).exec s = some ((), f s) := rfl

theorem exec_bind (x : Async σ α) (k : α → Async σ β) (s : σ) :
    (x >>= k).exec s = (x.exec s).bind fun r => (k r.1).exec r.2 := by
  change (x.bind k).exec s = _
  induction x generalizing s with
  | done a => rfl
  | await ready update drop next ih =>
    rw [Async.bind, exec_await, exec_await, ih]
    split <;> rfl

theorem exec_andThen_ok {ε : Type} {x : Async σ (Except ε α)} (h : x.exec s = some (.ok a, s'))
    (k : α → Async σ (Except ε β)) : (x.andThen k).exec s = (k a).exec s' := by
  rw [andThen, exec_bind, h, Option.bind_some]

theorem exec_andThen_error {ε : Type} {e : ε} {x : Async σ (Except ε α)}
    (h : x.exec s = some (.error e, s')) (k : α → Async σ (Except ε β)) :
    (x.andThen k).exec s = some (.error e, s') := by
  rw [andThen, exec_bind, h, Option.bind_some, exec_pure]

theorem exec_holding (release : σ → σ) (x : Async σ α) (s : σ) :
    (x.holding release).exec s = (x.exec s).map fun r => (r.1, release r.2) := by
  induction x generalizing s with
  | done a => rfl
  | await ready update drop next ih =>
    rw [holding, exec_await, exec_await, ih]
    split <;> rfl

theorem exec_acquiring {ready : σ → Bool} (h : ready s = true) (acquire release : σ → σ)
    (x : Async σ α) : (acquiring ready acquire release x).exec s =
      (x.exec (acquire s)).map fun r => (r.1, release r.2) := by
  rw [acquiring, exec_await, if_pos h, exec_holding]

theorem exec_unbroken (x : Async σ α) : x.unbroken.exec = x.exec := by
  induction x with
  | done a => rfl
  | await ready update drop next ih =>
    funext s
    rw [unbroken, exec_await, exec_await, ih]

/-! ### Computations with a trace -/

section

variable {ω τ ε : Type} {I : σ → Prop} {view : σ → ω}

/-- From a state of `I` the program, alone, is the computation on what is seen of the state, and
leaves a state of `I`. -/
def Alone (I : σ → Prop) (view : σ → ω) (x : Async σ (Except ε α)) (y : Traced ω τ ε α) : Prop :=
  ∀ s, I s → ∃ s', x.exec s = some ((y.run (view s)).result, s') ∧ I s' ∧
    view s' = (y.run (view s)).world

theorem Alone.ofExcept (r : Except ε α) :
    Alone I view (pure r) (Traced.ofExcept r : Traced ω τ ε α) := by
  intro s hs
  rw [Traced.run_ofExcept]
  exact ⟨s, rfl, hs, rfl⟩

theorem Alone.andThen {x : Async σ (Except ε α)} {y : Traced ω τ ε α}
    {k : α → Async σ (Except ε β)} {f : α → Traced ω τ ε β} (h : Alone I view x y)
    (hk : ∀ a, Alone I view (k a) (f a)) : Alone I view (x.andThen k) (y >>= f) := by
  intro s hs
  obtain ⟨s', hx, hs', hview⟩ := h s hs
  cases hr : (y.run (view s)).result with
  | ok a =>
    rw [hr] at hx
    rw [exec_andThen_ok hx, Traced.run_bind_ok f hr, ← hview]
    exact hk a s' hs'
  | error e =>
    rw [hr] at hx
    rw [exec_andThen_error hx, Traced.run_bind_error f hr]
    exact ⟨s', rfl, hs', hview⟩

/-- A first part that does not fail. -/
theorem Alone.bind {x : Async σ γ} {y : Traced ω τ ε γ} {k : γ → Async σ (Except ε β)}
    {f : γ → Traced ω τ ε β} (h : ∀ s, I s → ∃ a s', x.exec s = some (a, s') ∧
      (y.run (view s)).result = .ok a ∧ I s' ∧ view s' = (y.run (view s)).world)
    (hk : ∀ a, Alone I view (k a) (f a)) : Alone I view (x >>= k) (y >>= f) := by
  intro s hs
  obtain ⟨a, s', hx, hy, hs', hview⟩ := h s hs
  rw [exec_bind, hx, Option.bind_some, Traced.run_bind_ok f hy, ← hview]
  exact hk a s' hs'

theorem Alone.acquiring {J : σ → Prop} {ready : σ → Bool} {acquire release : σ → σ}
    {x : Async σ (Except ε α)} {y : Traced ω τ ε α} (h : Alone J view x y)
    (hacquire : ∀ s, I s → ready s = true ∧ J (acquire s) ∧ view (acquire s) = view s)
    (hrelease : ∀ s, J s → I (release s) ∧ view (release s) = view s) :
    Alone I view (acquiring ready acquire release x) y := by
  intro s hs
  obtain ⟨hready, hJ, hview⟩ := hacquire s hs
  obtain ⟨s', hx, hJ', hview'⟩ := h _ hJ
  rw [hview] at hx hview'
  rw [exec_acquiring hready, hx]
  exact ⟨release s', rfl, (hrelease s' hJ').1, (hrelease s' hJ').2.trans hview'⟩

theorem Alone.call {g : σ → Except ε α × σ} {g' : ω → Except ε α × ω}
    {act : ω → Except ε α → τ} (hg : ∀ s, I s →
      (g s).1 = (g' (view s)).1 ∧ I (g s).2 ∧ view (g s).2 = (g' (view s)).2) :
    Alone I view (atomically g) (Traced.call g' act) := by
  intro s hs
  obtain ⟨hr, hI, hview⟩ := hg s hs
  exact ⟨(g s).2, congrArg (fun r => some (r, (g s).2)) hr, hI, hview⟩

end

/-! ## Beside others -/

/-- A step of a task, or one that is nobody's. A task that has been dropped is no more. -/
inductive Move (env : σ → σ → Prop) {ι : Type} (i : ι) :
    σ → Option (Async σ α) → σ → Option (Async σ α) → Prop
  | step : ready s = true →
    Move env i s (some (await ready update drop next)) (update s) (some (next s))
  | drop : Move env i s (some (await ready update drop next)) (drop s) none
  | env : env s s' → Move env i s x s' x

/-- From the state on, whatever happens within the rely: each of the program's steps keeps to the
guarantee `G`, the one with which it is dropped to `D`, and its result fits. -/
def Safe (R G D : σ → σ → Prop) (Q : α → σ → Prop) : Async σ α → σ → Prop
  | done a, s => ∀ s', R s s' → Q a s'
  | await ready update drop next, s => ∀ s', R s s' → D s' (drop s') ∧
    (ready s' = true → G s' (update s') ∧ (next s').Safe R G D Q (update s'))

/-- What the others do leaves a program safe. -/
theorem Safe.rely {R G D : σ → σ → Prop} {Q : α → σ → Prop} {x : Async σ α}
    (htrans : ∀ {s t u}, R s t → R t u → R s u) (h : x.Safe R G D Q s) (hs : R s s') :
    x.Safe R G D Q s' := by
  cases x with
  | done a => exact fun t ht => h t (htrans hs ht)
  | await ready update drop next => exact fun t ht => h t (htrans hs ht)

/-- The tasks beside one another: each task's guarantee and what is nobody's are within the others'
relies, and `T` is what all of it comes to. -/
structure Interference {ι : Type} (env : σ → σ → Prop) (R G : ι → σ → σ → Prop) (T : σ → σ → Prop) :
    Prop where
  rely_refl : ∀ i s, R i s s
  rely_trans : ∀ i {s t u}, R i s t → R i t u → R i s u
  rely_of_guarantee : ∀ {i j s t}, j ≠ i → G i s t → R j s t
  rely_of_env : ∀ i {s t}, env s t → R i s t
  refl : ∀ s, T s s
  trans : ∀ {s t u}, T s t → T t u → T s u
  of_guarantee : ∀ i {s t}, G i s t → T s t
  of_env : ∀ {s t}, env s t → T s t

section

variable {ι : Type} [DecidableEq ι] {env : σ → σ → Prop}

abbrev Run (env : σ → σ → Prop) :
    Config ι σ (Option (Async σ α)) → Config ι σ (Option (Async σ α)) → Prop :=
  Interleaving.Run (Move env)

variable {R G : ι → σ → σ → Prop} {T : σ → σ → Prop} {Q : ι → α → σ → Prop}
  {c c' : Config ι σ (Option (Async σ α))}

/-- Every task that is still there is safe. -/
def AllSafe (R G : ι → σ → σ → Prop) (Q : ι → α → σ → Prop)
    (c : Config ι σ (Option (Async σ α))) : Prop :=
  ∀ i, ∀ x ∈ c.locals i, x.Safe (R i) (G i) (G i) (Q i) c.shared

/-- A step of one task. -/
theorem AllSafe.update (hF : Interference env R G T) (h : AllSafe R G Q c) (hG : G i c.shared s)
    (hi : ∀ x ∈ o, x.Safe (R i) (G i) (G i) (Q i) s) :
    AllSafe R G Q ⟨s, Function.update c.locals i o⟩ := by
  intro j x hx
  change x ∈ Function.update c.locals i o j at hx
  rcases eq_or_ne j i with rfl | hne
  · rw [Function.update_self] at hx
    exact hi x hx
  · rw [Function.update_of_ne hne] at hx
    exact (h j x hx).rely (hF.rely_trans j) (hF.rely_of_guarantee hne hG)

/-- In whatever order the tasks take their steps, they stay safe. -/
theorem Run.safe (hF : Interference env R G T) (h : Run env c c') (h0 : AllSafe R G Q c) :
    AllSafe R G Q c' ∧ T c.shared c'.shared := by
  refine Interleaving.Run.invariant (I := fun d => AllSafe R G Q d ∧ T c.shared d.shared) h
    ?_ ⟨h0, hF.refl _⟩
  rintro d i s t ⟨hd, hT⟩ hm
  generalize hx : d.locals i = o at hm
  cases hm with
  | step hready =>
    obtain ⟨hG, hnext⟩ := (hd i _ hx _ (hF.rely_refl i _)).2 hready
    refine ⟨hd.update hF hG fun x hx => ?_, hF.trans hT (hF.of_guarantee i hG)⟩
    obtain rfl := Option.some.inj hx
    exact hnext
  | drop =>
    have hG := (hd i _ hx _ (hF.rely_refl i _)).1
    exact ⟨hd.update hF hG nofun, hF.trans hT (hF.of_guarantee i hG)⟩
  | env henv =>
    refine ⟨fun j x hj => ?_, hF.trans hT (hF.of_env henv)⟩
    rw [← hx, Function.update_eq_self] at hj
    exact (hd j x hj).rely (hF.rely_trans j) (hF.rely_of_env j henv)

/-- A task may take all its steps while the others take none. -/
theorem Run.exec {x : Async σ α} (hx : c.locals i = some x) (h : x.exec c.shared = some (a, s)) :
    Run env c ⟨s, Function.update c.locals i (some (done a))⟩ := by
  induction x generalizing c with
  | done b =>
    obtain ⟨rfl, rfl⟩ := Prod.mk.inj (Option.some.inj h)
    rw [← hx, Function.update_eq_self]
  | await ready update drop next ih =>
    rw [exec_await] at h
    obtain ⟨hready, h⟩ := Option.ite_none_right_eq_some.1 h
    have hstep : Run env c ⟨update c.shared, Function.update c.locals i (some (next c.shared))⟩ :=
      Interleaving.Run.task .refl i hx (.step hready)
    have hrest := ih c.shared (c := ⟨update c.shared,
      Function.update c.locals i (some (next c.shared))⟩) (Function.update_self ..) h
    rw [Function.update_idem] at hrest
    exact hstep.trans hrest

/-- A task may take some of its steps while the others take none. -/
theorem Run.advance {x : Async σ α} (h : Run env c c') (hx : c'.locals i = some x) (n : Nat) :
    Run env c ⟨(x.advance n c'.shared).2,
      Function.update c'.locals i (some (x.advance n c'.shared).1)⟩ := by
  induction n generalizing x c' with
  | zero =>
    have hsame : Function.update c'.locals i (some x) = c'.locals := by
      rw [← hx, Function.update_eq_self]
    cases x <;> simpa [Async.advance, hsame] using h
  | succ n ih =>
    cases x with
    | done a =>
      change Run env c ⟨c'.shared, Function.update c'.locals i (some (done a))⟩
      rwa [← hx, Function.update_eq_self]
    | await ready update drop next =>
      rw [Async.advance]
      split
      · next hready =>
        have hstep := ih (Interleaving.Run.task h i hx (.step hready)) (Function.update_self ..)
        rwa [Function.update_idem] at hstep
      · rwa [← hx, Function.update_eq_self]

/-- Something that is nobody's. -/
theorem Run.elsewhere [Inhabited ι] (h : Run env c c') (hs : env c'.shared s) :
    Run env c ⟨s, c'.locals⟩ := by
  have hstep := Interleaving.Run.task h default rfl (.env hs)
  rwa [Function.update_eq_self] at hstep

omit [DecidableEq ι] in
/-- What a task has returned fits. -/
theorem AllSafe.result (hF : Interference env R G T) (h : AllSafe R G Q c)
    (hi : c.locals i = some (done a)) : Q i a c.shared :=
  h i _ hi _ (hF.rely_refl i _)

end

/-! ## Rules -/

section

variable {R G D : σ → σ → Prop} {P : α → σ → Prop}

theorem Safe.pure {a : α} (h : ∀ s', R s s' → P a s') : (pure a : Async σ α).Safe R G D P s := h

theorem Safe.bind {x : Async σ α} {k : α → Async σ β} {Q : β → σ → Prop}
    (hrefl : ∀ s, R s s) (h : x.Safe R G D P s) (hk : ∀ a s', P a s' → (k a).Safe R G D Q s') :
    (x >>= k).Safe R G D Q s := by
  change (x.bind k).Safe R G D Q s
  induction x generalizing s with
  | done a => exact hk a s (h s (hrefl s))
  | await ready update drop next ih =>
    intro s' hs
    obtain ⟨hdrop, hstep⟩ := h s' hs
    exact ⟨hdrop, fun hr => ⟨(hstep hr).1, ih s' (hstep hr).2⟩⟩

theorem Safe.weaken {Q : α → σ → Prop} {x : Async σ α} (h : x.Safe R G D P s)
    (hPQ : ∀ a s, P a s → Q a s) : x.Safe R G D Q s := by
  induction x generalizing s with
  | done a => exact fun s' hs => hPQ a s' (h s' hs)
  | await ready update drop next ih =>
    intro s' hs
    obtain ⟨hdrop, hstep⟩ := h s' hs
    exact ⟨hdrop, fun hr => ⟨(hstep hr).1, ih s' (hstep hr).2⟩⟩

theorem Safe.andThen {ε : Type} {P : Except ε α → σ → Prop} {Q : Except ε β → σ → Prop}
    {x : Async σ (Except ε α)} {k : α → Async σ (Except ε β)} (hrefl : ∀ s, R s s)
    (h : x.Safe R G D P s) (hk : ∀ a s', P (.ok a) s' → (k a).Safe R G D Q s')
    (herror : ∀ e s' s'', P (.error e) s' → R s' s'' → Q (.error e) s'') :
    (x.andThen k).Safe R G D Q s := by
  refine .bind hrefl h fun r s' hr => ?_
  cases r with
  | ok a => exact hk a s' hr
  | error e => exact .pure fun s'' hs => herror e s' s'' hr hs

/-- A step that never waits. -/
theorem Safe.atomically {f : σ → α × σ} (h : ∀ s', R s s' →
    D s' s' ∧ G s' (f s').2 ∧ ∀ s'', R (f s').2 s'' → P (f s').1 s'') :
    (atomically f).Safe R G D P s :=
  fun s' hs => ⟨(h s' hs).1, fun _ => (h s' hs).2⟩

theorem Safe.read {f : σ → α} (h : ∀ s', R s s' →
    D s' s' ∧ G s' s' ∧ ∀ s'', R s' s'' → P (f s') s'') : (read f).Safe R G D P s :=
  .atomically h

/-- The program does not wait. -/
inductive Prompt : Async σ α → Prop
  | done (a : α) : Prompt (done a)
  | await {ready : σ → Bool} {update drop : σ → σ} {next : σ → Async σ α} :
    (∀ s, ready s = true) → (∀ s, Prompt (next s)) → Prompt (await ready update drop next)

theorem Prompt.atomically_bind {f : σ → β × σ} {k : β → Async σ α} (hk : ∀ b, (k b).Prompt) :
    (Async.atomically f >>= k).Prompt := .await (fun _ => rfl) fun s => hk (f s).1

/-- What does not wait comes to its end. -/
theorem Safe.leaves {x : Async σ α} (hx : x.Prompt) (hR : ∀ s, R s s) (hG : ∀ s, G s s)
    (htrans : ∀ {s t u}, G s t → G t u → G s u) (h : x.Safe R G D P s) :
    G s (x.leaves s) ∧ ∃ a, P a (x.leaves s) := by
  induction hx generalizing s with
  | done a => exact ⟨hG s, a, h s (hR s)⟩
  | await hready _ ih =>
    obtain ⟨hstep, hnext⟩ := (h s (hR s)).2 (hready s)
    obtain ⟨hrest, hdone⟩ := ih s hnext
    rw [Async.leaves, if_pos (hready s)]
    exact ⟨htrans hstep hrest, hdone⟩

theorem Safe.unbroken {x : Async σ α} (hx : x.Prompt) (hR : ∀ s, R s s)
    (hRtrans : ∀ {s t u}, R s t → R t u → R s u) (hG : ∀ s, G s s)
    (hGtrans : ∀ {s t u}, G s t → G t u → G s u) (h : x.Safe R G D P s) :
    x.unbroken.Safe R G (fun s s' => G s s' ∧ ∃ a, P a s') P s := by
  induction hx generalizing s with
  | done a => exact h
  | await hready hnext ih =>
    intro s' hs
    have hend := Safe.leaves (.await hready hnext) hR hG hGtrans (h.rely @hRtrans hs)
    exact ⟨hend, fun hr => ⟨((h s' hs).2 hr).1, ih s' ((h s' hs).2 hr).2⟩⟩

/-- While something is held, a drop leaves the state such that it can be let go. -/
theorem Safe.holding {release : σ → σ} {E : σ → σ → Prop} {Q : α → σ → Prop} {x : Async σ α}
    (h : x.Safe R G E P s) (hdrop : ∀ {s s'}, E s s' → D s (release s'))
    (hdone : ∀ a s', P a s' →
      D s' (release s') ∧ G s' (release s') ∧ ∀ s'', R (release s') s'' → Q a s'') :
    (x.holding release).Safe R G D Q s := by
  induction x generalizing s with
  | done a =>
    intro s' hs
    obtain ⟨hD, hG, hQ⟩ := hdone a s' (h s' hs)
    exact ⟨hD, fun _ => ⟨hG, hQ⟩⟩
  | await ready update drop next ih =>
    intro s' hs
    obtain ⟨hd, hstep⟩ := h s' hs
    exact ⟨hdrop hd, fun hr => ⟨(hstep hr).1, ih s' (hstep hr).2⟩⟩

theorem Safe.acquiring {ready : σ → Bool} {acquire release : σ → σ} {x : Async σ α}
    (h : ∀ s', R s s' → D s' s' ∧ (ready s' = true →
      G s' (acquire s') ∧ (x.holding release).Safe R G D P (acquire s'))) :
    (acquiring ready acquire release x).Safe R G D P s := h

end

/-! ## Read-write locks -/

/-- Who holds the lock. -/
@[ext] structure RwLock (ι : Type) where
  writer : Option ι := none
  readers : Finset ι := ∅

namespace RwLock

variable {ι : Type} [DecidableEq ι]

def readable (l : RwLock ι) : Bool := l.writer.isNone

def writable (l : RwLock ι) : Bool := l.writer.isNone && decide (l.readers = ∅)

def lockRead (i : ι) (l : RwLock ι) : RwLock ι := { l with readers := insert i l.readers }

def unlockRead (i : ι) (l : RwLock ι) : RwLock ι := { l with readers := l.readers.erase i }

def lockWrite (i : ι) (l : RwLock ι) : RwLock ι := { l with writer := some i }

def unlockWrite (l : RwLock ι) : RwLock ι := { l with writer := none }

/-- Nobody reads while somebody writes. -/
def Exclusive (l : RwLock ι) : Prop := l.writer ≠ none → l.readers = ∅

end RwLock

end Async
