/-!
# Runs of a machine

A machine takes a move in a state, where the move is possible. `play` makes a list of moves;
`Along` says what holds of each move in the state in which it is made, and `Visits` what holds of
each state on the way.
-/

namespace Machine

variable {σ μ : Type} (step : μ → σ → Option σ)

def play : List μ → σ → Option σ
  | [], s => some s
  | m :: ms, s => (step m s).bind (play ms)

/-- `P` holds of each move in the state in which it is made. -/
def Along (P : σ → μ → Prop) : List μ → σ → Prop
  | [], _ => True
  | m :: ms, s => P s m ∧ ∀ s', step m s = some s' → Along P ms s'

/-- `P` holds of each state. -/
def Visits (P : σ → Prop) : List μ → σ → Prop
  | [], s => P s
  | m :: ms, s => P s ∧ ∀ s', step m s = some s' → Visits P ms s'

variable {step} {s s' : σ} {m : μ} {ms ms' : List μ} {P : σ → μ → Prop} {Q I : σ → Prop}

theorem play_cons : play step (m :: ms) s = some s' ↔
    ∃ t, step m s = some t ∧ play step ms t = some s' := Option.bind_eq_some_iff

theorem play_append : play step (ms ++ ms') s = some s' ↔
    ∃ t, play step ms s = some t ∧ play step ms' t = some s' := by
  induction ms generalizing s with
  | nil => simp [play]
  | cons m ms ih =>
    rw [List.cons_append, play_cons]
    constructor
    · rintro ⟨t, ht, h⟩
      obtain ⟨u, hu, h⟩ := ih.1 h
      exact ⟨u, play_cons.2 ⟨t, ht, hu⟩, h⟩
    · rintro ⟨u, hu, h⟩
      obtain ⟨t, ht, hu⟩ := play_cons.1 hu
      exact ⟨t, ht, ih.2 ⟨u, hu, h⟩⟩

theorem along_append : Along step P (ms ++ ms') s ↔
    Along step P ms s ∧ ∀ t, play step ms s = some t → Along step P ms' t := by
  induction ms generalizing s with
  | nil => exact ⟨fun h => ⟨trivial, fun t ht => Option.some.inj ht ▸ h⟩, fun h => h.2 s rfl⟩
  | cons m ms ih =>
    constructor
    · rintro ⟨hm, hrest⟩
      refine ⟨⟨hm, fun t ht => (ih.1 (hrest t ht)).1⟩, fun u hu => ?_⟩
      obtain ⟨t, ht, hu⟩ := play_cons.1 hu
      exact (ih.1 (hrest t ht)).2 u hu
    · rintro ⟨⟨hm, hrest⟩, hlast⟩
      exact ⟨hm, fun t ht => ih.2 ⟨hrest t ht, fun u hu => hlast u (play_cons.2 ⟨t, ht, hu⟩)⟩⟩

theorem along_of_forall (h : ∀ m ∈ ms, ∀ s, P s m) : Along step P ms s := by
  induction ms generalizing s with
  | nil => trivial
  | cons m ms ih =>
    exact ⟨h m List.mem_cons_self s, fun _ _ => ih fun m' hm' => h m' (List.mem_cons_of_mem m hm')⟩

/-- What the moves of a run keep if `P` holds of them. -/
theorem play_invariant_along (hstep : ∀ {s m s'}, I s → P s m → step m s = some s' → I s')
    (h : play step ms s = some s') (hP : Along step P ms s) (hs : I s) : I s' := by
  induction ms generalizing s with
  | nil =>
    cases h
    exact hs
  | cons m ms ih =>
    obtain ⟨t, ht, h⟩ := play_cons.1 h
    exact ih h (hP.2 t ht) (hstep hs hP.1 ht)

/-- What every move keeps, a run keeps. -/
theorem play_invariant (hstep : ∀ {s m s'}, I s → step m s = some s' → I s')
    (h : play step ms s = some s') (hs : I s) : I s' :=
  play_invariant_along (P := fun _ _ => True) (fun hs _ => hstep hs) h
    (along_of_forall fun _ _ _ => trivial) hs

theorem Visits.last (h : Visits step Q ms s) (hplay : play step ms s = some s') : Q s' := by
  induction ms generalizing s with
  | nil =>
    cases hplay
    exact h
  | cons m ms ih =>
    obtain ⟨t, ht, hplay⟩ := play_cons.1 hplay
    exact ih (h.2 t ht) hplay

/-- If a move keeps `Q` exactly when `P` holds of it, a run visits only states with `Q` exactly when
`P` holds of each of its moves. -/
theorem visits_iff (hinv : ∀ {s m s'}, I s → step m s = some s' → I s')
    (hstep : ∀ {s m s'}, I s → Q s → step m s = some s' → (Q s' ↔ P s m))
    (h : play step ms s = some s') (hI : I s) (hQ : Q s) :
    Visits step Q ms s ↔ Along step P ms s := by
  induction ms generalizing s with
  | nil => exact iff_of_true hQ trivial
  | cons m ms ih =>
    obtain ⟨t, ht, h⟩ := play_cons.1 h
    have hrest := fun hQt => ih h (hinv hI ht) hQt
    constructor
    · intro hvisits
      have hQt : Q t := by
        cases ms with
        | nil => exact hvisits.2 t ht
        | cons m' ms => exact (hvisits.2 t ht).1
      refine ⟨(hstep hI hQ ht).1 hQt, fun t' ht' => ?_⟩
      cases ht.symm.trans ht'
      exact (hrest hQt).1 (hvisits.2 t ht)
    · intro halong
      refine ⟨hQ, fun t' ht' => ?_⟩
      cases ht.symm.trans ht'
      have hQt := (hstep hI hQ ht).2 halong.1
      exact (hrest hQt).2 (halong.2 t ht)

end Machine
