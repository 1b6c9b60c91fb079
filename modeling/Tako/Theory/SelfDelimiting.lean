import Mathlib.Data.List.Basic

/-!
# Self-delimiting codes

A code is self-delimiting at a value if the value, and what follows its code, can be read off any
text that begins with it (`Separates`). Some codes, such as those of numbers, need to be followed by
a character that ends them. Lists of self-delimiting codes are self-delimiting again: one after
another (`Separates.flatMap`), and with separators (`Separates.intercalate`).
-/

namespace SelfDelimiting

variable {α γ : Type} {stop stop' start : γ → Prop} {P : α → Prop} {code : α → List γ}
variable {x y r s : List γ} {xs ys : List α}

/-- The text is empty, or begins with a character at which reading stops. -/
def Stops (stop : γ → Prop) (r : List γ) : Prop := ∀ c ∈ r.head?, stop c

@[simp] theorem stops_nil : Stops stop [] := by simp [Stops]

@[simp] theorem stops_cons {c : γ} : Stops stop (c :: r) ↔ stop c := by simp [Stops]

/-- Of a text that begins with the code of `a`, and goes on with a character at which reading stops,
there is no other reading. -/
def Separates (stop : γ → Prop) (P : α → Prop) (code : α → List γ) (a : α) : Prop :=
  ∀ b r s, P b → Stops stop r → Stops stop s → code a ++ r = code b ++ s → a = b ∧ r = s

theorem Stops.mono (h : ∀ c, stop c → stop' c) (hr : Stops stop r) : Stops stop' r :=
  fun c hc => h c (hr c hc)

theorem Separates.mono (h : ∀ c, stop c → stop' c) {a : α} (ha : Separates stop' P code a) :
    Separates stop P code a := by
  intro b r s hb hr hs heq
  exact ha b r s hb (hr.mono h) (hs.mono h) heq

/-- A code that a reader undoes. -/
theorem Separates.of_read (read : List γ → Option (α × List γ))
    (h : ∀ a r, read (code a ++ r) = some (a, r)) (a : α) : Separates stop P code a := by
  intro b r s _ _ _ heq
  have hread : some (a, r) = some (b, s) := by rw [← h a r, heq, h b s]
  simpa using hread

/-- The longest run of characters of a kind. -/
theorem span_inj {p : γ → Prop} (hx : ∀ c ∈ x, p c) (hy : ∀ c ∈ y, p c)
    (hr : Stops (¬p ·) r) (hs : Stops (¬p ·) s) (h : x ++ r = y ++ s) : x = y ∧ r = s := by
  induction x generalizing y with
  | nil =>
    cases y with
    | nil => exact ⟨rfl, h⟩
    | cons c y =>
      obtain rfl : r = c :: y ++ s := h
      exact (hr c rfl (hy c List.mem_cons_self)).elim
  | cons c x ih =>
    cases y with
    | nil =>
      obtain rfl : c :: x ++ r = s := h
      exact (hs c rfl (hx c List.mem_cons_self)).elim
    | cons d y =>
      rw [List.cons_append, List.cons_append, List.cons.injEq] at h
      obtain ⟨rfl, h⟩ := h
      obtain ⟨rfl, hrs⟩ := ih (fun c hc => hx c (List.mem_cons_of_mem _ hc))
        (fun c hc => hy c (List.mem_cons_of_mem _ hc)) h
      exact ⟨rfl, hrs⟩

/-! ## Lists -/

/-- Every code has a first character, of the kind `start`. -/
def Starts (start : γ → Prop) (P : α → Prop) (code : α → List γ) : Prop :=
  ∀ a, P a → ∃ c rest, code a = c :: rest ∧ start c

theorem Starts.stops (h : Starts start P code) (hP : ∀ a ∈ xs, P a)
    (hr : Stops (fun c => stop c ∧ ¬start c) r) (hstop : ∀ c, start c → stop c) :
    Stops stop (xs.flatMap code ++ r) := by
  cases xs with
  | nil => exact hr.mono fun c hc => hc.1
  | cons a xs =>
    obtain ⟨c, rest, ha, hc⟩ := h a (hP a List.mem_cons_self)
    rw [List.flatMap_cons, ha]
    exact stops_cons.2 (hstop c hc)

/-- No code is read where the list has ended. -/
theorem Starts.not_cons (h : Starts start P code) {a : α} (ha : P a)
    (hr : Stops (fun c => stop c ∧ ¬start c) r) (heq : r = code a ++ s) : False := by
  obtain ⟨c, rest, hcode, hc⟩ := h a ha
  rw [hcode] at heq
  subst heq
  exact (stops_cons.1 hr).2 hc

/-- Codes one after another, up to a character that begins none. -/
theorem Separates.flatMap (hstart : Starts start P code) (hstop : ∀ c, start c → stop c)
    (hxs : ∀ a ∈ xs, P a ∧ Separates stop P code a) (hys : ∀ b ∈ ys, P b)
    (hr : Stops (fun c => stop c ∧ ¬start c) r) (hs : Stops (fun c => stop c ∧ ¬start c) s)
    (h : xs.flatMap code ++ r = ys.flatMap code ++ s) : xs = ys ∧ r = s := by
  induction xs generalizing ys with
  | nil =>
    cases ys with
    | nil => exact ⟨rfl, h⟩
    | cons b ys =>
      rw [List.flatMap_cons, List.append_assoc] at h
      exact (hstart.not_cons (hys b List.mem_cons_self) hr h).elim
  | cons a xs ih =>
    rw [List.forall_mem_cons] at hxs
    cases ys with
    | nil =>
      rw [List.flatMap_cons, List.append_assoc] at h
      exact (hstart.not_cons hxs.1.1 hs h.symm).elim
    | cons b ys =>
      rw [List.forall_mem_cons] at hys
      rw [List.flatMap_cons, List.flatMap_cons, List.append_assoc, List.append_assoc] at h
      obtain ⟨rfl, hrest⟩ := hxs.1.2 b _ _ hys.1
        (hstart.stops (fun a ha => (hxs.2 a ha).1) hr hstop) (hstart.stops hys.2 hs hstop) h
      obtain ⟨rfl, hrs⟩ := ih hxs.2 hys.2 hrest
      exact ⟨rfl, hrs⟩

theorem intercalate_cons (sep : γ) (a : α) (xs : List α) :
    [sep].intercalate ((a :: xs).map code) = code a ++ xs.flatMap fun b => sep :: code b := by
  induction xs generalizing a with
  | nil => simp
  | cons b xs ih =>
    rw [List.map_cons, List.map_cons, List.intercalate_cons_cons, ← List.map_cons, ih,
      List.flatMap_cons]
    simp

/-- Codes with a separator between them and a character that closes the list. -/
theorem Separates.intercalate {sep close : γ} (hsep : stop sep) (hclose : stop close)
    (hne : sep ≠ close) (hstart : Starts (· ≠ close) P code)
    (hxs : ∀ a ∈ xs, P a ∧ Separates stop P code a) (hys : ∀ b ∈ ys, P b)
    (h : [sep].intercalate (xs.map code) ++ close :: r =
      [sep].intercalate (ys.map code) ++ close :: s) : xs = ys ∧ r = s := by
  have hends : ∀ t, Stops (fun c => stop c ∧ ¬c = sep) (close :: t) := fun t =>
    stops_cons.2 ⟨hclose, hne.symm⟩
  cases xs with
  | nil =>
    cases ys with
    | nil => simpa using h
    | cons b ys =>
      obtain ⟨c, rest, hb, hc⟩ := hstart b (hys b List.mem_cons_self)
      rw [intercalate_cons, hb] at h
      exact absurd (List.cons.inj h).1.symm hc
  | cons a xs =>
    rw [List.forall_mem_cons] at hxs
    cases ys with
    | nil =>
      obtain ⟨c, rest, ha, hc⟩ := hstart a hxs.1.1
      rw [intercalate_cons, ha] at h
      exact absurd (List.cons.inj h).1 hc
    | cons b ys =>
      rw [List.forall_mem_cons] at hys
      rw [intercalate_cons, intercalate_cons, List.append_assoc, List.append_assoc] at h
      have hstart' : Starts (· = sep) P fun b => sep :: code b := fun b _ => ⟨sep, _, rfl, rfl⟩
      have hstop : ∀ c, c = sep → stop c := fun c hc => hc ▸ hsep
      obtain ⟨rfl, hrest⟩ := hxs.1.2 b _ _ hys.1
        (hstart'.stops (fun a ha => (hxs.2 a ha).1) (hends r) hstop)
        (hstart'.stops hys.2 (hends s) hstop) h
      have hmore : ∀ a ∈ xs, P a ∧ Separates stop P (fun b => sep :: code b) a := by
        intro a ha
        refine ⟨(hxs.2 a ha).1, fun b r s hb hr hs heq => ?_⟩
        exact (hxs.2 a ha).2 b r s hb hr hs (List.cons.inj heq).2
      obtain ⟨rfl, hrs⟩ := Separates.flatMap hstart' hstop hmore hys.2 (hends r) (hends s) hrest
      exact ⟨rfl, (List.cons.inj hrs).2⟩

end SelfDelimiting
