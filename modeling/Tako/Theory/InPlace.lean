import Mathlib.Data.List.Forall2
import Mathlib.Tactic.Common

/-!
# Walks that change a list in place

A walk goes through a list, changes the elements in place and stops at the first that fails: what
came before stays changed. Each element stands for some jobs, which are numbered over the whole
walk. A list is left with the jobs that are still to be done, and it is left alone exactly when
nothing of it has been done, if this holds of every element (`Walked.each`). It is then walked as an
element of a longer walk.
-/

namespace Tako.InPlace

variable {α β ε J : Type}

/-- A step on an element: the outcome, the element as it is left, and the number of the next job. -/
abbrev Step (ε α : Type) := Nat → α → Except ε Unit × α × Nat

/-- The loop over a list, with early return. -/
def each (step : Step ε α) : Step ε (List α)
  | n, [] => (.ok (), [], n)
  | n, a :: as =>
    match step n a with
    | (.error e, a', n') => (.error e, a' :: as, n')
    | (.ok (), a', n') =>
      let rest := each step n' as
      (rest.1, a' :: rest.2.1, rest.2.2)

/-- The first job that fails is number `k` of `jobs`, which are numbered from `n`. -/
structure StopsAt (fails : Nat → J → Prop) (n : Nat) (jobs : List J) (k : Nat) : Prop where
  at_fails : ∃ job, jobs[k]? = some job ∧ fails (n + k) job
  before : ∀ i < k, ∀ job, jobs[i]? = some job → ¬fails (n + i) job

/-- No job fails. -/
def NoneFails (fails : Nat → J → Prop) (n : Nat) (jobs : List J) : Prop :=
  ∀ i job, jobs[i]? = some job → ¬fails (n + i) job

/-- The walk over a list has stopped within an element, related by `S`. Those before it are related
by `R`, and those after it are as they were. -/
def HaltedIn (R S : α → α → Prop) (as as' : List α) : Prop :=
  ∃ before before' a a' later, as = before ++ a :: later ∧ as' = before' ++ a' :: later ∧
    List.Forall₂ R before before' ∧ S a a'

/-- What a walk over an element has come to. Either all jobs are done, and the element is changed
to one related by `R`, or it has stopped at a job, and the element is related by `S`. The jobs from
there on are left, and the element is as before exactly if there was nothing before them. -/
inductive Walked (fails : Nat → J → Prop) (R S : α → α → Prop) (jobsOf : α → List J) (n : Nat)
    (a : α) : Except ε Unit × α × Nat → Prop
  | all (a' : α) (ok : NoneFails fails n (jobsOf a)) (rel : R a a') (left : jobsOf a' = [])
    (same : a' = a ↔ jobsOf a = []) :
    Walked fails R S jobsOf n a (.ok (), a', n + (jobsOf a).length)
  | stopped (e : ε) (a' : α) (n' k : Nat) (stops : StopsAt fails n (jobsOf a) k) (rel : S a a')
    (left : jobsOf a' = (jobsOf a).drop k) (same : a' = a ↔ k = 0) :
    Walked fails R S jobsOf n a (.error e, a', n')

variable {fails : Nat → J → Prop} {R S : α → α → Prop} {jobs more : List J} {n k : Nat}

theorem noneFails_singleton {job : J} : NoneFails fails n [job] ↔ ¬fails n job := by
  constructor
  · intro h
    exact h 0 job rfl
  · intro h i job' hi
    rw [List.getElem?_singleton] at hi
    split at hi
    · subst i
      cases hi
      exact h
    · cases hi

theorem NoneFails.append (h : NoneFails fails n jobs)
    (h' : NoneFails fails (n + jobs.length) more) : NoneFails fails n (jobs ++ more) := by
  intro i job hi
  rw [List.getElem?_append] at hi
  split at hi
  · exact h i job hi
  case isFalse hlt =>
    have hnum : n + i = n + jobs.length + (i - jobs.length) := by omega
    rw [hnum]
    exact h' _ job hi

theorem StopsAt.lt (h : StopsAt fails n jobs k) : k < jobs.length := by
  obtain ⟨job, hjob, -⟩ := h.at_fails
  exact (List.getElem?_eq_some_iff.1 hjob).1

theorem StopsAt.append_right (h : StopsAt fails n jobs k) (more : List J) :
    StopsAt fails n (jobs ++ more) k := by
  obtain ⟨job, hjob, hfails⟩ := h.at_fails
  refine ⟨⟨job, by rw [List.getElem?_append_left h.lt, hjob], hfails⟩, fun i hi job' hjob' => ?_⟩
  rw [List.getElem?_append_left (by have := h.lt; omega)] at hjob'
  exact h.before i hi job' hjob'

theorem StopsAt.append_left (h : NoneFails fails n jobs)
    (h' : StopsAt fails (n + jobs.length) more k) :
    StopsAt fails n (jobs ++ more) (jobs.length + k) := by
  obtain ⟨job, hjob, hfails⟩ := h'.at_fails
  refine ⟨⟨job, ?_, by rwa [← Nat.add_assoc]⟩, fun i hi job' hjob' => ?_⟩
  · rwa [List.getElem?_append_right (by omega), Nat.add_sub_cancel_left]
  · rw [List.getElem?_append] at hjob'
    split at hjob'
    · exact h i job' hjob'
    case isFalse hlt =>
      have hnum : n + i = n + jobs.length + (i - jobs.length) := by omega
      rw [hnum]
      exact h'.before _ (by omega) job' hjob'

theorem each_cons_error {step : Step ε α} (h : step n a = (.error e, a', n')) (as : List α) :
    each step n (a :: as) = (.error e, a' :: as, n') := by
  rw [each, h]

theorem each_cons_ok {step : Step ε α} (h : step n a = (.ok (), a', n'))
    (hrest : each step n' as = (outcome, as', n'')) :
    each step n (a :: as) = (outcome, a' :: as', n'') := by
  simp only [each, h, hrest]

/-- A walk over a list does the jobs of its elements one after another. -/
theorem Walked.each {step : Step ε α} {jobsOf : α → List J}
    (hstep : ∀ n a, Walked fails R S jobsOf n a (step n a)) (n : Nat) (as : List α) :
    Walked fails (List.Forall₂ R) (HaltedIn R S) (List.flatMap jobsOf) n as (each step n as) := by
  induction as generalizing n with
  | nil => exact .all [] (by simp [NoneFails]) .nil rfl (by simp)
  | cons a as ih =>
    generalize hout : step n a = out
    have ha := hstep n a
    rw [hout] at ha
    cases ha with
    | stopped e a' n' k stops rel left same =>
      rw [each_cons_error hout]
      refine .stopped e (a' :: as) n' k ?_ ?_ ?_ (by simpa using same)
      · exact stops.append_right _
      · exact ⟨[], [], a, a', as, rfl, rfl, .nil, rel⟩
      · rw [List.flatMap_cons, List.flatMap_cons, left,
          List.drop_append_of_le_length (Nat.le_of_lt stops.lt)]
    | all a' ok rel left same =>
      generalize hrest : InPlace.each step (n + (jobsOf a).length) as = rest
      have has := ih (n + (jobsOf a).length)
      rw [hrest] at has
      cases has with
      | all as' ok' rel' left' same' =>
        rw [each_cons_ok hout hrest, Nat.add_assoc, ← List.length_append]
        refine .all (a' :: as') (ok.append ok') (.cons rel rel') ?_ ?_
        · rw [List.flatMap_cons, left, left']
          rfl
        · rw [List.cons.injEq, same, same', List.flatMap_cons, List.append_eq_nil_iff]
      | stopped e as' n' k stops rel' left' same' =>
        rw [each_cons_ok hout hrest]
        refine .stopped e (a' :: as') n' _ (.append_left ok stops) ?_ ?_ ?_
        · obtain ⟨before, before', b, b', later, rfl, rfl, hbefore, hb⟩ := rel'
          exact ⟨a :: before, a' :: before', b, b', later, rfl, rfl, .cons rel hbefore, hb⟩
        · rw [List.flatMap_cons, List.flatMap_cons, left, left', List.drop_length_add_append]
          rfl
        · rw [List.cons.injEq, same, same', Nat.add_eq_zero_iff, List.length_eq_zero_iff]

/-- A walk may be made over a part of a larger value. -/
theorem Walked.within (get : β → α) (set : α → β → β) {R' S' : β → β → Prop}
    {jobsOf : α → List J} {jobsOf' : β → List J} {out : Except ε Unit × α × Nat} {b : β}
    (h : Walked fails R S jobsOf n (get b) out) (hrel : ∀ a, R (get b) a → R' b (set a b))
    (hpart : ∀ a, S (get b) a → S' b (set a b)) (hset : ∀ a, set a b = b ↔ a = get b)
    (hjobs : ∀ a, jobsOf' (set a b) = jobsOf a) :
    Walked fails R' S' jobsOf' n b (out.1, set out.2.1 b, out.2.2) := by
  have hb : jobsOf' b = jobsOf (get b) := by
    have hself : set (get b) b = b := (hset _).2 rfl
    rw [← hjobs, hself]
  cases h with
  | all a' ok rel left same =>
    rw [← hb] at ok same ⊢
    exact .all _ ok (hrel a' rel) ((hjobs a').trans left) ((hset a').trans same)
  | stopped e a' n' k stops rel left same =>
    rw [← hb] at stops left
    exact .stopped e _ n' k stops (hpart a' rel) ((hjobs a').trans left) ((hset a').trans same)

/-- The first job fails. -/
def FirstFails (fails : Nat → J → Prop) (n : Nat) (jobs : List J) : Prop :=
  ∃ job, jobs.head? = some job ∧ fails n job

theorem StopsAt.firstFails_iff (h : StopsAt fails n jobs k) : FirstFails fails n jobs ↔ k = 0 := by
  rw [FirstFails, List.head?_eq_getElem?]
  constructor
  · rintro ⟨job, hjob, hfails⟩
    by_contra hk
    exact h.before 0 (Nat.pos_of_ne_zero hk) job hjob hfails
  · rintro rfl
    exact h.at_fails

theorem StopsAt.not_noneFails (h : StopsAt fails n jobs k) : ¬NoneFails fails n jobs := by
  intro hnone
  obtain ⟨job, hjob, hfails⟩ := h.at_fails
  exact hnone k job hjob hfails

/-- A walk does everything or changes nothing exactly if no job fails, or the first one does. -/
theorem Walked.allOrNothing_iff {jobsOf : α → List J} {out : Except ε Unit × α × Nat} {a : α}
    (h : Walked fails R S jobsOf n a out) :
    ((out.1 = .ok () → R a out.2.1) ∧ ∀ e, out.1 = .error e → out.2.1 = a) ↔
      NoneFails fails n (jobsOf a) ∨ FirstFails fails n (jobsOf a) := by
  cases h with
  | all a' ok rel left same => exact iff_of_true ⟨fun _ => rel, fun e he => by cases he⟩ (.inl ok)
  | stopped e a' n' k stops rel left same =>
    rw [or_iff_right stops.not_noneFails, stops.firstFails_iff, ← same]
    constructor
    · rintro ⟨-, herr⟩
      exact herr e rfl
    · intro ha
      exact ⟨fun hok => (by cases hok), fun _ _ => ha⟩

/-- A walk that fails has stopped at the first job that does. -/
theorem Walked.of_error {jobsOf : α → List J} {out : Except ε Unit × α × Nat} {a : α} {e : ε}
    (h : Walked fails R S jobsOf n a out) (he : out.1 = .error e) :
    ∃ k, StopsAt fails n (jobsOf a) k ∧ S a out.2.1 ∧ jobsOf out.2.1 = (jobsOf a).drop k ∧
      (out.2.1 = a ↔ k = 0) := by
  cases h with
  | all => cases he
  | stopped e' a' n' k stops rel left same => exact ⟨k, stops, rel, left, same⟩

theorem Walked.of_ok {jobsOf : α → List J} {out : Except ε Unit × α × Nat} {a : α}
    (h : Walked fails R S jobsOf n a out) (hok : out.1 = .ok ()) : R a out.2.1 := by
  cases h with
  | all a' ok rel => exact rel
  | stopped => cases hok

end Tako.InPlace
