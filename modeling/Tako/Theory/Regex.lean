import Mathlib.Data.List.Basic

/-!
# Regular expressions with text anchors

An expression matches a part of a text *in context*: `Spans r a m b` says that `r` matches `m`
where `a` stands before it and `b` after it. The anchors look at the context only. Search asks
for some part of the text, a whole match for all of it. `Covers` says when the two agree: every
part that matches can be grown to the whole text.
-/

namespace Regex

/-- Expressions. `start` and `stop` are the anchors `^` and `$`, outside multi-line mode. -/
inductive Pat (α : Type u)
  | eps
  | satisfy (p : α → Bool)
  | start
  | stop
  | cat (r s : Pat α)
  | alt (r s : Pat α)
  | star (r : Pat α)

/-- `r` matches `m` between `a` and `b`. -/
inductive Spans : Pat α → List α → List α → List α → Prop
  | eps : Spans .eps a [] b
  | satisfy : p c = true → Spans (.satisfy p) a [c] b
  | start : Spans .start [] [] b
  | stop : Spans .stop a [] []
  | cat : Spans r a m (n ++ b) → Spans s (a ++ m) n b → Spans (.cat r s) a (m ++ n) b
  | altLeft : Spans r a m b → Spans (.alt r s) a m b
  | altRight : Spans s a m b → Spans (.alt r s) a m b
  | starNil : Spans (.star r) a [] b
  | starCons : Spans r a m (n ++ b) → Spans (.star r) (a ++ m) n b →
    Spans (.star r) a (m ++ n) b

@[simp] theorem spans_eps : Spans .eps a m b ↔ m = [] := by
  constructor
  · rintro ⟨⟩
    rfl
  · rintro rfl
    exact .eps

@[simp] theorem spans_satisfy : Spans (.satisfy p) a m b ↔ ∃ c, m = [c] ∧ p c = true := by
  constructor
  · intro h
    cases h with
    | satisfy hp => exact ⟨_, rfl, hp⟩
  · rintro ⟨c, rfl, hp⟩
    exact .satisfy hp

@[simp] theorem spans_start : Spans .start a m b ↔ a = [] ∧ m = [] := by
  constructor
  · rintro ⟨⟩
    exact ⟨rfl, rfl⟩
  · rintro ⟨rfl, rfl⟩
    exact .start

@[simp] theorem spans_stop : Spans .stop a m b ↔ m = [] ∧ b = [] := by
  constructor
  · rintro ⟨⟩
    exact ⟨rfl, rfl⟩
  · rintro ⟨rfl, rfl⟩
    exact .stop

@[simp] theorem spans_cat :
    Spans (.cat r s) a l b ↔ ∃ m n, l = m ++ n ∧ Spans r a m (n ++ b) ∧ Spans s (a ++ m) n b := by
  constructor
  · intro h
    cases h with
    | cat hm hn => exact ⟨_, _, rfl, hm, hn⟩
  · rintro ⟨m, n, rfl, hm, hn⟩
    exact .cat hm hn

@[simp] theorem spans_alt : Spans (.alt r s) a m b ↔ Spans r a m b ∨ Spans s a m b := by
  constructor
  · intro h
    cases h with
    | altLeft h => exact .inl h
    | altRight h => exact .inr h
  · rintro (h | h)
    · exact .altLeft h
    · exact .altRight h

/-! ## Matching -/

/-- Up to `fuel` nonempty rounds of a matcher. -/
def starEnds (f : List α → List α → List (List α × List α)) :
    Nat → List α → List α → List (List α × List α)
  | 0, _, t => [([], t)]
  | fuel + 1, a, t => ([], t) :: (f a t).flatMap fun (m, b) =>
    if m.isEmpty then [] else (starEnds f fuel (a ++ m) b).map fun (n, c) => (m ++ n, c)

/-- The matches at the front of `t`, where `a` stands before it: the matched part and the rest. -/
def ends : Pat α → List α → List α → List (List α × List α)
  | .eps, _, t => [([], t)]
  | .satisfy _, _, [] => []
  | .satisfy p, _, c :: t => if p c then [([c], t)] else []
  | .start, a, t => if a.isEmpty then [([], t)] else []
  | .stop, _, t => if t.isEmpty then [([], [])] else []
  | .cat r s, a, t => (ends r a t).flatMap fun (m, b) =>
    (ends s (a ++ m) b).map fun (n, c) => (m ++ n, c)
  | .alt r s, a, t => ends r a t ++ ends s a t
  | .star r, a, t => starEnds (ends r) t.length a t

/-- Whether some part of the text matches. -/
def isMatch (r : Pat α) (t : List α) : Bool :=
  (List.range (t.length + 1)).any fun i => !(ends r (t.take i) (t.drop i)).isEmpty

theorem Spans.starEnds (hf : ∀ a t m b, t = m ++ b → Spans r a m b → (m, b) ∈ f a t)
    (h : Spans (.star r) a m b) : ∀ fuel, m.length ≤ fuel →
      (m, b) ∈ Regex.starEnds f fuel a (m ++ b) := by
  generalize hs : Pat.star r = s at h
  induction h with
  | eps | satisfy | start | stop | cat | altLeft | altRight => cases hs
  | starNil =>
    intro fuel _
    cases fuel <;> simp [Regex.starEnds]
  | @starCons r' a m n b hm _ _ ih =>
    cases hs
    intro fuel hfuel
    rcases Decidable.eq_or_ne m [] with rfl | hne
    · -- an empty round adds nothing
      simpa using ih rfl fuel (by simpa using hfuel)
    have hpos : 0 < m.length := List.length_pos_iff.2 hne
    obtain ⟨fuel, rfl⟩ : ∃ k, fuel = k + 1 := ⟨fuel - 1, by rw [List.length_append] at hfuel; omega⟩
    refine List.mem_cons_of_mem _ (List.mem_flatMap.2 ⟨(m, n ++ b), ?_, ?_⟩)
    · exact hf _ _ _ _ (List.append_assoc ..) hm
    · have hrest : n.length ≤ fuel := by
        rw [List.length_append] at hfuel
        omega
      dsimp only
      rw [if_neg (by simpa using hne)]
      exact List.mem_map.2 ⟨(n, b), ih rfl fuel hrest, rfl⟩

theorem spans_of_mem_starEnds (hf : ∀ a t m b, (m, b) ∈ f a t → t = m ++ b ∧ Spans r a m b)
    (h : (m, b) ∈ starEnds f fuel a t) : t = m ++ b ∧ Spans (.star r) a m b := by
  induction fuel generalizing a t m with
  | zero =>
    obtain ⟨rfl, rfl⟩ : m = [] ∧ b = t := by simpa [starEnds] using h
    exact ⟨rfl, .starNil⟩
  | succ fuel ih =>
    rcases List.mem_cons.1 h with h | h
    · cases h
      exact ⟨rfl, .starNil⟩
    obtain ⟨⟨m₁, b₁⟩, h₁, h⟩ := List.mem_flatMap.1 h
    dsimp only at h
    split at h
    · exact absurd h List.not_mem_nil
    obtain ⟨⟨n, c⟩, hmem, heq⟩ := List.mem_map.1 h
    cases heq
    obtain ⟨rfl, hm⟩ := hf _ _ _ _ h₁
    obtain ⟨rfl, hn⟩ := ih hmem
    exact ⟨(List.append_assoc ..).symm, .starCons hm hn⟩

/-- The empty match leaves the whole text. -/
theorem empty_match {m b t : List α} : m = [] ∧ b = t ↔ t = m ++ b ∧ m = [] := by
  constructor
  · rintro ⟨rfl, rfl⟩
    exact ⟨rfl, rfl⟩
  · rintro ⟨rfl, rfl⟩
    exact ⟨rfl, rfl⟩

theorem mem_ends {r : Pat α} : (m, b) ∈ ends r a t ↔ t = m ++ b ∧ Spans r a m b := by
  induction r generalizing a t m b with
  | eps =>
    simp only [ends, List.mem_singleton, Prod.mk.injEq, spans_eps, empty_match]
  | satisfy p =>
    rw [spans_satisfy]
    cases t with
    | nil =>
      apply iff_of_false List.not_mem_nil
      rintro ⟨h, c, rfl, -⟩
      cases h
    | cons c t =>
      by_cases hp : p c = true
      · simp only [ends, hp, if_true, List.mem_singleton, Prod.mk.injEq]
        constructor
        · rintro ⟨rfl, rfl⟩
          exact ⟨rfl, c, rfl, hp⟩
        · rintro ⟨h, d, rfl, -⟩
          cases h
          exact ⟨rfl, rfl⟩
      · rw [ends, if_neg hp]
        apply iff_of_false List.not_mem_nil
        rintro ⟨h, d, rfl, hd⟩
        cases h
        exact hp hd
  | start =>
    rw [spans_start]
    cases a with
    | cons c a => simp [ends]
    | nil =>
      simp only [ends, List.isEmpty_nil, if_true, List.mem_singleton, Prod.mk.injEq, true_and,
        empty_match]
  | stop =>
    rw [spans_stop]
    cases t with
    | nil => simp [ends]
    | cons c t =>
      apply iff_of_false (by simp [ends])
      rintro ⟨h, rfl, rfl⟩
      cases h
  | cat r s ihr ihs =>
    simp only [ends, List.mem_flatMap, List.mem_map, Prod.exists, Prod.mk.injEq, ihr, ihs,
      spans_cat]
    constructor
    · rintro ⟨m, _, ⟨rfl, hm⟩, n, _, ⟨rfl, hn⟩, rfl, rfl⟩
      exact ⟨(List.append_assoc ..).symm, _, _, rfl, hm, hn⟩
    · rintro ⟨rfl, m, n, rfl, hm, hn⟩
      exact ⟨_, _, ⟨List.append_assoc .., hm⟩, _, _, ⟨rfl, hn⟩, rfl, rfl⟩
  | alt r s ihr ihs =>
    simp only [ends, List.mem_append, ihr, ihs, spans_alt, and_or_left]
  | star r ih =>
    constructor
    · exact spans_of_mem_starEnds fun _ _ _ _ => ih.1
    · rintro ⟨rfl, h⟩
      exact h.starEnds (fun _ _ _ _ ht hm => ih.2 ⟨ht, hm⟩) _ (by simp)

instance [DecidableEq α] {r : Pat α} : Decidable (Spans r a m b) :=
  decidable_of_iff ((m, b) ∈ ends r a (m ++ b)) (mem_ends.trans (and_iff_right rfl))

theorem isMatch_iff {r : Pat α} :
    isMatch r t = true ↔ ∃ a m b, t = a ++ m ++ b ∧ Spans r a m b := by
  rw [isMatch, List.any_eq_true]
  constructor
  · rintro ⟨i, -, h⟩
    obtain ⟨⟨m, b⟩, h⟩ := List.exists_mem_of_ne_nil _ (by simpa using h)
    obtain ⟨ht, h⟩ := mem_ends.1 h
    exact ⟨t.take i, m, b, by rw [List.append_assoc, ← ht, List.take_append_drop], h⟩
  · rintro ⟨a, m, b, rfl, h⟩
    refine ⟨a.length, List.mem_range.2 (by simp only [List.length_append]; omega), ?_⟩
    have hmem : (m, b) ∈ ends r a (m ++ b) := mem_ends.2 ⟨rfl, h⟩
    simpa using List.ne_nil_of_mem hmem

/-! ## Search and whole match -/

/-- Every part of a text that matches grows to a match of the whole text. -/
def Covers (spans : List α → List α → List α → Prop) : Prop :=
  ∀ a m b, spans a m b → spans [] (a ++ m ++ b) []

/-- An expression between the two anchors finds nothing but whole matches. -/
theorem covers_anchored (r : Pat α) : Covers (Spans (.cat .start (.cat r .stop))) := by
  intro a m b h
  simp only [spans_cat, spans_start, spans_stop] at h
  obtain ⟨_, _, rfl, ⟨rfl, rfl⟩, m, _, rfl, hm, rfl, rfl⟩ := h
  simpa using hm

end Regex
