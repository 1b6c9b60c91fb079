import Mathlib.Data.Nat.Find
import Mathlib.Data.Set.Basic

/-!
# Spans kept from left to right

Spans may overlap. A sweep from the left keeps a span if it does not touch what it has kept before,
of those that start at one place the longest. What it drops may stick out of what it keeps. `Cut`
are the places where the sweep can stop: no span crosses them, or they end a longest span that
starts at a cut. The sweep covers all spans exactly if at no cut an edge is left over (`Frayed`).
-/

structure Span where
  start : Nat
  stop : Nat
  lt : start < stop

namespace Span

def Covers (s : Span) (x : Nat) : Prop := s.start ≤ x ∧ x < s.stop

def Crosses (s : Span) (x : Nat) : Prop := s.start < x ∧ x < s.stop

theorem Crosses.covers {s : Span} (h : s.Crosses x) : s.Covers x := ⟨Nat.le_of_lt h.1, h.2⟩

theorem covers_start (s : Span) : s.Covers s.start := ⟨Nat.le_refl _, s.lt⟩

/-- What covers a place starts there, or crosses it. -/
theorem Covers.start_eq {s : Span} (h : s.Covers x) (hx : ¬s.Crosses x) : s.start = x :=
  Nat.le_antisymm h.1 (Nat.not_lt.1 fun hlt => hx ⟨hlt, h.2⟩)

/-! ## What is kept -/

def Longest (M : Set Span) (s : Span) : Prop := ∀ t ∈ M, t.start = s.start → t.stop ≤ s.stop

structure Greedy (M K : Set Span) : Prop where
  subset : K ⊆ M
  unique : ∀ s ∈ K, ∀ t ∈ K, ∀ x, s.Covers x → t.Covers x → s = t
  longest : ∀ s ∈ K, Longest M s
  blocked : ∀ m ∈ M, ∃ k ∈ K, k.Covers m.start

/-- The places where a sweep can stop. -/
inductive Cut (M : Set Span) : Nat → Prop where
  | free : (∀ m ∈ M, ¬m.Crosses x) → Cut M x
  | next : Cut M m.start → m ∈ M → Longest M m → Cut M m.stop

/-- A cut that a span crosses, where no span starts. -/
structure Frayed (M : Set Span) (x : Nat) : Prop where
  cut : Cut M x
  crossed : ∃ m ∈ M, m.Crosses x
  bare : ∀ m ∈ M, m.start ≠ x

namespace Greedy

variable {M K : Set Span}

theorem not_crosses_stop (h : Greedy M K) {k : Span} (hk : k ∈ K) :
    ∀ t ∈ K, ¬t.Crosses k.stop := by
  intro t ht hcross
  have hlt := k.lt
  obtain rfl : t = k := h.unique t ht k hk (k.stop - 1)
    ⟨Nat.le_sub_one_of_lt hcross.1, Nat.lt_of_le_of_lt (Nat.sub_le _ _) hcross.2⟩
    ⟨by omega, by omega⟩
  exact Nat.lt_irrefl _ hcross.2

theorem not_crosses (h : Greedy M K) (hx : Cut M x) : ∀ k ∈ K, ¬k.Crosses x := by
  induction hx with
  | free hfree => exact fun k hk => hfree k (h.subset hk)
  | @next m _ hm hlong ih =>
    -- The longest span at the cut before is the one that is kept.
    obtain ⟨s, hs, hcovers⟩ := h.blocked m hm
    have hstart : s.start = m.start := hcovers.start_eq (ih s hs)
    have hstop : s.stop = m.stop :=
      Nat.le_antisymm (hlong s (h.subset hs) hstart) (h.longest s hs m hm hstart.symm)
    exact hstop ▸ h.not_crosses_stop hs

theorem start_eq (h : Greedy M K) (hx : Cut M x) {k : Span} (hk : k ∈ K) (hc : k.Covers x) :
    k.start = x := hc.start_eq (h.not_crosses hx k hk)

/-- From a span that is kept on, what is kept follows a span that sticks out. -/
theorem walk (h : Greedy M K) (hM : ∀ x, ¬Frayed M x) {m : Span} (hm : m ∈ M) (hy : y < m.stop)
    (n : Nat) {s : Span} (hs : s ∈ K) (hcut : Cut M s.start) (hms : m.start < s.stop)
    (hsy : s.stop ≤ y) (hn : y - s.stop < n) : ∃ k ∈ K, k.Covers y ∧ Cut M k.start := by
  induction n generalizing s with
  | zero => exact absurd hn (Nat.not_lt_zero _)
  | succ n ih =>
    have hstop : Cut M s.stop := .next hcut (h.subset hs) (h.longest s hs)
    have hcross : m.Crosses s.stop := ⟨hms, Nat.lt_of_le_of_lt hsy hy⟩
    have hbare : ∃ t ∈ M, t.start = s.stop := by
      by_contra hno
      exact hM _ ⟨hstop, ⟨m, hm, hcross⟩, fun t ht hts => hno ⟨t, ht, hts⟩⟩
    obtain ⟨t, ht, hts⟩ := hbare
    obtain ⟨k, hk, hcovers⟩ := h.blocked t ht
    have hstart : k.start = s.stop := h.start_eq hstop hk (hts ▸ hcovers)
    have hlt := k.lt
    by_cases hky : y < k.stop
    · exact ⟨k, hk, ⟨hstart ▸ hsy, hky⟩, hstart ▸ hstop⟩
    · exact ih hk (hstart ▸ hstop) (by omega) (by omega) (by omega)

theorem cut_start (h : Greedy M K) (hM : ∀ x, ¬Frayed M x) (n : Nat) {k : Span} (hk : k ∈ K)
    (hn : k.start < n) : Cut M k.start := by
  induction n generalizing k with
  | zero => exact absurd hn (Nat.not_lt_zero _)
  | succ n ih =>
    by_cases hfree : ∀ m ∈ M, ¬m.Crosses k.start
    · exact .free hfree
    · simp only [not_forall, not_not] at hfree
      obtain ⟨m, hm, hcross⟩ := hfree
      obtain ⟨s, hs, hcovers⟩ := h.blocked m hm
      have hlt : s.start < k.start := Nat.lt_of_le_of_lt hcovers.1 hcross.1
      have hstop : s.stop ≤ k.start := by
        by_contra hgt
        obtain rfl : s = k := h.unique s hs k hk k.start
          ⟨Nat.le_of_lt hlt, Nat.not_le.1 hgt⟩ k.covers_start
        exact Nat.lt_irrefl _ hlt
      obtain ⟨k', hk', hcovers', hcut⟩ := h.walk hM hm hcross.2 _ hs
        (ih hs (Nat.lt_of_lt_of_le hlt (Nat.le_of_lt_succ hn))) hcovers.2 hstop (Nat.lt_succ_self _)
      obtain rfl : k' = k := h.unique k' hk' k hk _ hcovers' k.covers_start
      exact hcut

/-- All that is covered stays covered exactly if no cut is frayed. -/
theorem covers_iff (h : Greedy M K) :
    (∀ m ∈ M, ∀ x, m.Covers x → ∃ k ∈ K, k.Covers x) ↔ ∀ x, ¬Frayed M x := by
  constructor
  · intro hcov x hx
    obtain ⟨m, hm, hcross⟩ := hx.crossed
    obtain ⟨k, hk, hcovers⟩ := hcov m hm x hcross.covers
    exact hx.bare k (h.subset hk) (h.start_eq hx.cut hk hcovers)
  · intro hM m hm x hx
    obtain ⟨s, hs, hcovers⟩ := h.blocked m hm
    by_cases hsx : x < s.stop
    · exact ⟨s, hs, Nat.le_trans hcovers.1 hx.1, hsx⟩
    · obtain ⟨k, hk, hkx, -⟩ := h.walk hM hm hx.2 _ hs
        (h.cut_start hM _ hs (Nat.lt_succ_self _)) hcovers.2 (Nat.not_lt.1 hsx) (Nat.lt_succ_self _)
      exact ⟨k, hk, hkx⟩

end Greedy

/-! ## Single places -/

/-- The places where the sweep goes on: the first, and the end of the longest of the spans that
come next. -/
inductive Stop (M : Set Span) : Nat → Prop where
  | zero : Stop M 0
  | next : Stop M p → m ∈ M → p ≤ m.start → (∀ t ∈ M, p ≤ t.start → m.start ≤ t.start) →
    Longest M m → Stop M m.stop

/-- The sweep stops within a span that covers the place, and no span starts from there up to it. -/
def Clipped (M : Set Span) (x : Nat) : Prop :=
  ∃ p, Stop M p ∧ p ≤ x ∧ (∃ m ∈ M, m.start < p ∧ m.Covers x) ∧
    ∀ m ∈ M, ¬(p ≤ m.start ∧ m.start ≤ x)

namespace Greedy

variable {M K : Set Span}

/-- What is kept where the longest span is among those that come next. -/
theorem exists_next (h : Greedy M K) (hp : ∀ k ∈ K, ¬k.Crosses p) (hm : m ∈ M)
    (hle : p ≤ m.start) (hfirst : ∀ t ∈ M, p ≤ t.start → m.start ≤ t.start) :
    ∃ k ∈ K, k.start = m.start ∧ m.stop ≤ k.stop := by
  obtain ⟨k, hk, hcovers⟩ := h.blocked m hm
  have hpk : p ≤ k.start := by
    by_contra hlt
    exact hp k hk ⟨Nat.not_le.1 hlt, Nat.lt_of_le_of_lt hle hcovers.2⟩
  have hstart : k.start = m.start := Nat.le_antisymm hcovers.1 (hfirst k (h.subset hk) hpk)
  exact ⟨k, hk, hstart, h.longest k hk m hm hstart.symm⟩

theorem not_crosses_of_stop (h : Greedy M K) (hp : Stop M p) : ∀ k ∈ K, ¬k.Crosses p := by
  induction hp with
  | zero => exact fun k _ hcross => Nat.not_lt_zero _ hcross.1
  | @next p m _ hm hle hfirst hlong ih =>
    obtain ⟨k, hk, hstart, hstop⟩ := h.exists_next ih hm hle hfirst
    have heq : k.stop = m.stop := Nat.le_antisymm (hlong k (h.subset hk) hstart) hstop
    exact heq ▸ h.not_crosses_stop hk

/-- If a place is not covered, the sweep stops before it and finds nothing up to it. -/
theorem exists_stop (h : Greedy M K) (hx : ∀ k ∈ K, ¬k.Covers x) (n : Nat) (hp : Stop M p)
    (hpx : p ≤ x) (hn : x - p < n) :
    ∃ p, p ≤ x ∧ Stop M p ∧ ∀ m ∈ M, p ≤ m.start → x < m.start := by
  induction n generalizing p with
  | zero => exact absurd hn (Nat.not_lt_zero _)
  | succ n ih =>
    by_cases hnone : ∀ m ∈ M, p ≤ m.start → x < m.start
    · exact ⟨p, hpx, hp, hnone⟩
    · simp only [not_forall, not_lt] at hnone
      obtain ⟨m, hm, hle, hmx⟩ := hnone
      -- Of the spans from `p` on, one starts first.
      classical
      have hex : ∃ i, ∃ t ∈ M, p ≤ t.start ∧ t.start = i := ⟨m.start, m, hm, hle, rfl⟩
      obtain ⟨t, ht, hpt, hi⟩ := Nat.find_spec hex
      have hfirst (s : Span) (hs : s ∈ M) (hps : p ≤ s.start) : t.start ≤ s.start :=
        hi ▸ Nat.find_le ⟨s, hs, hps, rfl⟩
      obtain ⟨k, hk, hstart, -⟩ :=
        h.exists_next (h.not_crosses_of_stop hp) ht hpt hfirst
      have hstop : k.stop ≤ x := by
        by_contra hlt
        exact hx k hk ⟨hstart ▸ Nat.le_trans (hfirst m hm hle) hmx, Nat.not_le.1 hlt⟩
      have hlt := k.lt
      refine ih (.next hp (h.subset hk) (hstart ▸ hpt) ?_ (h.longest k hk)) hstop (by omega)
      exact hstart ▸ hfirst

/-- A place is covered exactly if a span starts between it and each stop before it. -/
theorem covered_iff (h : Greedy M K) (x : Nat) :
    (∃ k ∈ K, k.Covers x) ↔ ∀ p, p ≤ x → Stop M p → ∃ m ∈ M, p ≤ m.start ∧ m.start ≤ x := by
  constructor
  · rintro ⟨k, hk, hcovers⟩ p hpx hp
    refine ⟨k, h.subset hk, ?_, hcovers.1⟩
    by_contra hlt
    exact h.not_crosses_of_stop hp k hk
      ⟨Nat.not_le.1 hlt, Nat.lt_of_le_of_lt hpx hcovers.2⟩
  · intro hall
    by_contra hx
    simp only [not_exists, not_and] at hx
    obtain ⟨p, hpx, hp, hnone⟩ := h.exists_stop hx _ .zero (Nat.zero_le x) (Nat.lt_succ_self _)
    obtain ⟨m, hm, hle, hmx⟩ := hall p hpx hp
    exact Nat.not_lt.2 hmx (hnone m hm hle)

/-- What is covered stays covered exactly if it is not clipped. -/
theorem covered_iff_not_clipped (h : Greedy M K) (x : Nat) :
    (∃ k ∈ K, k.Covers x) ↔ (∃ m ∈ M, m.Covers x) ∧ ¬Clipped M x := by
  constructor
  · rintro ⟨k, hk, hcovers⟩
    refine ⟨⟨k, h.subset hk, hcovers⟩, ?_⟩
    rintro ⟨p, hp, hpx, -, hnone⟩
    obtain ⟨m, hm, hstart⟩ := (h.covered_iff x).1 ⟨k, hk, hcovers⟩ p hpx hp
    exact hnone m hm hstart
  · rintro ⟨⟨m, hm, hcovers⟩, hclipped⟩
    refine (h.covered_iff x).2 fun p hpx hp => ?_
    by_contra hnone
    have hlt : m.start < p := Nat.not_le.1 fun hle => hnone ⟨m, hm, hle, hcovers.1⟩
    exact hclipped ⟨p, hp, hpx, ⟨m, hm, hlt, hcovers⟩, fun t ht hstart => hnone ⟨t, ht, hstart⟩⟩

end Greedy

/-! ## The sweep -/

section Scan

variable {α : Type*} (span : α → Span)

/-- Of a sorted list, keeps what starts at the cursor or after it. -/
def scan : Nat → List α → List α
  | _, [] => []
  | cursor, a :: l =>
    if cursor ≤ (span a).start then a :: scan (span a).stop l else scan cursor l

/-- The order of the sweep. -/
def Before (s t : Span) : Prop := s.start < t.start ∨ s.start = t.start ∧ t.stop ≤ s.stop

variable {span}

theorem scan_sublist (cursor : Nat) (l : List α) : (scan span cursor l).Sublist l := by
  induction l generalizing cursor with
  | nil => exact .slnil
  | cons a l ih =>
    unfold scan
    split
    · exact (ih _).cons_cons a
    · exact (ih _).cons a

theorem le_start_of_mem_scan {l : List α} (h : k ∈ scan span cursor l) :
    cursor ≤ (span k).start := by
  induction l generalizing cursor with
  | nil => cases h
  | cons a l ih =>
    unfold scan at h
    split at h
    · next hle =>
      obtain rfl | h := List.mem_cons.1 h
      · exact hle
      · exact Nat.le_trans hle (Nat.le_trans (Nat.le_of_lt (span a).lt) (ih h))
    · exact ih h

theorem pairwise_scan (cursor : Nat) (l : List α) :
    (scan span cursor l).Pairwise fun a b => (span a).stop ≤ (span b).start := by
  induction l generalizing cursor with
  | nil => exact .nil
  | cons a l ih =>
    unfold scan
    split
    · exact .cons (fun b hb => le_start_of_mem_scan hb) (ih _)
    · exact ih _

theorem exists_mem_scan {l : List α} (hl : l.Pairwise fun a b => Before (span a) (span b))
    (hm : m ∈ l) (hc : cursor ≤ (span m).start) :
    ∃ k ∈ scan span cursor l, (span k).Covers (span m).start := by
  induction hl generalizing cursor with
  | nil => cases hm
  | @cons a l hbefore _ ih =>
    unfold scan
    obtain rfl | hm := List.mem_cons.1 hm
    · rw [if_pos hc]
      exact ⟨m, List.mem_cons_self, covers_start _⟩
    · split
      · by_cases hstop : (span m).start < (span a).stop
        · have hle : (span a).start ≤ (span m).start :=
            (hbefore m hm).elim Nat.le_of_lt fun h => Nat.le_of_eq h.1
          exact ⟨a, List.mem_cons_self, hle, hstop⟩
        · obtain ⟨k, hk, hcovers⟩ := ih hm (Nat.not_lt.1 hstop)
          exact ⟨k, List.mem_cons_of_mem _ hk, hcovers⟩
      · exact ih hm hc

theorem longest_of_mem_scan {l : List α} (hl : l.Pairwise fun a b => Before (span a) (span b))
    (hk : k ∈ scan span cursor l) (ht : t ∈ l) (hstart : (span t).start = (span k).start) :
    (span t).stop ≤ (span k).stop := by
  induction hl generalizing cursor with
  | nil => cases ht
  | @cons a l hbefore _ ih =>
    unfold scan at hk
    split at hk
    · obtain rfl | hk := List.mem_cons.1 hk
      · obtain rfl | ht := List.mem_cons.1 ht
        · exact Nat.le_refl _
        · exact (hbefore t ht).elim (fun h => absurd hstart.symm (Nat.ne_of_lt h)) And.right
      · obtain rfl | ht := List.mem_cons.1 ht
        · have := le_start_of_mem_scan hk
          have := (span t).lt
          omega
        · exact ih hk ht
    · next hlt =>
      obtain rfl | ht := List.mem_cons.1 ht
      · exact absurd (hstart ▸ le_start_of_mem_scan hk) hlt
      · exact ih hk ht

/-- Spans that do not overlap are told apart by what they cover. -/
theorem eq_of_covers {l : List α} (hl : l.Pairwise fun a b => (span a).stop ≤ (span b).start)
    (ha : a ∈ l) (hb : b ∈ l) (hax : (span a).Covers x) (hbx : (span b).Covers x) : a = b := by
  induction hl with
  | nil => cases ha
  | @cons c l hc _ ih =>
    obtain rfl | hal := List.mem_cons.1 ha
    · obtain rfl | hbl := List.mem_cons.1 hb
      · rfl
      · exact absurd (Nat.lt_of_lt_of_le hax.2 (Nat.le_trans (hc b hbl) hbx.1)) (Nat.lt_irrefl x)
    · obtain rfl | hbl := List.mem_cons.1 hb
      · exact absurd (Nat.lt_of_lt_of_le hbx.2 (Nat.le_trans (hc a hal) hax.1)) (Nat.lt_irrefl x)
      · exact ih hal hbl

theorem greedy_scan {l : List α} (hl : l.Pairwise fun a b => Before (span a) (span b)) :
    Greedy {s | ∃ a ∈ l, span a = s} {s | ∃ a ∈ scan span 0 l, span a = s} where
  subset := fun _ ⟨a, ha, hs⟩ => ⟨a, (scan_sublist 0 l).subset ha, hs⟩
  unique := by
    rintro _ ⟨a, ha, rfl⟩ _ ⟨b, hb, rfl⟩ x hax hbx
    rw [eq_of_covers (pairwise_scan 0 l) ha hb hax hbx]
  longest := by
    rintro _ ⟨a, ha, rfl⟩ _ ⟨b, hb, rfl⟩ hstart
    exact longest_of_mem_scan hl ha hb hstart
  blocked := by
    rintro _ ⟨m, hm, rfl⟩
    obtain ⟨k, hk, hcovers⟩ := exists_mem_scan hl hm (Nat.zero_le _)
    exact ⟨span k, ⟨k, hk, rfl⟩, hcovers⟩

end Scan

end Span
