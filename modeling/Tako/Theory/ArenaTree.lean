import Mathlib.Algebra.BigOperators.Group.Finset.Basic
import Mathlib.Data.Finset.Basic
import Mathlib.Logic.Relation
import Mathlib.Order.Interval.Finset.Nat

/-!
# Trees in an arena

The nodes of a tree are numbered in the order in which they were added, and each node lists the
numbers of its children. `Tally` says that a value kept at each node is the sum over the nodes of
its subtree; it is kept if the path to a new leaf is updated (`Tally.addLeaf`).
-/

namespace ArenaTree

variable {n : Nat} {children : Nat → List Nat}

/-- `n` nodes form a tree with root 0: each other node occurs once as a child, of a node with a
smaller number, and nothing else does. -/
structure Tree (n : Nat) (children : Nat → List Nat) : Prop where
  pos : 0 < n
  lt : ∀ q, ∀ c ∈ children q, q < c ∧ c < n
  parent : ∀ c, 0 < c → c < n → ∃ q, (children q).count c = 1 ∧ ∀ q', c ∈ children q' → q' = q

/-- A node or one of its descendants. -/
def Below (children : Nat → List Nat) : Nat → Nat → Prop :=
  Relation.ReflTransGen fun q c => c ∈ children q

/-- The tree with the new node `n` under `q`. -/
def addLeaf (n q : Nat) (children : Nat → List Nat) : Nat → List Nat :=
  Function.update children q (children q ++ [n])

theorem mem_addLeaf {q i c : Nat} :
    c ∈ addLeaf n q children i ↔ c ∈ children i ∨ i = q ∧ c = n := by
  unfold addLeaf
  by_cases hi : i = q
  · subst hi
    simp
  · simp [hi]

namespace Tree

theorem root : Tree 1 fun _ => [] where
  pos := Nat.one_pos
  lt _ _ hc := by cases hc
  parent c h0 h1 := by omega

theorem parent_unique (h : Tree n children) {c q q' : Nat} (hc : c ∈ children q)
    (hc' : c ∈ children q') : q = q' := by
  obtain ⟨hlt, hn⟩ := h.lt q c hc
  obtain ⟨r, -, hr⟩ := h.parent c (Nat.zero_lt_of_lt hlt) hn
  rw [hr q hc, hr q' hc']

theorem children_eq_nil (h : Tree n children) {q : Nat} (hq : n ≤ q) : children q = [] := by
  refine List.eq_nil_iff_forall_not_mem.2 fun c hc => ?_
  have := h.lt q c hc
  omega

theorem below_le (h : Tree n children) (hb : Below children i j) : i ≤ j := by
  induction hb with
  | refl => exact le_rfl
  | tail _ hc ih => exact ih.trans (h.lt _ _ hc).1.le

theorem addLeaf (h : Tree n children) (hq : q < n) : Tree (n + 1) (addLeaf n q children) where
  pos := Nat.succ_pos n
  lt i c hc := by
    rcases mem_addLeaf.1 hc with hc | ⟨rfl, rfl⟩
    · have := h.lt i c hc
      omega
    · omega
  parent c h0 hc := by
    rcases Nat.lt_succ_iff_lt_or_eq.1 hc with hc | rfl
    · obtain ⟨r, hcount, hr⟩ := h.parent c h0 hc
      refine ⟨r, ?_, fun q' hq' => ?_⟩
      · unfold ArenaTree.addLeaf
        by_cases hrq : r = q
        · subst hrq
          rw [Function.update_self, List.count_append, hcount, List.count_eq_zero_of_not_mem]
          simpa using hc.ne
        · rw [Function.update_of_ne hrq, hcount]
      · rcases mem_addLeaf.1 hq' with hq' | ⟨-, rfl⟩
        · exact hr q' hq'
        · exact absurd hc (lt_irrefl _)
    · have hnot : ∀ r, c ∉ children r := fun r hr => lt_irrefl _ (h.lt r c hr).2
      refine ⟨q, ?_, fun q' hq' => ?_⟩
      · unfold ArenaTree.addLeaf
        rw [Function.update_self, List.count_append, List.count_eq_zero_of_not_mem (hnot q)]
        simp
      · rcases mem_addLeaf.1 hq' with hq' | ⟨rfl, -⟩
        · exact absurd hq' (hnot q')
        · rfl

/-- The old part of the tree is as before. -/
theorem below_addLeaf (h : Tree n children) (hj : j ≠ n) :
    Below (ArenaTree.addLeaf n q children) i j ↔ Below children i j := by
  constructor
  · intro hb
    induction hb with
    | refl => exact .refl
    | @tail k c hk hc' ih =>
      rcases mem_addLeaf.1 hc' with hc | ⟨-, rfl⟩
      · refine .tail (ih ?_) hc
        rintro rfl
        rw [h.children_eq_nil le_rfl] at hc
        cases hc
      · exact absurd rfl hj
  · exact fun hb => Relation.ReflTransGen.mono (fun _ _ hc => mem_addLeaf.2 (.inl hc)) _ _ hb

/-- Above the new leaf are the nodes above its parent. -/
theorem below_addLeaf_leaf (h : Tree n children) (hq : q < n) :
    Below (ArenaTree.addLeaf n q children) i n ↔ i = n ∨ Below children i q := by
  rw [Below, Relation.ReflTransGen.cases_tail_iff]
  refine or_congr eq_comm ⟨?_, fun hb => ?_⟩
  · rintro ⟨k, hk, hc⟩
    rcases mem_addLeaf.1 hc with hc | ⟨rfl, -⟩
    · exact absurd (h.lt k n hc).2 (lt_irrefl n)
    · exact (h.below_addLeaf hq.ne).1 hk
  · exact ⟨q, (h.below_addLeaf hq.ne).2 hb, mem_addLeaf.2 (.inr ⟨rfl, rfl⟩)⟩

end Tree

/-! ## Paths from the root -/

/-- The nodes passed on the way from the root to a node. -/
inductive Path (children : Nat → List Nat) : List Nat → Nat → Prop
  | root : Path children [0] 0
  | push : Path children l q → c ∈ children q → Path children (l ++ [c]) c

namespace Path

theorem lt (h : Tree n children) (hp : Path children l q) : q < n := by
  cases hp with
  | root => exact h.pos
  | push _ hc => exact (h.lt _ _ hc).2

/-- A path passes exactly the nodes above its end. -/
theorem mem_iff (h : Tree n children) (hp : Path children l q) : i ∈ l ↔ Below children i q := by
  induction hp with
  | root =>
    rw [List.mem_singleton]
    refine ⟨fun hi => hi ▸ .refl, fun hb => ?_⟩
    exact Nat.le_zero.1 (h.below_le hb)
  | @push l q c _ hc ih =>
    rw [List.mem_append, List.mem_singleton, ih, Below, Relation.ReflTransGen.cases_tail_iff _ i c,
      or_comm]
    refine or_congr eq_comm ⟨fun hb => ⟨q, hb, hc⟩, ?_⟩
    rintro ⟨k, hb, hk⟩
    rwa [h.parent_unique hc hk]

theorem nodup (h : Tree n children) (hp : Path children l q) : l.Nodup := by
  induction hp with
  | root => exact List.nodup_singleton 0
  | @push l q c hp hc ih =>
    refine List.nodup_append.2 ⟨ih, List.nodup_singleton c, ?_⟩
    rintro i hi _ hc' rfl
    rw [List.mem_singleton.1 hc'] at hi
    exact absurd ((h.lt q c hc).1) (not_lt.2 (h.below_le ((hp.mem_iff h).1 hi)))

/-- The path to a new leaf. -/
theorem nodup_concat (h : Tree n children) (hp : Path children l q) : (l ++ [n]).Nodup := by
  refine List.nodup_append.2 ⟨hp.nodup h, List.nodup_singleton n, ?_⟩
  rintro i hi _ hn rfl
  rw [List.mem_singleton.1 hn] at hi
  exact absurd (hp.lt h) (not_lt.2 (h.below_le ((hp.mem_iff h).1 hi)))

end Path

/-! ## Tallies -/

section

variable {M : Type} [AddCommMonoid M]

open Classical in
/-- The nodes of a subtree but the root of the tree. -/
noncomputable def subtree (n : Nat) (children : Nat → List Nat) (i : Nat) : Finset Nat :=
  (Finset.Ico 1 n).filter (Below children i)

theorem mem_subtree {i j : Nat} :
    j ∈ subtree n children i ↔ (1 ≤ j ∧ j < n) ∧ Below children i j := by
  simp [subtree]

/-- Every node's sum is that of the values in its subtree. -/
def Tally (n : Nat) (children : Nat → List Nat) (value sum : Nat → M) : Prop :=
  ∀ i < n, sum i = ∑ j ∈ subtree n children i, value j

theorem Tally.root (value sum : Nat → M) (h : sum 0 = 0) : Tally 1 (fun _ => []) value sum := by
  intro i hi
  obtain rfl : i = 0 := by omega
  simp [subtree, h]

theorem Tree.subtree_addLeaf (h : Tree n children) (hq : q < n) (i : Nat) :
    (i = n ∨ Below children i q →
      subtree (n + 1) (ArenaTree.addLeaf n q children) i = insert n (subtree n children i)) ∧
    (¬(i = n ∨ Below children i q) →
      subtree (n + 1) (ArenaTree.addLeaf n q children) i = subtree n children i) := by
  have hpos := h.pos
  constructor
  · intro hi
    ext j
    rw [Finset.mem_insert, mem_subtree, mem_subtree]
    by_cases hj : j = n
    · subst hj
      simp only [true_or, iff_true]
      exact ⟨by omega, (h.below_addLeaf_leaf hq).2 hi⟩
    · rw [h.below_addLeaf hj]
      have : (1 ≤ j ∧ j < n + 1) ↔ (1 ≤ j ∧ j < n) := by omega
      rw [this, or_iff_right hj]
  · intro hi
    ext j
    rw [mem_subtree, mem_subtree]
    by_cases hj : j = n
    · subst hj
      rw [h.below_addLeaf_leaf hq]
      simp [hi]
    · rw [h.below_addLeaf hj]
      have : (1 ≤ j ∧ j < n + 1) ↔ (1 ≤ j ∧ j < n) := by omega
      rw [this]

theorem not_mem_subtree_self (n i : Nat) : n ∉ subtree n children i := by
  simp [subtree]

/-- A leaf is added under `q`, and its value to the sums of the nodes on the path to it. -/
theorem Tally.addLeaf {value sum value' sum' : Nat → M} (h : Tree n children) (hq : q < n)
    (ht : Tally n children value sum) (hvalue : ∀ j, 0 < j → j < n → value' j = value j)
    (hleaf : sum' n = value' n)
    (hpath : ∀ i < n, Below children i q → sum' i = sum i + value' n)
    (hrest : ∀ i < n, ¬Below children i q → sum' i = sum i) :
    Tally (n + 1) (ArenaTree.addLeaf n q children) value' sum' := by
  have hold : ∀ i, ∑ j ∈ subtree n children i, value' j = ∑ j ∈ subtree n children i, value j := by
    refine fun i => Finset.sum_congr rfl fun j hj => ?_
    obtain ⟨⟨h0, hn⟩, -⟩ := mem_subtree.1 hj
    exact hvalue j h0 hn
  intro i hi
  obtain ⟨hin, hout⟩ := h.subtree_addLeaf hq i
  rcases Nat.lt_succ_iff_lt_or_eq.1 hi with hi | rfl
  · by_cases hb : Below children i q
    · rw [hin (.inr hb), Finset.sum_insert (not_mem_subtree_self n i), hold, ← ht i hi,
        hpath i hi hb, add_comm]
    · have hnot : ¬(i = n ∨ Below children i q) := by
        rintro (rfl | hb')
        · exact lt_irrefl _ hi
        · exact hb hb'
      rw [hout hnot, hold, ← ht i hi, hrest i hi hb]
  · have hnil : subtree i children i = ∅ := by
      refine Finset.eq_empty_of_forall_notMem fun j hj => ?_
      obtain ⟨⟨-, hj⟩, hb⟩ := mem_subtree.1 hj
      exact absurd (h.below_le hb) (not_le.2 hj)
    rw [hin (.inl rfl), Finset.sum_insert (not_mem_subtree_self i i), hnil, Finset.sum_empty,
      add_zero, hleaf]

end

end ArenaTree
