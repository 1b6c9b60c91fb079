import Mathlib.Data.List.Basic
import Mathlib.Data.Nat.Log
import Mathlib.Tactic.Ring

/-!
# Merkle trees split at a power of two

The hash tree of an append-only log over leaves of a type `α` with digests in `δ`. A tree of
`n ≥ 2` leaves splits at the largest power of two below `n`, so its shape is a function of `n`
alone. A verifier that knows an index and a size can therefore rebuild the root from a leaf and
a bottom-up list of sibling digests, walking the bits of the index and of the last index.

The hash function is arbitrary: `Scheme` fixes only the preimage encodings and their
injectivity. Soundness is stated without any assumption on collisions. It names two distinct
preimages with one digest, one hashed by the verifier and one hashed by the tree.

* `mth`, `auditPath`: the tree hash and the audit path of an index.
* `sides`: on which side of its sibling each node of the path stands, bottom-up.
* `sides_eq_of_length_eq`: the number of sides of an index tells which sides they are.
* `sides_left`, `sides_right`: the walk over the bits follows the split of the tree.
* `exists_descends`: tree, walk and path of an index, in terms of the subtree that holds it.
* `climb_auditPath`, `climb_sound`: the rebuilt root is the tree hash for the honest path, and
  for no leaf but the indexed one short of a collision.
-/

namespace Merkle

/-- A hash function with the encodings of its three kinds of preimage. -/
structure Scheme (α δ ι : Type) where
  hash : ι → δ
  emptyIn : ι
  leafIn : α → ι
  nodeIn : δ → δ → ι
  leafIn_inj : ∀ {a b}, leafIn a = leafIn b → a = b
  nodeIn_inj : ∀ {a b c d}, nodeIn a b = nodeIn c d → a = c ∧ b = d

/-- The side of its sibling on which a node stands. -/
inductive Side where
  | left
  | right
  deriving DecidableEq, Repr

/-! ## The split point -/

/-- The largest power of two strictly below `n`, for `n ≥ 2`. -/
def split (n : Nat) : Nat := 2 ^ Nat.log 2 (n - 1)

theorem split_pos (n : Nat) : 0 < split n := Nat.pow_pos Nat.two_pos

theorem split_lt (h : 2 ≤ n) : split n < n := by
  have := Nat.pow_log_le_self 2 (x := n - 1) (by omega)
  simp only [split]
  omega

theorem split_two : split 2 = 1 := by simp [split]

/-- Pairing the leaves halves the last index. -/
theorem pred_half (n : Nat) : (n + 1) / 2 - 1 = (n - 1) / 2 := by omega

/-- Pairing the leaves halves the split point. -/
theorem split_half (h : 3 ≤ n) : split n = 2 * split ((n + 1) / 2) := by
  have hlog := Nat.log_of_one_lt_of_le (b := 2) (n := n - 1) Nat.one_lt_two (by omega)
  simp only [split, pred_half, hlog, Nat.pow_succ]
  ring

/-! ## Trees and audit paths -/

namespace Scheme

variable (S : Scheme α δ ι)

def leafHash (a : α) : δ := S.hash (S.leafIn a)

def nodeHash (l r : δ) : δ := S.hash (S.nodeIn l r)

/-- The preimage that joins a node standing on side `s` with its sibling. -/
def joinIn : Side → δ → δ → ι
  | .left, node, sibling => S.nodeIn node sibling
  | .right, node, sibling => S.nodeIn sibling node

theorem joinIn_inj {s : Side} (h : S.joinIn s a p = S.joinIn s b q) : a = b := by
  cases s with
  | left => exact (S.nodeIn_inj h).1
  | right => exact (S.nodeIn_inj h).2

end Scheme

variable {α δ ι : Type} (S : Scheme α δ ι)

/-- The Merkle tree hash of a list of leaves. -/
def mth (D : List α) : δ :=
  match D with
  | [] => S.hash S.emptyIn
  | [d] => S.leafHash d
  | d :: e :: D' =>
    let D := d :: e :: D'
    S.nodeHash (mth (D.take (split D.length))) (mth (D.drop (split D.length)))
termination_by D.length
decreasing_by
  · have := split_lt (n := (d :: e :: D').length) (by simp)
    simp only [List.length_take] at *
    omega
  · have := split_pos (d :: e :: D').length
    simp only [List.length_drop, List.length_cons] at *
    omega

/-- The audit path of index `i`: the sibling digests from the leaf up to the root. -/
def auditPath (D : List α) (i : Nat) : List δ :=
  if _h : 2 ≤ D.length then
    if i < split D.length then
      auditPath (D.take (split D.length)) i ++ [mth S (D.drop (split D.length))]
    else
      auditPath (D.drop (split D.length)) (i - split D.length) ++
        [mth S (D.take (split D.length))]
  else []
termination_by D.length
decreasing_by
  · have := split_lt ‹2 ≤ D.length›
    simp only [List.length_take]
    omega
  · have := split_pos D.length
    simp only [List.length_drop]
    omega

/-- The preimages hashed in computing `mth S D`. -/
def treeInputs (D : List α) : List ι :=
  match D with
  | [] => [S.emptyIn]
  | [d] => [S.leafIn d]
  | d :: e :: D' =>
    let D := d :: e :: D'
    S.nodeIn (mth S (D.take (split D.length))) (mth S (D.drop (split D.length))) ::
      (treeInputs (D.take (split D.length)) ++ treeInputs (D.drop (split D.length)))
termination_by D.length
decreasing_by
  · have := split_lt (n := (d :: e :: D').length) (by simp)
    simp only [List.length_take] at *
    omega
  · have := split_pos (d :: e :: D').length
    simp only [List.length_drop, List.length_cons] at *
    omega

theorem mth_singleton (d : α) : mth S [d] = S.leafHash d := by simp [mth]

theorem mth_split {D : List α} (h : 2 ≤ D.length) :
    mth S D = S.nodeHash (mth S (D.take (split D.length))) (mth S (D.drop (split D.length))) := by
  match D, h with
  | d :: e :: D', _ => rw [mth]

theorem treeInputs_split {D : List α} (h : 2 ≤ D.length) :
    treeInputs S D =
      S.nodeIn (mth S (D.take (split D.length))) (mth S (D.drop (split D.length))) ::
        (treeInputs S (D.take (split D.length)) ++ treeInputs S (D.drop (split D.length))) := by
  match D, h with
  | d :: e :: D', _ => rw [treeInputs]

theorem auditPath_short {D : List α} (h : D.length < 2) : auditPath S D i = [] := by
  rw [auditPath, dif_neg (by omega)]

theorem auditPath_left {D : List α} (h : 2 ≤ D.length) (hi : i < split D.length) :
    auditPath S D i =
      auditPath S (D.take (split D.length)) i ++ [mth S (D.drop (split D.length))] := by
  rw [auditPath, dif_pos h, if_pos hi]

theorem auditPath_right {D : List α} (h : 2 ≤ D.length) (hi : split D.length ≤ i) :
    auditPath S D i = auditPath S (D.drop (split D.length)) (i - split D.length) ++
      [mth S (D.take (split D.length))] := by
  rw [auditPath, dif_pos h, if_neg (by omega)]

/-! ## The walk over the bits of the index -/

/-- The sides of the nodes on the path of index `i` in a tree whose last index is `last`,
bottom-up. A node that is last in its row and has an even index has no sibling and moves up a
row unchanged. -/
def sides (i last : Nat) : List Side :=
  if last = 0 then []
  else if i % 2 = 1 then .right :: sides (i / 2) (last / 2)
  else if i = last then sides (i / 2) (last / 2)
  else .left :: sides (i / 2) (last / 2)
termination_by last
decreasing_by all_goals omega

theorem sides_zero : sides i 0 = [] := by rw [sides, if_pos rfl]

theorem sides_odd (h0 : last ≠ 0) (h : i % 2 = 1) :
    sides i last = .right :: sides (i / 2) (last / 2) := by
  rw [sides, if_neg h0, if_pos h]

theorem sides_even (h0 : last ≠ 0) (h : i % 2 = 0) (hl : i ≠ last) :
    sides i last = .left :: sides (i / 2) (last / 2) := by
  rw [sides, if_neg h0, if_neg (by omega), if_neg hl]

/-- The last node of a row has no sibling when its index is even. -/
theorem sides_edge (h : last % 2 = 0) : sides last last = sides (last / 2) (last / 2) := by
  by_cases h0 : last = 0
  · simp [h0]
  · rw [sides, if_neg h0, if_neg (by omega), if_pos rfl]

/-- An index has the fewest sides where it is the last one. -/
theorem length_sides_le (h : i ≤ last) : (sides i i).length ≤ (sides i last).length := by
  induction i using Nat.strong_induction_on generalizing last with
  | _ i ih =>
    rcases Nat.eq_zero_or_pos i with rfl | hpos
    · simp [sides_zero]
    have hrow : (sides (i / 2) (i / 2)).length ≤ (sides (i / 2) (last / 2)).length :=
      ih (i / 2) (by omega) (by omega)
    rcases Nat.mod_two_eq_zero_or_one i with heven | hodd
    · rcases h.eq_or_lt with rfl | hlt
      · exact Nat.le_refl _
      · rw [sides_edge heven, sides_even (by omega) heven (by omega), List.length_cons]
        omega
    · rw [sides_odd (by omega) hodd, sides_odd (by omega) hodd, List.length_cons, List.length_cons]
      omega

theorem length_sides_lt (heven : i % 2 = 0) (h : i < last) :
    (sides i i).length < (sides i last).length := by
  have hrow : (sides (i / 2) (i / 2)).length ≤ (sides (i / 2) (last / 2)).length :=
    length_sides_le (by omega)
  rw [sides_edge heven, sides_even (by omega) heven (by omega), List.length_cons]
  omega

/-- The number of sides of an index tells which sides they are. -/
theorem sides_eq_of_length_eq (h : i ≤ last) (h' : i ≤ last')
    (hlen : (sides i last).length = (sides i last').length) : sides i last = sides i last' := by
  induction last using Nat.strong_induction_on generalizing i last' with
  | _ last ih =>
    rcases Nat.mod_two_eq_zero_or_one i with heven | hodd
    · rcases h.eq_or_lt with rfl | hlt <;> rcases h'.eq_or_lt with heq | hlt'
      · rw [heq]
      · have hless := length_sides_lt heven hlt'
        omega
      · have hless := length_sides_lt heven hlt
        rw [← heq] at hlen
        omega
      · rw [sides_even (by omega) heven (by omega), sides_even (by omega) heven (by omega)] at *
        simp only [List.length_cons, Nat.add_right_cancel_iff] at hlen
        rw [ih (last / 2) (by omega) (by omega) (by omega) hlen]
    · rw [sides_odd (by omega) hodd, sides_odd (by omega) hodd] at *
      simp only [List.length_cons, Nat.add_right_cancel_iff] at hlen
      rw [ih (last / 2) (by omega) (by omega) (by omega) hlen]

/-- An index left of the split walks the left subtree and joins the right one last. -/
theorem sides_left (h : 2 ≤ n) (hi : i < split n) :
    sides i (n - 1) = sides i (split n - 1) ++ [.left] := by
  induction n using Nat.strong_induction_on generalizing i with
  | _ n ih =>
    rcases h.eq_or_lt with rfl | hn
    · have hi0 : i = 0 := by rw [split_two] at hi; omega
      subst hi0
      rw [split_two, sides_even Nat.one_ne_zero rfl Nat.zero_ne_one]
      simp [sides_zero]
    have hlt := split_lt h
    have hhalf := split_half hn
    have hih := ih ((n + 1) / 2) (by omega) (i := i / 2) (by omega) (by omega)
    have hsub : (split n - 1) / 2 = split ((n + 1) / 2) - 1 := by omega
    have hpos := split_pos ((n + 1) / 2)
    rw [pred_half] at hih
    rcases Nat.mod_two_eq_zero_or_one i with heven | hodd
    · rw [sides_even (by omega) heven (by omega), sides_even (by omega) heven (by omega), hsub,
        hih, List.cons_append]
    · rw [sides_odd (by omega) hodd, sides_odd (by omega) hodd, hsub, hih, List.cons_append]

/-- An index right of the split walks the right subtree and joins the left one last. -/
theorem sides_right (h : 2 ≤ n) (hk : split n ≤ i) (hi : i < n) :
    sides i (n - 1) = sides (i - split n) (n - split n - 1) ++ [.right] := by
  induction n using Nat.strong_induction_on generalizing i with
  | _ n ih =>
    rcases h.eq_or_lt with rfl | hn
    · have hi1 : i = 1 := by rw [split_two] at hk; omega
      subst hi1
      rw [split_two, sides_odd Nat.one_ne_zero rfl]
      simp [sides_zero]
    have hlt := split_lt h
    have hhalf := split_half hn
    have hih := ih ((n + 1) / 2) (by omega) (i := i / 2) (by omega) (by omega) (by omega)
    have hidx : (i - split n) / 2 = i / 2 - split ((n + 1) / 2) := by omega
    have hsub : (n - split n - 1) / 2 = (n + 1) / 2 - split ((n + 1) / 2) - 1 := by omega
    rw [pred_half] at hih
    rcases (Nat.mod_two_eq_zero_or_one i).symm with hodd | heven
    · have hodd' : (i - split n) % 2 = 1 := by omega
      rw [sides_odd (by omega) hodd, sides_odd (by omega) hodd', hidx, hsub, hih,
        List.cons_append]
    have heven' : (i - split n) % 2 = 0 := by omega
    rcases (Nat.le_sub_one_of_lt hi).eq_or_lt with rfl | hl
    · -- the last leaf moves up a row in both trees
      rw [sides_edge heven, show n - split n - 1 = n - 1 - split n by omega, sides_edge heven',
        hih, hidx]
      congr 2
      omega
    · rw [sides_even (by omega) heven (by omega), sides_even (by omega) heven' (by omega),
        hidx, hsub, hih, List.cons_append]

/-! ## Climbing an audit path -/

/-- The digest reached from `r` by joining with each sibling in turn. -/
def climb (r : δ) : List (Side × δ) → δ
  | [] => r
  | (s, p) :: path => climb (S.hash (S.joinIn s r p)) path

/-- The preimages hashed by `climb`. -/
def climbInputs (r : δ) : List (Side × δ) → List ι
  | [] => []
  | (s, p) :: path => S.joinIn s r p :: climbInputs (S.hash (S.joinIn s r p)) path

@[simp] theorem climb_append (r : δ) (path : List (Side × δ)) (s : Side) (p : δ) :
    climb S r (path ++ [(s, p)]) = S.hash (S.joinIn s (climb S r path) p) := by
  induction path generalizing r with
  | nil => rfl
  | cons x path ih => exact ih _

@[simp] theorem climbInputs_append (r : δ) (path : List (Side × δ)) (s : Side) (p : δ) :
    climbInputs S r (path ++ [(s, p)]) =
      climbInputs S r path ++ [S.joinIn s (climb S r path) p] := by
  induction path generalizing r with
  | nil => rfl
  | cons x path ih => exact congrArg _ (ih _)

/-- Two distinct preimages of one digest, the first from `as` and the second from `bs`. -/
def Collides (as bs : List ι) : Prop := ∃ a ∈ as, ∃ b ∈ bs, a ≠ b ∧ S.hash a = S.hash b

theorem Collides.mono {as bs as' bs' : List ι} (h : Collides S as bs)
    (ha : as ⊆ as') (hb : bs ⊆ bs') : Collides S as' bs' := by
  obtain ⟨a, hm, b, hm', hab⟩ := h
  exact ⟨a, ha hm, b, hb hm', hab⟩

/-! ## The subtree of an index -/

/-- The root of `D` joins the subtree `E`, which stands on side `s` and holds index `i` of `D` at
`j`, with the sibling `p`. -/
structure Descends (D : List α) (i : Nat) (s : Side) (E : List α) (j : Nat) (p : δ) : Prop where
  length_lt : E.length < D.length
  lt_length : j < E.length
  getElem? : E[j]? = D[i]?
  sides : sides i (D.length - 1) = Merkle.sides j (E.length - 1) ++ [s]
  auditPath : auditPath S D i = Merkle.auditPath S E j ++ [p]
  mth : mth S D = S.hash (S.joinIn s (Merkle.mth S E) p)
  top : S.joinIn s (Merkle.mth S E) p ∈ treeInputs S D
  below : treeInputs S E ⊆ treeInputs S D

theorem Descends.leaf {D E : List α} (h : Descends S D i s E j p) (hi : i < D.length)
    (hj : j < E.length) : E[j] = D[i] := by
  simpa [hi, hj] using h.getElem?

/-- An index of a tree with a root node lies in one of the two subtrees. -/
theorem exists_descends {D : List α} (h : 2 ≤ D.length) (hi : i < D.length) :
    ∃ s E j p, Descends S D i s E j p := by
  have hlt := split_lt h
  have hpos := split_pos D.length
  have hin := treeInputs_split S h
  rcases Nat.lt_or_ge i (split D.length) with hk | hk
  · have hlen : (D.take (split D.length)).length = split D.length := by
      rw [List.length_take, Nat.min_eq_left hlt.le]
    refine ⟨.left, D.take (split D.length), i, Merkle.mth S (D.drop (split D.length)), ?_⟩
    exact {
      length_lt := by rwa [hlen]
      lt_length := by rwa [hlen]
      getElem? := List.getElem?_take_of_lt hk
      sides := by rw [hlen, sides_left h hk]
      auditPath := auditPath_left S h hk
      mth := mth_split S h
      top := hin ▸ List.mem_cons_self
      below := by
        rw [hin]
        exact List.subset_cons_of_subset _ (List.subset_append_left _ _) }
  · have hlen : (D.drop (split D.length)).length = D.length - split D.length := List.length_drop
    refine ⟨.right, D.drop (split D.length), i - split D.length,
      Merkle.mth S (D.take (split D.length)), ?_⟩
    exact {
      length_lt := by rw [hlen]; omega
      lt_length := by rw [hlen]; omega
      getElem? := by rw [List.getElem?_drop, Nat.add_sub_cancel' hk]
      sides := by rw [hlen, sides_right h hk hi]
      auditPath := auditPath_right S h hk
      mth := mth_split S h
      top := hin ▸ List.mem_cons_self
      below := by
        rw [hin]
        exact List.subset_cons_of_subset _ (List.subset_append_right _ _) }

/-- An index of a tree is that of a single leaf, or lies in a subtree. -/
theorem eq_singleton_or_descends {D : List α} (hi : i < D.length) :
    (∃ d, D = [d] ∧ i = 0) ∨ ∃ s E j p, Descends S D i s E j p := by
  rcases Nat.lt_or_ge D.length 2 with h | h
  · obtain ⟨d, rfl⟩ := List.length_eq_one_iff.1 (show D.length = 1 by omega)
    exact .inl ⟨d, rfl, Nat.lt_one_iff.1 hi⟩
  · exact .inr (exists_descends S h hi)

/-! ## Completeness and soundness -/

theorem length_auditPath (D : List α) (hi : i < D.length) :
    (auditPath S D i).length = (sides i (D.length - 1)).length := by
  induction hn : D.length using Nat.strong_induction_on generalizing D i with
  | _ n ih =>
    subst hn
    rcases eq_singleton_or_descends S hi with ⟨d, rfl, rfl⟩ | ⟨s, E, j, p, hd⟩
    · simp [auditPath_short, sides_zero]
    · rw [hd.auditPath, hd.sides, List.length_append, List.length_append,
        ih _ hd.length_lt E hd.lt_length rfl]
      rfl

/-- The honest audit path of an index climbs from its leaf to the tree hash. -/
theorem climb_auditPath (D : List α) (hi : i < D.length) :
    climb S (S.leafHash D[i]) ((sides i (D.length - 1)).zip (auditPath S D i)) = mth S D := by
  induction hn : D.length using Nat.strong_induction_on generalizing D i with
  | _ n ih =>
    subst hn
    rcases eq_singleton_or_descends S hi with ⟨d, rfl, rfl⟩ | ⟨s, E, j, p, hd⟩
    · simp [auditPath_short, climb, mth_singleton]
    · rw [hd.auditPath, hd.sides, hd.mth,
        List.zip_append (length_auditPath S E hd.lt_length).symm, List.zip_cons_cons,
        List.zip_nil_left, climb_append, ← hd.leaf S hi hd.lt_length,
        ih _ hd.length_lt E hd.lt_length rfl]

/-- A path of the right length that climbs to the tree hash starts from the indexed leaf, short
of a collision between a preimage of the climb and a preimage of the tree. -/
theorem climb_sound (D : List α) (x : α) (path : List δ) (hi : i < D.length)
    (hlen : path.length = (sides i (D.length - 1)).length)
    (h : climb S (S.leafHash x) ((sides i (D.length - 1)).zip path) = mth S D) :
    x = D[i] ∨ Collides S
      (S.leafIn x :: climbInputs S (S.leafHash x) ((sides i (D.length - 1)).zip path))
      (treeInputs S D) := by
  induction hn : D.length using Nat.strong_induction_on generalizing D i path with
  | _ n ih =>
    subst hn
    rcases eq_singleton_or_descends S hi with ⟨d, rfl, rfl⟩ | ⟨s, E, j, p₀, hd⟩
    · simp only [List.length_singleton, Nat.sub_self, sides_zero, List.zip_nil_left, climb,
        mth_singleton, climbInputs, treeInputs] at h ⊢
      by_cases heq : S.leafIn x = S.leafIn d
      · exact .inl (S.leafIn_inj heq)
      · exact .inr ⟨_, List.mem_singleton_self _, _, List.mem_singleton_self _, heq, h⟩
    · rw [hd.sides, List.length_append, List.length_singleton] at hlen
      obtain ⟨path, p, rfl⟩ := path.eq_nil_or_concat'.resolve_left (by rintro rfl; simp at hlen)
      have hlen' : path.length = (sides j (E.length - 1)).length := by simpa using hlen
      rw [hd.sides, List.zip_append hlen'.symm, List.zip_cons_cons, List.zip_nil_left] at h ⊢
      rw [climb_append, hd.mth] at h
      rw [climbInputs_append]
      by_cases heq : S.joinIn s (climb S (S.leafHash x) ((sides j (E.length - 1)).zip path)) p =
          S.joinIn s (mth S E) p₀
      · -- the climb passes through the root of the subtree
        rcases ih _ hd.length_lt E path hd.lt_length hlen' (S.joinIn_inj heq) rfl with hx | hc
        · exact .inl (hx.trans (hd.leaf S hi hd.lt_length))
        · exact .inr (hc.mono S (List.cons_subset_cons _ (List.subset_append_left _ _)) hd.below)
      · exact .inr ⟨_, by simp, _, hd.top, heq, h⟩

end Merkle
