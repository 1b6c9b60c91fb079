import Mathlib.Data.List.Induction
import Mathlib.Data.List.Sort

/-!
# Maps as sorted lists

A map with ordered keys is the list of its entries in key order. `upsert` changes the value at one
key, and a fold of `upsert` groups a list by its keys (`lookup_foldl_upsert`).
-/

namespace SortedMap

variable {K V D : Type} [DecidableEq K]

theorem lookup_cons (e : K × V) (m : List (K × V)) (k : K) :
    (e :: m).lookup k = if k = e.1 then some e.2 else m.lookup k := by
  rw [List.lookup_cons]
  by_cases h : k = e.1
  · rw [beq_iff_eq.2 h, if_pos h]
  · rw [beq_false_of_ne h, if_neg h]

theorem lookup_map (f : K → V) (keys : List K) (k : K) :
    (keys.map fun i => (i, f i)).lookup k = if k ∈ keys then some (f k) else none := by
  induction keys with
  | nil => rfl
  | cons i keys ih =>
    rw [List.map_cons, lookup_cons, ih]
    by_cases h : k = i <;> simp [h]

variable [LT K]

section

variable [DecidableLT K]

/-- The value at `k` is changed by `f`, starting from `init` where there is none. -/
def upsert (k : K) (init : V) (f : V → V) : List (K × V) → List (K × V)
  | [] => [(k, f init)]
  | (i, v) :: m =>
    if k < i then (k, f init) :: (i, v) :: m
    else if k = i then (i, f v) :: m
    else (i, v) :: upsert k init f m

theorem lookup_upsert_self (k : K) (v : V) (m : List (K × V)) :
    (upsert k v (fun _ => v) m).lookup k = some v := by
  induction m with
  | nil => rw [upsert, lookup_cons, if_pos rfl]
  | cons e m ih =>
    rw [upsert]
    split
    · rw [lookup_cons, if_pos rfl]
    · split
      · next h => rw [lookup_cons, if_pos h]
      · next h => rw [lookup_cons, if_neg h, ih]

theorem mem_upsert {k : K} {init : V} {f : V → V} {m : List (K × V)} {e : K × V}
    (h : e ∈ upsert k init f m) : e.1 = k ∨ ∃ e' ∈ m, e'.1 = e.1 := by
  induction m with
  | nil =>
    simp only [upsert, List.mem_singleton] at h
    exact .inl (h ▸ rfl)
  | cons a m ih =>
    simp only [upsert] at h
    split at h
    · rcases List.mem_cons.1 h with heq | h
      · exact .inl (heq ▸ rfl)
      · exact .inr ⟨e, h, rfl⟩
    · split at h
      · rcases List.mem_cons.1 h with heq | h
        · exact .inr ⟨a, List.mem_cons_self, heq ▸ rfl⟩
        · exact .inr ⟨e, List.mem_cons_of_mem _ h, rfl⟩
      · rcases List.mem_cons.1 h with heq | h
        · exact .inr ⟨a, List.mem_cons_self, heq ▸ rfl⟩
        · rcases ih h with hk | ⟨e', he', heq⟩
          · exact .inl hk
          · exact .inr ⟨e', List.mem_cons_of_mem _ he', heq⟩

end

/-- Entries in strictly increasing key order. -/
def Sorted (m : List (K × V)) : Prop := m.Pairwise fun a b => a.1 < b.1

variable [LE K] [Std.LawfulOrderLT K]

theorem lookup_eq_none_of_lt {k : K} {m : List (K × V)} (h : ∀ e ∈ m, k < e.1) :
    m.lookup k = none := by
  induction m with
  | nil => rfl
  | cons e m ih =>
    obtain ⟨he, hm⟩ := List.forall_mem_cons.1 h
    rw [lookup_cons, if_neg (Std.ne_of_lt he)]
    exact ih hm

theorem mem_iff_lookup {m : List (K × V)} (h : Sorted m) {k : K} {v : V} :
    (k, v) ∈ m ↔ m.lookup k = some v := by
  induction h with
  | nil => simp
  | @cons e m he hm ih =>
    rw [List.mem_cons, lookup_cons]
    by_cases hk : k = e.1
    · have hnot : (k, v) ∉ m := fun hmem => Std.ne_of_lt (he _ hmem) hk.symm
      rw [if_pos hk, or_iff_left hnot, Prod.ext_iff, and_iff_right hk, Option.some.injEq, eq_comm]
    · rw [if_neg hk, ← ih]
      simp [Prod.ext_iff, hk]

/-- A sorted list is determined by its lookups. -/
theorem ext_lookup {m m' : List (K × V)} (h : Sorted m) (h' : Sorted m')
    (heq : ∀ k, m.lookup k = m'.lookup k) : m = m' := by
  have : Std.Antisymm fun a b : K × V => a.1 < b.1 :=
    ⟨fun a b hab hba => (Std.not_gt_of_lt hab hba).elim⟩
  have : Std.Irrefl fun a b : K × V => a.1 < b.1 := ⟨fun a => Std.lt_irrefl⟩
  refine List.Pairwise.eq_of_mem_iff h h' ?_
  rintro ⟨k, v⟩
  rw [mem_iff_lookup h, mem_iff_lookup h', heq]

variable [Std.IsLinearOrder K] [DecidableLT K]

theorem Sorted.upsert {k : K} {init : V} {f : V → V} {m : List (K × V)} (h : Sorted m) :
    Sorted (upsert k init f m) := by
  induction h with
  | nil => exact List.pairwise_singleton _ _
  | @cons e m he hm ih =>
    simp only [SortedMap.upsert]
    split
    · next hlt =>
      refine List.pairwise_cons.2 ⟨?_, List.pairwise_cons.2 ⟨he, hm⟩⟩
      exact List.forall_mem_cons.2 ⟨hlt, fun e' he' => Std.lt_trans hlt (he e' he')⟩
    · next hlt =>
      split
      · exact List.pairwise_cons.2 ⟨he, hm⟩
      · next hne =>
        refine List.pairwise_cons.2 ⟨fun e' he' => ?_, ih⟩
        rcases mem_upsert he' with hk | ⟨e'', he'', heq⟩
        · rcases Std.lt_trichotomy k e.1 with hlt' | heq | hgt
          · exact absurd hlt' hlt
          · exact absurd heq hne
          · exact hk ▸ hgt
        · exact heq ▸ he e'' he''

theorem lookup_upsert {k : K} {init : V} {f : V → V} {m : List (K × V)} (h : Sorted m) (j : K) :
    (upsert k init f m).lookup j =
      if j = k then some (f ((m.lookup k).getD init)) else m.lookup j := by
  induction h with
  | nil => rw [upsert, lookup_cons, List.lookup_nil, List.lookup_nil, Option.getD_none]
  | @cons e m he hm ih =>
    simp only [upsert]
    split
    · next hlt =>
      have hnone : (e :: m).lookup k = none :=
        lookup_eq_none_of_lt
          (List.forall_mem_cons.2 ⟨hlt, fun e' he' => Std.lt_trans hlt (he e' he')⟩)
      rw [lookup_cons, hnone, Option.getD_none]
    · split
      · next heq =>
        subst heq
        simp only [lookup_cons, if_true, Option.getD_some]
        split <;> rfl
      · next hne =>
        rw [lookup_cons, lookup_cons, lookup_cons, if_neg hne, ih]
        by_cases hj : j = e.1
        · rw [if_pos hj, if_neg (hj ▸ Ne.symm hne), if_pos hj]
        · rw [if_neg hj, if_neg hj]

theorem sorted_foldl_upsert (key : D → K) (init : V) (step : V → D → V) (ds : List D) :
    Sorted (ds.foldl (fun m d => upsert (key d) init (step · d) m) []) := by
  induction ds using List.reverseRecOn with
  | nil => exact .nil
  | append_singleton ds d ih =>
    rw [List.foldl_append]
    exact ih.upsert

/-- Grouping by key: the value at a key is the fold over the elements with that key. -/
theorem lookup_foldl_upsert (key : D → K) (init : V) (step : V → D → V) (ds : List D) (k : K) :
    (ds.foldl (fun m d => upsert (key d) init (step · d) m) []).lookup k =
      if ∃ d ∈ ds, key d = k then some ((ds.filter (key · = k)).foldl step init) else none := by
  induction ds using List.reverseRecOn with
  | nil => simp
  | append_singleton ds d ih =>
    rw [List.foldl_append, List.foldl_cons, List.foldl_nil,
      lookup_upsert (sorted_foldl_upsert key init step ds), List.filter_append, List.foldl_append]
    by_cases hd : key d = k
    · have hvalue : ((ds.foldl (fun m d => upsert (key d) init (step · d) m) []).lookup k).getD init =
          (ds.filter (key · = k)).foldl step init := by
        rw [ih]
        split
        · rfl
        · next hnone =>
          rw [List.filter_eq_nil_iff.2 fun d' hd' => by simpa using fun h => hnone ⟨d', hd', h⟩]
          rfl
      rw [if_pos hd.symm, hd, hvalue, if_pos ⟨d, by simp, hd⟩]
      simp [hd]
    · rw [if_neg (Ne.symm hd), ih]
      simp [hd, or_and_right, exists_or]

/-! ## Collecting entries -/

omit [LT K] [LE K] [Std.LawfulOrderLT K] [Std.IsLinearOrder K] [DecidableLT K] in
theorem mem_iff_lookup_of_nodup {l : List (K × V)} (h : (l.map Prod.fst).Nodup) {k : K} {v : V} :
    (k, v) ∈ l ↔ l.lookup k = some v := by
  induction l with
  | nil => simp
  | cons e l ih =>
    obtain ⟨hnot, hl⟩ := List.nodup_cons.1 h
    rw [List.mem_cons, lookup_cons]
    by_cases hk : k = e.1
    · have hmem : (k, v) ∉ l := fun hmem => hnot (hk ▸ List.mem_map_of_mem hmem)
      rw [if_pos hk, or_iff_left hmem, Prod.ext_iff, and_iff_right hk, Option.some.injEq, eq_comm]
    · rw [if_neg hk, ← ih hl]
      simp [Prod.ext_iff, hk]

/-- A map that a list of entries is collected into. -/
def collect (l : List (K × V)) : List (K × V) :=
  l.foldl (fun m e => upsert e.1 e.2 (fun _ => e.2) m) []

theorem sorted_collect (l : List (K × V)) : Sorted (collect l) := by
  induction l using List.reverseRecOn with
  | nil => exact .nil
  | append_singleton l e ih =>
    rw [collect, List.foldl_append]
    exact ih.upsert

theorem lookup_collect {l : List (K × V)} (h : (l.map Prod.fst).Nodup) (k : K) :
    (collect l).lookup k = l.lookup k := by
  induction l using List.reverseRecOn with
  | nil => rfl
  | append_singleton l e ih =>
    rw [List.map_append, List.nodup_append] at h
    obtain ⟨hl, -, hne⟩ := h
    have hstep : collect (l ++ [e]) = upsert e.1 e.2 (fun _ => e.2) (collect l) :=
      List.foldl_concat ..
    rw [hstep, lookup_upsert (sorted_collect l), ih hl, List.lookup_append]
    by_cases hk : k = e.1
    · have hnone : l.lookup k = none := by
        refine List.lookup_eq_none_iff.2 fun e' he' => bne_iff_ne.2 fun heq => ?_
        exact hne e'.1 (List.mem_map_of_mem he') e.1 (List.mem_singleton_self _) (heq.symm.trans hk)
      rw [if_pos hk, hnone, Option.none_or, lookup_cons, if_pos hk]
    · rw [if_neg hk, lookup_cons, if_neg hk, List.lookup_nil, Option.or_none]

/-- The entries of a map, in any order, are collected into it. -/
theorem collect_of_perm {l m : List (K × V)} (hm : Sorted m) (h : l.Perm m) : collect l = m := by
  have hkeys : (m.map Prod.fst).Nodup :=
    List.pairwise_map.2 (hm.imp fun hlt => Std.ne_of_lt hlt)
  have hnodup : (l.map Prod.fst).Nodup := (h.map Prod.fst).nodup_iff.2 hkeys
  refine ext_lookup (sorted_collect l) hm fun k => ?_
  rw [lookup_collect hnodup]
  refine Option.ext fun v => ?_
  rw [← mem_iff_lookup_of_nodup hnodup, ← mem_iff_lookup_of_nodup hkeys, h.mem_iff]

end SortedMap
