import Mathlib.Data.String.Basic
import Tako.Rust.Str

/-!
# Slices of a text

Rust indexes a text by bytes. A range of it whose ends are not character boundaries is a panic,
which is `none` here.
-/

namespace Tako.Str

open String (utf8Len)

/-- The characters after the first `n` bytes, as `takeBytes`. -/
def dropBytes : Nat → List Char → Option (List Char)
  | 0, cs => some cs
  | _ + 1, [] => none
  | n + 1, c :: cs => if c.utf8Size ≤ n + 1 then dropBytes (n + 1 - c.utf8Size) cs else none

/-- `&s[start..stop]` -/
def slice (s : List Char) (start stop : Nat) : Option (List Char) :=
  if start ≤ stop then (dropBytes start s).bind (takeBytes (stop - start)) else none

/-- `&s[start..]` -/
def sliceFrom (s : List Char) (start : Nat) : Option (List Char) := dropBytes start s

example : slice "naïve".toList 2 4 = some ['ï'] := by decide

example : slice "naïve".toList 2 3 = none := by decide

theorem takeBytes_append (s t : List Char) : takeBytes (utf8Len s) (s ++ t) = some s := by
  induction s with
  | nil =>
    unfold takeBytes
    cases t <;> rfl
  | cons c s ih =>
    obtain ⟨n, hn⟩ : ∃ n, utf8Len (c :: s) = n + 1 :=
      Nat.exists_eq_succ_of_ne_zero (Nat.ne_of_gt (Nat.add_pos_right _ c.utf8Size_pos))
    have hle : c.utf8Size ≤ n + 1 := hn ▸ Nat.le_add_left _ _
    have hrest : n + 1 - c.utf8Size = utf8Len s := hn ▸ Nat.add_sub_cancel _ _
    rw [hn, List.cons_append, takeBytes, if_pos hle, hrest, ih]
    rfl

theorem takeBytes_eq_some_iff {n : Nat} {s part : List Char} :
    takeBytes n s = some part ↔ ∃ rest, s = part ++ rest ∧ utf8Len part = n := by
  constructor
  · intro h
    induction n, s using takeBytes.induct generalizing part with
    | case1 s =>
      rw [takeBytes, Option.some.injEq] at h
      subst h
      exact ⟨s, rfl, rfl⟩
    | case2 n => cases h
    | case3 n c cs hle ih =>
      rw [takeBytes, if_pos hle] at h
      obtain ⟨part, hpart, rfl⟩ := Option.map_eq_some_iff.1 h
      obtain ⟨rest, rfl, hlen⟩ := ih hpart
      exact ⟨rest, rfl, by rw [String.utf8Len_cons]; omega⟩
    | case4 n c cs hle =>
      rw [takeBytes, if_neg hle] at h
      cases h
  · rintro ⟨rest, rfl, rfl⟩
    exact takeBytes_append part rest

/-- `n` is a character boundary: some part of the text takes up its first `n` bytes. -/
def IsCharBoundary (s : String) (n : Nat) : Prop :=
  ∃ part rest : String, s = part ++ rest ∧ part.utf8ByteSize = n

theorem sliceTo_eq_some_iff {s part : String} {n : Nat} :
    sliceTo s n = some part ↔ ∃ rest, s = part ++ rest ∧ part.utf8ByteSize = n := by
  simp only [sliceTo, Option.map_eq_some_iff, takeBytes_eq_some_iff]
  constructor
  · rintro ⟨cs, ⟨rest, hs, hlen⟩, rfl⟩
    refine ⟨String.ofList rest, ?_, by rw [String.utf8ByteSize_ofList, hlen]⟩
    rw [← String.ofList_append, ← hs, String.ofList_toList]
  · rintro ⟨rest, rfl, rfl⟩
    exact ⟨part.toList, ⟨rest.toList, String.toList_append, String.utf8Len_toList part⟩,
      String.ofList_toList⟩

/-- A slice from the start panics exactly inside a character or past the end. -/
theorem sliceTo_ne_none_iff {s : String} {n : Nat} :
    sliceTo s n ≠ none ↔ IsCharBoundary s n := by
  simp only [Option.ne_none_iff_exists', sliceTo_eq_some_iff]
  rfl

theorem dropBytes_append (s t : List Char) : dropBytes (utf8Len s) (s ++ t) = some t := by
  induction s with
  | nil =>
    unfold dropBytes
    cases t <;> rfl
  | cons c s ih =>
    obtain ⟨n, hn⟩ : ∃ n, utf8Len (c :: s) = n + 1 :=
      Nat.exists_eq_succ_of_ne_zero (Nat.ne_of_gt (Nat.add_pos_right _ c.utf8Size_pos))
    have hle : c.utf8Size ≤ n + 1 := hn ▸ Nat.le_add_left _ _
    have hrest : n + 1 - c.utf8Size = utf8Len s := hn ▸ Nat.add_sub_cancel _ _
    rw [hn, List.cons_append, dropBytes, if_pos hle, hrest, ih]

/-- A range between two boundaries is what stands between them. -/
theorem slice_append (s t u : List Char) :
    slice (s ++ t ++ u) (utf8Len s) (utf8Len s + utf8Len t) = some t := by
  rw [slice, if_pos (Nat.le_add_right _ _), List.append_assoc, dropBytes_append, Option.bind_some,
    Nat.add_sub_cancel_left, takeBytes_append]

theorem sliceFrom_append (s t : List Char) : sliceFrom (s ++ t) (utf8Len s) = some t :=
  dropBytes_append s t

/-- The earlier of two boundaries leaves a part of the text between them. -/
theorem exists_between {s t s' t' : List Char} (h : s ++ t = s' ++ t')
    (hle : utf8Len s ≤ utf8Len s') : ∃ gap, s' = s ++ gap ∧ t = gap ++ t' := by
  obtain ⟨gap, hs, ht⟩ | ⟨gap, hs, ht⟩ := List.append_eq_append_iff.1 h
  · exact ⟨gap, hs, ht⟩
  · have hlen : utf8Len gap = 0 := by
      have := congrArg utf8Len hs
      rw [String.utf8Len_append] at this
      omega
    obtain rfl : gap = [] := String.utf8Len_eq_zero.1 hlen
    exact ⟨[], by rw [hs, List.append_nil, List.append_nil], ht.symm⟩

end Tako.Str
