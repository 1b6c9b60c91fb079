import Mathlib.Order.Bounds.Basic

/-!
# Values that are passed on

A value is raised by marks, and copied from place to place. Each copy keeps the marks that have gone
into it, and is their least upper bound (`Copy.Lub`). So a copy with all the marks of another one is
not below it, whatever the marks are (`Copy.Lub.le_of_subset`).
-/

namespace Provenance

/-- A mark, with a number that tells it from others of the same size. -/
structure Mark (α : Type) where
  id : Nat
  size : α
  deriving DecidableEq

/-- A value, with the marks that have gone into it. -/
structure Copy (α : Type) where
  value : α
  marks : List (Mark α)

namespace Copy

variable {α : Type}

/-- The copy takes up a mark that is not below it. -/
def raise (c : Copy α) (m : Mark α) : Copy α := ⟨m.size, m :: c.marks⟩

/-- A copy at the start, with the mark of another place if that is not above it. -/
def start [LE α] [DecidableLE α] (m other : Mark α) : Copy α :=
  ⟨m.size, if other.size ≤ m.size then [m, other] else [m]⟩

variable [Preorder α] {c c' : Copy α} {m : Mark α}

def Lub (c : Copy α) : Prop := IsLUB (Mark.size '' {m | m ∈ c.marks}) c.value

theorem lub_singleton (m : Mark α) : Lub ⟨m.size, [m]⟩ := by
  simp [Lub]

theorem Lub.raise (h : c.Lub) (hle : c.value ≤ m.size) : (c.raise m).Lub := by
  constructor
  · rintro _ ⟨m', hm', rfl⟩
    obtain rfl | hm' := List.mem_cons.1 hm'
    · exact le_rfl
    · exact (h.1 ⟨m', hm', rfl⟩).trans hle
  · intro b hb
    exact hb ⟨m, List.mem_cons_self, rfl⟩

theorem lub_start [DecidableLE α] (m other : Mark α) : (start m other).Lub := by
  unfold start
  split
  case isTrue hle => exact (lub_singleton other).raise hle
  case isFalse => exact lub_singleton m

/-- A copy with all marks of another one is not below it. -/
theorem Lub.le_of_subset (h : c.Lub) (h' : c'.Lub) (hsub : c.marks ⊆ c'.marks) :
    c.value ≤ c'.value :=
  h.mono h' (Set.image_mono fun _ hm => hsub hm)

end Copy

end Provenance
