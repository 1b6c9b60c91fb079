import Mathlib.Data.Finset.Insert
import Mathlib.Data.List.Nodup
import Tako.Theory.Interleaving

/-!
# Sections under a read-write lock

Tasks change a value in sections: a section waits for the write lock, applies its updates one after
another, and lets the lock go. Others look at the value under the read lock. Whoever looks sees the
value after whole sections, each at most once (`Run.seen`). The sections are numbered as they are
asked for, and `done` lists those that have been completed; no move depends on either.
-/

namespace LockedSections

open Interleaving (Config)

structure Cell (ι σ S : Type) where
  value : σ
  writer : Option ι
  readers : Finset ι
  next : Nat
  done : List (Nat × S)

inductive Phase (S U : Type) where
  | outside
  | waiting (n : Nat) (s : S)
  | writing (n : Nat) (s : S) (rest : List U)
  | reading

variable {ι σ S U : Type}

namespace Phase

def IsWriting : Phase S U → Prop
  | writing _ _ _ => True
  | _ => False

/-- The number of the section that the task is about. -/
def number? : Phase S U → Option Nat
  | waiting n _ | writing n _ _ => some n
  | _ => none

/-- The task may look at the value: it reads, or has just begun to write. -/
def Looks (updates : S → List U) : Phase S U → Prop
  | reading => True
  | writing _ s rest => rest = updates s
  | _ => False

end Phase

/-- No task is at work on the value. -/
def start (v : σ) : Config ι (Cell ι σ S) (Phase S U) := ⟨⟨v, none, ∅, 0, []⟩, fun _ => .outside⟩

section

variable (apply : σ → U → σ) (updates : S → List U)

/-- The value after some sections. -/
def written (v : σ) (sections : List (Nat × S)) : σ :=
  (sections.flatMap fun e => updates e.2).foldl apply v

@[simp] theorem written_nil (v : σ) : written apply updates v [] = v := rfl

theorem written_append (v : σ) (before after : List (Nat × S)) :
    written apply updates v (before ++ after) =
      written apply updates (written apply updates v before) after := by
  simp [written]

@[simp] theorem written_cons (v : σ) (e : Nat × S) (rest : List (Nat × S)) :
    written apply updates v (e :: rest) =
      written apply updates ((updates e.2).foldl apply v) rest := by
  simp [written]

variable [DecidableEq ι]

inductive Move (i : ι) : Cell ι σ S → Phase S U → Cell ι σ S → Phase S U → Prop
  | enter (s : S) : Move i c .outside { c with next := c.next + 1 } (.waiting c.next s)
  | leave : Move i c (.waiting n s) c .outside
  | lock : c.writer = none → c.readers = ∅ →
    Move i c (.waiting n s) { c with writer := some i } (.writing n s (updates s))
  | update : Move i c (.writing n s (u :: rest)) { c with value := apply c.value u }
    (.writing n s rest)
  | unlock : Move i c (.writing n s [])
    { c with writer := none, done := c.done ++ [(n, s)] } .outside
  | lockRead : c.writer = none →
    Move i c .outside { c with readers := insert i c.readers } .reading
  | unlockRead : Move i c .reading { c with readers := c.readers.erase i } .outside
  | stay : Move i c t c t

abbrev Run : Config ι (Cell ι σ S) (Phase S U) → Config ι (Cell ι σ S) (Phase S U) → Prop :=
  Interleaving.Run (Move apply updates)

end

/-! ## What holds throughout -/

/-- The lock knows who holds it, and nobody reads while somebody writes. -/
structure Held (c : Config ι (Cell ι σ S) (Phase S U)) : Prop where
  writer : ∀ i, c.shared.writer = some i ↔ (c.locals i).IsWriting
  readers : ∀ i, i ∈ c.shared.readers ↔ c.locals i = .reading
  apart : c.shared.writer ≠ none → c.shared.readers = ∅

theorem held_start (v : σ) : Held (start v : Config ι (Cell ι σ S) (Phase S U)) where
  writer i := by simp [start, Phase.IsWriting]
  readers i := by simp [start]
  apart h := by simp [start]

theorem Held.writing_unique {c : Config ι (Cell ι σ S) (Phase S U)} (h : Held c)
    (hi : (c.locals i).IsWriting) (hj : (c.locals j).IsWriting) : i = j :=
  Option.some.inj (((h.writer i).2 hi).symm.trans ((h.writer j).2 hj))

theorem Held.nobody {c : Config ι (Cell ι σ S) (Phase S U)} (h : Held c)
    (hnone : c.shared.writer = none) (j : ι) : ¬(c.locals j).IsWriting :=
  fun hj => absurd (hnone.symm.trans ((h.writer j).2 hj)) nofun

/-- The numbers given out so far, each to one section. -/
structure Numbered (c : Config ι (Cell ι σ S) (Phase S U)) : Prop where
  done_lt : ∀ e ∈ c.shared.done, e.1 < c.shared.next
  nodup : (c.shared.done.map Prod.fst).Nodup
  open_lt : ∀ i, ∀ n ∈ (c.locals i).number?, n < c.shared.next
  open_not_done : ∀ i, ∀ n ∈ (c.locals i).number?, n ∉ c.shared.done.map Prod.fst
  inj : ∀ i j, ∀ n ∈ (c.locals i).number?, n ∈ (c.locals j).number? → i = j

theorem numbered_start (v : σ) : Numbered (start v : Config ι (Cell ι σ S) (Phase S U)) where
  done_lt e he := by simp [start] at he
  nodup := by simp [start]
  open_lt i n hn := by simp [start, Phase.number?] at hn
  open_not_done i n hn := by simp [start, Phase.number?] at hn
  inj i j n hn := by simp [start, Phase.number?] at hn

/-- While nobody writes, the value is what whole sections have made of it; the task that writes has
applied the first of its updates to such a value. -/
structure Whole (apply : σ → U → σ) (updates : S → List U) (v : σ)
    (c : Config ι (Cell ι σ S) (Phase S U)) : Prop where
  held : Held c
  idle : c.shared.writer = none → c.shared.value = written apply updates v c.shared.done
  busy : ∀ i n s rest, c.locals i = .writing n s rest → ∃ applied, updates s = applied ++ rest ∧
    c.shared.value = applied.foldl apply (written apply updates v c.shared.done)

theorem whole_start (apply : σ → U → σ) (updates : S → List U) (v : σ) :
    Whole apply updates v (start v : Config ι (Cell ι σ S) (Phase S U)) where
  held := held_start v
  idle _ := by simp [start]
  busy i n s rest hi := by simp [start] at hi

variable [DecidableEq ι] {apply : σ → U → σ} {updates : S → List U}
  {c : Config ι (Cell ι σ S) (Phase S U)} {d : Cell ι σ S} {t : Phase S U} {i : ι}

/-! ## Who holds the lock -/

/-- The lock is kept up to date by the task that moves. -/
theorem Held.update (h : Held c)
    (hwriter : ∀ j, j ≠ i → (d.writer = some j ↔ c.shared.writer = some j))
    (hreaders : ∀ j, j ≠ i → (j ∈ d.readers ↔ j ∈ c.shared.readers))
    (hself : d.writer = some i ↔ t.IsWriting) (hlook : i ∈ d.readers ↔ t = .reading)
    (hapart : d.writer ≠ none → d.readers = ∅) : Held ⟨d, Function.update c.locals i t⟩ where
  writer j := by
    rcases eq_or_ne j i with rfl | hne
    · simpa using hself
    · simpa [Function.update_of_ne hne, hwriter j hne] using h.writer j
  readers j := by
    rcases eq_or_ne j i with rfl | hne
    · simpa using hlook
    · simpa [Function.update_of_ne hne, hreaders j hne] using h.readers j
  apart := hapart

theorem Held.step (h : Held c) (hs : Move apply updates i c.shared (c.locals i) d t) :
    Held ⟨d, Function.update c.locals i t⟩ := by
  have hwriter := h.writer i
  have hreaders := h.readers i
  generalize c.locals i = t₀ at hs hwriter hreaders
  cases hs with
  | enter | leave | update | stay =>
    exact h.update (fun _ _ => .rfl) (fun _ _ => .rfl) (by simpa [Phase.IsWriting] using hwriter)
      (by simpa using hreaders) h.apart
  | lock hnone hempty =>
    refine h.update (fun j hne => ?_) (fun _ _ => .rfl) (by simp [Phase.IsWriting])
      (by simpa using hreaders) (fun _ => hempty)
    simp [hnone, hne.symm]
  | unlock =>
    have hi : c.shared.writer = some i := hwriter.2 trivial
    refine h.update (fun j hne => ?_) (fun _ _ => .rfl) (by simp [Phase.IsWriting])
      (by simpa using hreaders) (fun hw => absurd rfl hw)
    simp [hi, hne.symm]
  | lockRead hnone =>
    refine h.update (fun _ _ => .rfl) (fun j hne => ?_) (by simpa [Phase.IsWriting] using hwriter)
      (by simp) (fun hw => absurd hnone hw)
    simp [hne]
  | unlockRead =>
    refine h.update (fun _ _ => .rfl) (fun j hne => ?_) (by simpa [Phase.IsWriting] using hwriter)
      (by simp) (fun hw => ?_)
    · simp [hne]
    · simp [h.apart hw]

theorem Run.held (h : Run apply updates (start v) c) : Held c :=
  h.invariant Held.step (held_start v)

/-! ## Numbers -/

/-- A task that takes no new number, and completes nothing, keeps the numbers. -/
theorem Numbered.keep (h : Numbered c) (hnext : d.next = c.shared.next)
    (hdone : d.done = c.shared.done) (ht : ∀ n ∈ t.number?, n ∈ (c.locals i).number?) :
    Numbered ⟨d, Function.update c.locals i t⟩ := by
  have hle (j : ι) : ∀ n ∈ (Function.update c.locals i t j).number?, n ∈ (c.locals j).number? := by
    rcases eq_or_ne j i with rfl | hne
    · simpa using ht
    · simp [Function.update_of_ne hne]
  constructor
  · simpa only [hnext, hdone] using h.done_lt
  · simpa only [hdone] using h.nodup
  · intro j n hn
    simpa only [hnext] using h.open_lt j n (hle j n hn)
  · intro j n hn
    simpa only [hdone] using h.open_not_done j n (hle j n hn)
  · intro j k n hj hk
    exact h.inj j k n (hle j n hj) (hle k n hk)

/-- A new section takes the next number. -/
theorem Numbered.enter (h : Numbered c) (s : S) :
    Numbered ⟨{ c.shared with next := c.shared.next + 1 },
      Function.update c.locals i (.waiting c.shared.next s)⟩ := by
  -- The task that moves has the next number, the others have an older one.
  have hnum (j : ι) (n : Nat)
      (hn : n ∈ (Function.update c.locals i (.waiting c.shared.next s) j).number?) :
      (j = i ∧ n = c.shared.next) ∨ (n ∈ (c.locals j).number? ∧ n < c.shared.next) := by
    rcases eq_or_ne j i with rfl | hne
    · simp [Phase.number?] at hn
      exact .inl ⟨rfl, hn.symm⟩
    · rw [Function.update_of_ne hne] at hn
      exact .inr ⟨hn, h.open_lt j n hn⟩
  constructor
  · exact fun e he => (h.done_lt e he).trans (Nat.lt_succ_self _)
  · exact h.nodup
  · intro j n hn
    rcases hnum j n hn with ⟨-, rfl⟩ | ⟨-, hlt⟩
    · exact Nat.lt_succ_self _
    · exact hlt.trans (Nat.lt_succ_self _)
  · intro j n hn hmem
    rcases hnum j n hn with ⟨-, rfl⟩ | ⟨hold, -⟩
    · obtain ⟨e, he, heq⟩ := List.mem_map.1 hmem
      exact (h.done_lt e he).ne heq
    · exact h.open_not_done j n hold hmem
  · intro j k n hj hk
    rcases hnum j n hj with ⟨rfl, rfl⟩ | ⟨hj, hlt⟩ <;> rcases hnum k _ hk with ⟨rfl, hkn⟩ | ⟨hk, hk'⟩
    · rfl
    · exact absurd hk' (lt_irrefl _)
    · exact absurd hkn hlt.ne
    · exact h.inj j k n hj hk

/-- A section that ends is done under its number. -/
theorem Numbered.unlock (h : Numbered c) (hi : c.locals i = .writing n s []) :
    Numbered ⟨{ c.shared with writer := none, done := c.shared.done ++ [(n, s)] },
      Function.update c.locals i .outside⟩ := by
  have hn : n ∈ (c.locals i).number? := by simp [hi, Phase.number?]
  have hnum (j : ι) (m : Nat) (hm : m ∈ (Function.update c.locals i .outside j).number?) :
      j ≠ i ∧ m ∈ (c.locals j).number? := by
    rcases eq_or_ne j i with rfl | hne
    · simp [Phase.number?] at hm
    · exact ⟨hne, by rwa [Function.update_of_ne hne] at hm⟩
  constructor
  · intro e he
    rcases List.mem_append.1 he with he | he
    · exact h.done_lt e he
    · rw [List.mem_singleton.1 he]
      exact h.open_lt i n hn
  · rw [List.map_append]
    refine h.nodup.append (List.nodup_singleton _) ?_
    simpa using h.open_not_done i n hn
  · exact fun j m hm => h.open_lt j m (hnum j m hm).2
  · intro j m hm hmem
    obtain ⟨hne, hm⟩ := hnum j m hm
    rw [List.map_append, List.mem_append] at hmem
    rcases hmem with hmem | hmem
    · exact h.open_not_done j m hm hmem
    · rw [List.mem_singleton.1 hmem] at hm
      exact hne (h.inj j i n hm hn)
  · exact fun j k m hj hk => h.inj j k m (hnum j m hj).2 (hnum k m hk).2

theorem Numbered.step (h : Numbered c) (hs : Move apply updates i c.shared (c.locals i) d t) :
    Numbered ⟨d, Function.update c.locals i t⟩ := by
  generalize ht₀ : c.locals i = t₀ at hs
  cases hs with
  | enter s => exact h.enter s
  | unlock => exact h.unlock ht₀
  | leave | lock | update | lockRead | unlockRead | stay =>
    exact h.keep rfl rfl (by simp [ht₀, Phase.number?])

theorem Run.numbered (h : Run apply updates (start v) c) : Numbered c :=
  h.invariant Numbered.step (numbered_start v)

/-! ## The value -/

/-- Steps beside the writing ones leave the value to whom it belongs. -/
theorem Whole.keep {v : σ} (h : Whole apply updates v c)
    (hs : Move apply updates i c.shared (c.locals i) d t)
    (hvalue : d.value = c.shared.value) (hdone : d.done = c.shared.done)
    (hwriter : d.writer = c.shared.writer) (ht : ¬ t.IsWriting) :
    Whole apply updates v ⟨d, Function.update c.locals i t⟩ where
  held := h.held.step hs
  idle := by simpa only [hvalue, hdone, hwriter] using h.idle
  busy j n s rest hj := by
    rcases eq_or_ne j i with rfl | hne
    · simp only [Function.update_self] at hj
      exact absurd (hj ▸ trivial) ht
    · simp only [Function.update_of_ne hne] at hj
      simpa only [hvalue, hdone] using h.busy j n s rest hj

/-- If no other task writes, the value belongs to the task that moves. -/
theorem Whole.own {v : σ} (hheld : Held ⟨d, Function.update c.locals i t⟩)
    (hothers : ∀ j, j ≠ i → ¬(c.locals j).IsWriting)
    (hidle : d.writer = none → d.value = written apply updates v d.done)
    (hbusy : ∀ n s rest, t = .writing n s rest → ∃ applied, updates s = applied ++ rest ∧
      d.value = applied.foldl apply (written apply updates v d.done)) :
    Whole apply updates v ⟨d, Function.update c.locals i t⟩ where
  held := hheld
  idle := hidle
  busy j n s rest hj := by
    rcases eq_or_ne j i with rfl | hne
    · simp only [Function.update_self] at hj
      exact hbusy n s rest hj
    · simp only [Function.update_of_ne hne] at hj
      exact absurd (hj ▸ trivial) (hothers j hne)

theorem Whole.step {v : σ} (h : Whole apply updates v c)
    (hs : Move apply updates i c.shared (c.locals i) d t) :
    Whole apply updates v ⟨d, Function.update c.locals i t⟩ := by
  have hheld := h.held.step hs
  have hs' := hs
  generalize ht₀ : c.locals i = t₀ at hs'
  cases hs' with
  | enter | leave | lockRead | unlockRead =>
    exact h.keep hs rfl rfl rfl id
  | stay =>
    rw [← ht₀, Function.update_eq_self]
    exact h
  | lock hnone _ =>
    apply Whole.own hheld fun j _ => h.held.nobody hnone j
    · exact fun hw => absurd hw nofun
    · rintro n s rest ⟨⟩
      exact ⟨[], rfl, h.idle hnone⟩
  | @update n s u rest =>
    have hi : (c.locals i).IsWriting := ht₀ ▸ trivial
    obtain ⟨applied, hupdates, hvalue⟩ := h.busy i _ _ _ ht₀
    apply Whole.own hheld fun j hne hj => hne (h.held.writing_unique hj hi)
    · exact fun hw => absurd (((h.held.writer i).2 hi).symm.trans hw) nofun
    · rintro n s rest ⟨⟩
      exact ⟨applied ++ [u], by simp [hupdates], by simp [hvalue]⟩
  | @unlock n s =>
    have hi : (c.locals i).IsWriting := ht₀ ▸ trivial
    obtain ⟨applied, hupdates, hvalue⟩ := h.busy i _ _ _ ht₀
    rw [List.append_nil] at hupdates
    apply Whole.own hheld fun j hne hj => hne (h.held.writing_unique hj hi)
    · simp [written_append, hupdates, hvalue]
    · exact fun n s rest hj => nomatch hj

theorem Run.whole (h : Run apply updates (start v) c) : Whole apply updates v c :=
  h.invariant Whole.step (whole_start apply updates v)

/-- Whoever looks at the value sees what whole sections have made of it. -/
theorem Run.seen (h : Run apply updates (start v) c) (hi : (c.locals i).Looks updates) :
    c.shared.value = written apply updates v c.shared.done := by
  obtain ⟨hheld, hidle, hbusy⟩ := h.whole
  cases ht : c.locals i with
  | outside | waiting =>
    rw [ht] at hi
    exact hi.elim
  | reading =>
    apply hidle
    by_contra hw
    have hmem := (hheld.readers i).2 ht
    rw [hheld.apart hw] at hmem
    exact absurd hmem (Finset.notMem_empty i)
  | writing n s rest =>
    obtain ⟨applied, hupdates, hvalue⟩ := hbusy i n s rest ht
    rw [ht] at hi
    have hnil : applied = [] := by
      rw [← show rest = updates s from hi] at hupdates
      exact List.self_eq_append_left.1 hupdates
    simpa [hnil] using hvalue

end LockedSections
