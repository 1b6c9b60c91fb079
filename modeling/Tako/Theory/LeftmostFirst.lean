import Mathlib.Data.List.Basic
import Mathlib.Logic.Relation

/-!
# Leftmost-first search

A backtracking search tries the matches of an expression in an order of preference: more
repetitions before fewer, and what is optional before its absence. `ends` lists them in that order.
A search takes the first match at the leftmost place that has one, and goes on behind it
(`findIter`). A match that no earlier one runs into is found (`mem_findFrom`). Where the first match
is the longest, what is found can be told without the order of preference
(`LongestFirst.mem_findIter_iff`).
-/

namespace LeftmostFirst

/-- Between `b` and `s`, the beginnings of `s` that match, each with what is left of `s`. -/
abbrev Ends (α : Type u) := (b s : List α) → List (List α × List α)

inductive Expr (α : Type u)
  | sat (p : α → Bool)
  | look (p : List α → List α → Bool)
  | cat (r t : Expr α)
  | opt (r : Expr α)
  | rep (r : Expr α) (least more : Nat)

variable {α : Type u}

def andThen (f g : Ends α) : Ends α := fun b s =>
  (f b s).flatMap fun e => (g (b ++ e.1) e.2).map fun e' => (e.1 ++ e'.1, e'.2)

def upTo (f : Ends α) : Nat → Ends α
  | 0 => fun _ s => [([], s)]
  | more + 1 => fun b s => andThen f (upTo f more) b s ++ [([], s)]

/-- At least `least` times, and up to `more` times more. -/
def times (f : Ends α) (least more : Nat) : Ends α :=
  match least with
  | 0 => upTo f more
  | least + 1 => andThen f (times f least more)

def satEnds (p : α → Bool) : Ends α
  | _, [] => []
  | _, c :: s => if p c then [([c], s)] else []

def ends : Expr α → Ends α
  | .sat p => satEnds p
  | .look p => fun b s => if p b s then [([], s)] else []
  | .cat r t => andThen (ends r) (ends t)
  | .opt r => fun b s => ends r b s ++ [([], s)]
  | .rep r least more => times (ends r) least more

/-- All matches from a place on, each between what stands before and after it. No match is empty,
so the length of `s` is enough fuel. -/
def findFrom (r : Expr α) : Nat → (b s : List α) → List (List α × List α × List α)
  | 0, _, _ => []
  | n + 1, b, s =>
    match (ends r b s).head? with
    | some e => (b, e.1, e.2) :: findFrom r n (b ++ e.1) e.2
    | none =>
      match s with
      | [] => []
      | c :: s => findFrom r n (b ++ [c]) s

def findIter (r : Expr α) (s : List α) : List (List α × List α × List α) :=
  findFrom r (s.length + 1) [] s

/-! ## What is matched -/

/-- What is consumed and what is left are the text. -/
def Splits (f : Ends α) : Prop := ∀ b s, ∀ e ∈ f b s, e.1 ++ e.2 = s

theorem mem_andThen {f g : Ends α} : e ∈ andThen f g b s ↔
    ∃ e₁ ∈ f b s, ∃ e₂ ∈ g (b ++ e₁.1) e₁.2, e = (e₁.1 ++ e₂.1, e₂.2) := by
  simp only [andThen, List.mem_flatMap, List.mem_map, eq_comm]

theorem Splits.andThen {f g : Ends α} (hf : Splits f) (hg : Splits g) :
    Splits (andThen f g) := by
  intro b s e he
  obtain ⟨e₁, h₁, e₂, h₂, rfl⟩ := mem_andThen.1 he
  rw [List.append_assoc, hg _ _ e₂ h₂, hf _ _ e₁ h₁]

theorem Splits.times {f : Ends α} (hf : Splits f) (least more : Nat) :
    Splits (LeftmostFirst.times f least more) := by
  induction least with
  | zero =>
    change Splits (upTo f more)
    induction more with
    | zero =>
      intro b s e he
      obtain rfl := List.mem_singleton.1 he
      rfl
    | succ more ih =>
      intro b s e he
      obtain he | he := List.mem_append.1 he
      · exact hf.andThen ih b s e he
      · obtain rfl := List.mem_singleton.1 he
        rfl
  | succ least ih => exact hf.andThen ih

theorem splits_ends (r : Expr α) : Splits (ends r) := by
  induction r with
  | sat p =>
    intro b s e he
    cases s with
    | nil => cases he
    | cons c s =>
      change e ∈ (if p c then [([c], s)] else []) at he
      split at he
      · obtain rfl := List.mem_singleton.1 he
        rfl
      · cases he
  | look p =>
    intro b s e he
    unfold ends at he
    split at he
    · obtain rfl := List.mem_singleton.1 he
      rfl
    · cases he
  | cat r t ihr iht => exact ihr.andThen iht
  | opt r ih =>
    intro b s e he
    obtain he | he := List.mem_append.1 he
    · exact ih b s e he
    · obtain rfl := List.mem_singleton.1 he
      rfl
  | rep r least more ih => exact ih.times least more

/-- A repetition goes on with one more match, where there is any. -/
theorem times_eq (f : Ends α) {least more : Nat} (h : 0 < least + more) :
    ∃ least' more', least' = least - 1 ∧ least' + more' + 1 = least + more ∧
      ∀ b s, ∃ rest, times f least more b s = andThen f (times f least' more') b s ++ rest := by
  cases least with
  | zero =>
    cases more with
    | zero => exact absurd h (Nat.lt_irrefl 0)
    | succ more => exact ⟨0, more, rfl, by omega, fun b s => ⟨_, rfl⟩⟩
  | succ least =>
    exact ⟨least, more, rfl, by omega, fun b s => ⟨[], (List.append_nil _).symm⟩⟩

theorem times_zero_of_stuck {f : Ends α} (h : f b s = []) (more : Nat) :
    times f 0 more b s = [([], s)] := by
  cases more with
  | zero => rfl
  | succ more =>
    change (f b s).flatMap _ ++ _ = _
    rw [h]
    rfl

theorem look_andThen (p : List α → List α → Bool) (g : Ends α) (b s : List α) :
    andThen (ends (.look p)) g b s = if p b s then g b s else [] := by
  change (if p b s then [([], s)] else []).flatMap _ = _
  split
  · rw [List.flatMap_singleton]
    simp only [List.append_nil, List.nil_append, List.map_id']
  · rfl

theorem andThen_look (f : Ends α) (p : List α → List α → Bool) (b s : List α) :
    andThen f (ends (.look p)) b s = (f b s).filter fun e => p (b ++ e.1) e.2 := by
  unfold andThen
  induction f b s with
  | nil => rfl
  | cons e l ih =>
    rw [List.flatMap_cons, ih, List.filter_cons]
    change (if p (b ++ e.1) e.2 then [([], e.2)] else []).map _ ++ _ = _
    split
    · rw [List.map_singleton, List.append_nil]
      rfl
    · rfl

/-- What is preferred of a sequence begins with what is preferred of its first part, if the second
part can pass there. -/
theorem filter_andThen {f g : Ends α} {p : List α → List α → Bool} (hf : f b s = (m, s') :: l)
    (hg : (g (b ++ m) s').filter (fun e => p (b ++ m ++ e.1) e.2) = e :: tail) :
    ∃ tail', (andThen f g b s).filter (fun e => p (b ++ e.1) e.2) = (m ++ e.1, e.2) :: tail' := by
  unfold andThen
  rw [hf, List.flatMap_cons, List.filter_append, List.filter_map]
  have hcomp : ((fun e : List α × List α => p (b ++ e.1) e.2) ∘
      fun e' : List α × List α => (m ++ e'.1, e'.2)) = fun e => p (b ++ m ++ e.1) e.2 := by
    funext e
    rw [Function.comp, List.append_assoc]
  dsimp only
  rw [hcomp, hg]
  exact ⟨_, rfl⟩

/-- The first match of a repetition goes on behind the first match of its body. -/
theorem filter_times_of_first {f : Ends α} (p : List α → List α → Bool) {least more : Nat}
    (h : 0 < least + more) (hf : f b s = (m, s') :: l) :
    ∃ least' more', least' = least - 1 ∧ least' + more' + 1 = least + more ∧ ∀ e tail,
      ((times f least' more' (b ++ m) s').filter fun e => p (b ++ m ++ e.1) e.2) = e :: tail →
      ∃ tail', ((times f least more b s).filter fun e => p (b ++ e.1) e.2) =
        (m ++ e.1, e.2) :: tail' := by
  obtain ⟨least', more', hleast, hsum, htimes⟩ := times_eq f h
  refine ⟨least', more', hleast, hsum, fun e tail hg => ?_⟩
  obtain ⟨rest, hrest⟩ := htimes b s
  obtain ⟨tail', htail⟩ := filter_andThen hf hg
  refine ⟨tail' ++ rest.filter fun e => p (b ++ e.1) e.2, ?_⟩
  rw [hrest, List.filter_append, htail]
  rfl

/-! ## What is found -/

variable {r : Expr α}

theorem findFrom_of_some {n : Nat} (h : (ends r b s).head? = some e) :
    findFrom r (n + 1) b s = (b, e.1, e.2) :: findFrom r n (b ++ e.1) e.2 := by
  cases s <;> simp only [findFrom, h]

theorem findFrom_of_none {n : Nat} (h : (ends r b (c :: s)).head? = none) :
    findFrom r (n + 1) b (c :: s) = findFrom r n (b ++ [c]) s := by
  simp only [findFrom, h]

theorem findFrom_nil_of_none {n : Nat} (h : (ends r b []).head? = none) :
    findFrom r (n + 1) b [] = [] := by
  simp only [findFrom, h]

/-- What is found is a match in its place. -/
theorem mem_ends_of_mem_findFrom {n : Nat} (h : t ∈ findFrom r n b s) :
    (t.2.1, t.2.2) ∈ ends r t.1 (t.2.1 ++ t.2.2) ∧ t.1 ++ (t.2.1 ++ t.2.2) = b ++ s ∧
      b <+: t.1 := by
  induction n generalizing b s with
  | zero => cases h
  | succ n ih =>
    cases hhead : (ends r b s).head? with
    | some e =>
      have he := List.mem_of_mem_head? hhead
      have hsplit := splits_ends r b s e he
      rw [findFrom_of_some hhead] at h
      obtain rfl | h := List.mem_cons.1 h
      · exact ⟨hsplit.symm ▸ he, congrArg (b ++ ·) hsplit, List.prefix_rfl⟩
      · obtain ⟨hmem, htext, hprefix⟩ := ih h
        refine ⟨hmem, ?_, (List.prefix_append _ _).trans hprefix⟩
        rw [htext, List.append_assoc, hsplit]
    | none =>
      cases s with
      | nil =>
        rw [findFrom_nil_of_none hhead] at h
        cases h
      | cons c s =>
        rw [findFrom_of_none hhead] at h
        obtain ⟨hmem, htext, hprefix⟩ := ih h
        refine ⟨hmem, ?_, (List.prefix_append _ _).trans hprefix⟩
        rw [htext, List.append_assoc]
        rfl

/-- Each match is found behind the one before it. -/
theorem pairwise_findFrom (n : Nat) (b s : List α) :
    (findFrom r n b s).Pairwise fun t u => t.1 ++ t.2.1 <+: u.1 := by
  induction n generalizing b s with
  | zero => exact .nil
  | succ n ih =>
    unfold findFrom
    split
    · exact .cons (fun u hu => (mem_ends_of_mem_findFrom hu).2.2) (ih _ _)
    · split
      · exact .nil
      · exact ih _ _

/-- No match of the expression is empty. -/
def NonEmpty (r : Expr α) : Prop := ∀ b s, ∀ e ∈ ends r b s, e.1 ≠ []

/-- The preferred match at a place is found, if no match from the left runs beyond that place. -/
theorem mem_findFrom {n : Nat} {b₀ s₀ : List α} (hr : NonEmpty r)
    (hfirst : (ends r b₀ s₀).head? = some e)
    (hfree : ∀ b s, b ++ s = b₀ ++ s₀ → b.length < b₀.length → ∀ e ∈ ends r b s,
      (b ++ e.1).length ≤ b₀.length)
    (htext : b ++ s = b₀ ++ s₀) (hle : b.length ≤ b₀.length) (hn : s.length < n) :
    (b₀, e.1, e.2) ∈ findFrom r n b s := by
  induction n generalizing b s with
  | zero => exact absurd hn (Nat.not_lt_zero _)
  | succ n ih =>
    obtain heq | hlt := Nat.eq_or_lt_of_le hle
    · obtain ⟨rfl, rfl⟩ := List.append_inj htext heq
      rw [findFrom_of_some hfirst]
      exact List.mem_cons_self
    · cases hhead : (ends r b s).head? with
      | some e' =>
        have he' := List.mem_of_mem_head? hhead
        have hsplit := splits_ends r b s e' he'
        rw [findFrom_of_some hhead]
        refine List.mem_cons_of_mem _ (ih ?_ (hfree b s htext hlt e' he') ?_)
        · rw [List.append_assoc, hsplit, htext]
        · have := List.length_pos_iff.2 (hr b s e' he')
          have := congrArg List.length hsplit
          rw [List.length_append] at this
          omega
      | none =>
        cases s with
        | nil =>
          have := congrArg List.length htext
          rw [List.append_nil, List.length_append] at this
          omega
        | cons c s =>
          rw [findFrom_of_none hhead]
          refine ih ?_ ?_ (Nat.lt_of_succ_lt_succ hn)
          · rw [← htext, List.append_assoc]
            rfl
          · rw [List.length_append]
            exact hlt

/-! ## The longest match first -/

section Longest

variable (Fits : (b m s : List α) → Prop) (text : List α)

/-- Of what fits behind `b`, the leftmost, and there the longest. -/
structure Next (b : List α) (t : List α × List α × List α) : Prop where
  split : t.1 ++ (t.2.1 ++ t.2.2) = text
  behind : b <+: t.1
  fits : Fits t.1 t.2.1 t.2.2
  longest : ∀ m s, m ++ s = t.2.1 ++ t.2.2 → Fits t.1 m s → m.length ≤ t.2.1.length
  leftmost : ∀ b' m s, b' ++ (m ++ s) = text → b <+: b' → Fits b' m s → t.1.length ≤ b'.length

/-- The search goes on behind what comes next. -/
def Resumes : List α → List α → Prop :=
  Relation.ReflTransGen fun b b' => ∃ t, Next Fits text b t ∧ b' = t.1 ++ t.2.1

/-- What comes next in a search behind `b`, or later. -/
def FoundFrom (b : List α) (t : List α × List α × List α) : Prop :=
  ∃ b', Resumes Fits text b b' ∧ Next Fits text b' t

def Found : List α × List α × List α → Prop := FoundFrom Fits text []

variable {Fits text}

theorem Next.unique (h : Next Fits text b t) (h' : Next Fits text b t') : t = t' := by
  obtain ⟨b₁, m, s⟩ := t
  obtain ⟨b₂, m', s'⟩ := t'
  have hlen := Nat.le_antisymm (h.leftmost _ _ _ h'.split h'.behind h'.fits)
    (h'.leftmost _ _ _ h.split h.behind h.fits)
  obtain ⟨rfl, hrest⟩ := List.append_inj (h.split.trans h'.split.symm) hlen
  have hlen' := Nat.le_antisymm (h'.longest _ _ hrest h.fits) (h.longest _ _ hrest.symm h'.fits)
  obtain ⟨rfl, rfl⟩ := List.append_inj hrest hlen'
  rfl

theorem foundFrom_iff (h : Next Fits text b t) :
    FoundFrom Fits text b t' ↔ t' = t ∨ FoundFrom Fits text (t.1 ++ t.2.1) t' := by
  constructor
  · rintro ⟨b', hb, ht'⟩
    obtain rfl | ⟨_, ⟨u, hu, rfl⟩, hrest⟩ := hb.cases_head
    · exact .inl (ht'.unique h)
    · obtain rfl := hu.unique h
      exact .inr ⟨b', hrest, ht'⟩
  · rintro (rfl | ⟨b', hb, ht'⟩)
    · exact ⟨b, .refl, h⟩
    · exact ⟨b', .head ⟨t, h, rfl⟩ hb, ht'⟩

/-- Where nothing fits, the search goes on at the next place. -/
theorem next_cons_iff {c : α} (htext : b ++ c :: s = text)
    (hnone : ∀ m s', m ++ s' = c :: s → ¬Fits b m s') :
    Next Fits text b t ↔ Next Fits text (b ++ [c]) t := by
  have hbehind {b' m s' : List α} (hsplit : b' ++ (m ++ s') = text) (hb : b <+: b')
      (hfits : Fits b' m s') : b ++ [c] <+: b' := by
    obtain ⟨w, rfl⟩ := hb
    rw [← htext, List.append_assoc] at hsplit
    have hw := List.append_cancel_left hsplit
    cases w with
    | nil =>
      rw [List.append_nil] at hfits
      exact absurd hfits (hnone m s' hw)
    | cons d w =>
      obtain ⟨rfl, -⟩ := List.cons.inj hw
      exact ⟨w, by simp⟩
  have hshorter {b' : List α} (hb : b ++ [c] <+: b') : b <+: b' := (List.prefix_append _ _).trans hb
  constructor
  · rintro ⟨hsplit, hb, hfits, hlongest, hleftmost⟩
    exact ⟨hsplit, hbehind hsplit hb hfits, hfits, hlongest,
      fun b' m s' hs hb' => hleftmost b' m s' hs (hshorter hb')⟩
  · rintro ⟨hsplit, hb, hfits, hlongest, hleftmost⟩
    exact ⟨hsplit, hshorter hb, hfits, hlongest,
      fun b' m s' hs hb' hf => hleftmost b' m s' hs (hbehind hs hb' hf) hf⟩

theorem foundFrom_congr (h : ∀ t, Next Fits text b t ↔ Next Fits text b' t) :
    FoundFrom Fits text b t ↔ FoundFrom Fits text b' t := by
  constructor
  · rintro ⟨c, hc, ht⟩
    obtain rfl | ⟨_, ⟨u, hu, rfl⟩, hrest⟩ := hc.cases_head
    · exact ⟨b', .refl, (h t).1 ht⟩
    · exact ⟨c, .head ⟨u, (h u).1 hu, rfl⟩ hrest, ht⟩
  · rintro ⟨c, hc, ht⟩
    obtain rfl | ⟨_, ⟨u, hu, rfl⟩, hrest⟩ := hc.cases_head
    · exact ⟨b, .refl, (h t).2 ht⟩
    · exact ⟨c, .head ⟨u, (h u).2 hu, rfl⟩ hrest, ht⟩

/-- The matches of the expression are what fits, the longest first. -/
structure LongestFirst (r : Expr α) (Fits : (b m s : List α) → Prop) : Prop where
  mem : ∀ b s e, e ∈ ends r b s ↔ e.1 ++ e.2 = s ∧ Fits b e.1 e.2
  sorted : ∀ b s, (ends r b s).Pairwise fun e e' => e'.1.length ≤ e.1.length

variable {r : Expr α}

theorem LongestFirst.next (hr : LongestFirst r Fits) (htext : b ++ s = text)
    (hhead : (ends r b s).head? = some e) : Next Fits text b (b, e.1, e.2) := by
  obtain ⟨l, hl⟩ := List.head?_eq_some_iff.1 hhead
  obtain ⟨hsplit, hfits⟩ := (hr.mem b s e).1 (List.mem_of_mem_head? hhead)
  refine ⟨?_, List.prefix_rfl, hfits, fun m s' hs hm => ?_, fun b' m s' _ hb _ => hb.length_le⟩
  · rw [hsplit, htext]
  · have hmem := (hr.mem b s (m, s')).2 ⟨hs.trans hsplit, hm⟩
    have hsorted := hr.sorted b s
    rw [hl] at hmem hsorted
    obtain heq | hmem := List.mem_cons.1 hmem
    · subst heq
      exact Nat.le_refl _
    · exact (List.pairwise_cons.1 hsorted).1 _ hmem

theorem LongestFirst.not_fits (hr : LongestFirst r Fits) (hhead : (ends r b s).head? = none) :
    ∀ m s', m ++ s' = s → ¬Fits b m s' := by
  intro m s' hs hfits
  have hmem := (hr.mem b s (m, s')).2 ⟨hs, hfits⟩
  rw [List.head?_eq_none_iff.1 hhead] at hmem
  cases hmem

theorem LongestFirst.mem_findFrom_iff (hr : LongestFirst r Fits) (hne : NonEmpty r) {n : Nat}
    (htext : b ++ s = text) (hn : s.length < n) :
    t ∈ findFrom r n b s ↔ FoundFrom Fits text b t := by
  induction n generalizing b s with
  | zero => exact absurd hn (Nat.not_lt_zero _)
  | succ n ih =>
    cases hhead : (ends r b s).head? with
    | some e =>
      have he := List.mem_of_mem_head? hhead
      have hsplit := splits_ends r b s e he
      have hlt : e.2.length < n := by
        have hpos := List.length_pos_iff.2 (hne b s e he)
        have hlen := congrArg List.length hsplit
        rw [List.length_append] at hlen
        omega
      have htext' : b ++ e.1 ++ e.2 = text := by rw [List.append_assoc, hsplit, htext]
      rw [findFrom_of_some hhead, List.mem_cons, ih htext' hlt, foundFrom_iff (hr.next htext hhead)]
    | none =>
      have hnone := hr.not_fits hhead
      cases s with
      | nil =>
        rw [findFrom_nil_of_none hhead]
        refine iff_of_false List.not_mem_nil ?_
        have hnext (u : List α × List α × List α) : ¬Next Fits text b u := by
          intro hu
          rw [List.append_nil] at htext
          obtain ⟨w, hw⟩ := hu.behind
          have hsplit := hu.split
          rw [← htext, ← hw, List.append_assoc, List.append_right_eq_self,
            List.append_eq_nil_iff] at hsplit
          obtain ⟨rfl, hrest⟩ := hsplit
          rw [List.append_nil] at hw
          exact hnone _ _ hrest (hw ▸ hu.fits)
        rintro ⟨b', hb, ht⟩
        obtain rfl | ⟨_, ⟨u, hu, rfl⟩, -⟩ := hb.cases_head
        · exact hnext t ht
        · exact hnext u hu
      | cons c s =>
        have htext' : b ++ [c] ++ s = text := by rw [← htext, List.append_assoc]; rfl
        rw [findFrom_of_none hhead, ih htext' (Nat.lt_of_succ_lt_succ hn)]
        exact (foundFrom_congr fun u => next_cons_iff htext hnone).symm

/-- A search of an expression that matches the longest first finds the longest that fits at the
leftmost place, and goes on behind it. -/
theorem LongestFirst.mem_findIter_iff (hr : LongestFirst r Fits) (hne : NonEmpty r) :
    t ∈ findIter r text ↔ Found Fits text t :=
  hr.mem_findFrom_iff hne (List.nil_append text) (Nat.lt_succ_self _)

end Longest

end LeftmostFirst
