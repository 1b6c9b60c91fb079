/-!
# Transducers that may stop

A transducer reads items one after the other; with each it emits something and goes on or stops. Its
outputs are in order if good ones come first and then at most one bad one. What an item lets it emit
is the item's `Kind`, and by the kinds alone one sees whether the outputs are in order
(`inOrder_emit_iff`).
-/

namespace Transducer

/-- What comes of an item. -/
structure Step (σ β : Type) where
  out : List β := []
  state : σ
  goesOn : Bool := true

variable {σ ι β : Type} (step : σ → ι → Step σ β)

/-- What is emitted on the way. -/
def emit : σ → List ι → List β
  | _, [] => []
  | s, i :: items =>
    (step s i).out ++ if (step s i).goesOn then emit (step s i).state items else []

/-- The state in which the transducer stops, or the items end. -/
def final : σ → List ι → σ
  | s, [] => s
  | s, i :: items => if (step s i).goesOn then final (step s i).state items else (step s i).state

variable {step} {s : σ} {items : List ι} {I : σ → Prop}

/-- What holds after each step, if it holds at first, holds at last. -/
theorem final_invariant (h : ∀ s, ∀ i ∈ items, I s → I (step s i).state) (hs : I s) :
    I (final step s items) := by
  induction items generalizing s with
  | nil => exact hs
  | cons i items ih =>
    have hstep := h s i List.mem_cons_self hs
    rw [final]
    split
    · exact ih (fun s j hj => h s j (List.mem_cons_of_mem i hj)) hstep
    · exact hstep

/-- What holds where the transducer stops. -/
theorem final_of_stop {stops : ι → Bool} (hgo : ∀ s, ∀ i ∈ items, (step s i).goesOn = !stops i)
    (hI : ∀ s i, stops i = true → I (step s i).state) (h : ∃ i ∈ items, stops i = true) :
    I (final step s items) := by
  induction items generalizing s with
  | nil =>
    obtain ⟨i, hi, -⟩ := h
    cases hi
  | cons i items ih =>
    have hstep := hgo s i List.mem_cons_self
    rw [final, hstep]
    cases hi : stops i with
    | true => exact hI s i hi
    | false =>
      refine ih (fun s j hj => hgo s j (List.mem_cons_of_mem i hj)) ?_
      obtain ⟨j, hj, hstop⟩ := h
      rcases List.mem_cons.1 hj with rfl | hj
      · cases hi.symm.trans hstop
      · exact ⟨j, hj, hstop⟩

/-- A transducer that does not stop is a fold. -/
theorem final_of_goesOn (h : ∀ s, ∀ i ∈ items, (step s i).goesOn = true) :
    final step s items = items.foldl (fun s i => (step s i).state) s := by
  induction items generalizing s with
  | nil => rfl
  | cons i items ih =>
    rw [final, if_pos (h s i List.mem_cons_self), List.foldl_cons]
    exact ih fun s j hj => h s j (List.mem_cons_of_mem i hj)

/-! ## Orders of outputs -/

variable (good bad : β → Prop)

/-- Good outputs, and then at most one bad one. -/
def InOrder : List β → Prop
  | [] => True
  | b :: bs => good b ∧ InOrder bs ∨ bad b ∧ bs = []

/-- What an item lets a transducer emit: good outputs or a bad one. -/
inductive Kind where
  | quiet
  | speaks
  | complains
  | ends (speaks : Bool)
  | fails

/-- The step for an item of a kind. -/
def HasKind (next : Step σ β) : Kind → Prop
  | .quiet => next.out = [] ∧ next.goesOn = true
  | .speaks => next.out ≠ [] ∧ (∀ b ∈ next.out, good b) ∧ next.goesOn = true
  | .complains => (∃ b, bad b ∧ next.out = [b]) ∧ next.goesOn = true
  | .ends speaks =>
    (∀ b ∈ next.out, good b) ∧ (next.out ≠ [] ↔ speaks = true) ∧ next.goesOn = false
  | .fails => (∃ b, bad b ∧ next.out = [b]) ∧ next.goesOn = false

/-- Nothing is emitted. -/
def Silent : List Kind → Prop
  | [] => True
  | .quiet :: kinds => Silent kinds
  | .ends speaks :: _ => speaks = false
  | _ => False

/-- Nothing is emitted after a complaint. -/
def Orderly : List Kind → Prop
  | [] => True
  | .quiet :: kinds | .speaks :: kinds => Orderly kinds
  | .complains :: kinds => Silent kinds
  | .ends _ :: _ | .fails :: _ => True

variable {good bad}

theorem inOrder_iff {bs : List β} : InOrder good bad bs ↔ ∃ ws es, bs = ws ++ es ∧
    (∀ w ∈ ws, good w) ∧ (es = [] ∨ ∃ e, bad e ∧ es = [e]) := by
  induction bs with
  | nil => exact iff_of_true trivial ⟨[], [], rfl, fun _ hw => (nomatch hw), .inl rfl⟩
  | cons b bs ih =>
    constructor
    · rintro (⟨hb, hbs⟩ | ⟨hb, rfl⟩)
      · obtain ⟨ws, es, rfl, hws, hes⟩ := ih.1 hbs
        refine ⟨b :: ws, es, rfl, fun w hw => ?_, hes⟩
        rcases List.mem_cons.1 hw with rfl | hw
        · exact hb
        · exact hws w hw
      · exact ⟨[], [b], rfl, fun _ hw => (nomatch hw), .inr ⟨b, hb, rfl⟩⟩
    · rintro ⟨ws, es, heq, hws, hes⟩
      cases ws with
      | nil =>
        rcases hes with rfl | ⟨e, he, rfl⟩
        · cases heq
        · cases heq
          exact .inr ⟨he, rfl⟩
      | cons w ws =>
        cases heq
        refine .inl ⟨hws b List.mem_cons_self, ih.2 ⟨ws, es, rfl, fun w hw => ?_, hes⟩⟩
        exact hws w (List.mem_cons_of_mem b hw)

theorem inOrder_of_good {bs : List β} (h : ∀ b ∈ bs, good b) : InOrder good bad bs :=
  inOrder_iff.2 ⟨bs, [], (List.append_nil bs).symm, h, .inl rfl⟩

/-- Good outputs make no difference. -/
theorem inOrder_append (hne : ∀ b, good b → ¬bad b) {bs bs' : List β} (h : ∀ b ∈ bs, good b) :
    InOrder good bad (bs ++ bs') ↔ InOrder good bad bs' := by
  induction bs with
  | nil => rfl
  | cons b bs ih =>
    have hb := h b List.mem_cons_self
    rw [← ih fun c hc => h c (List.mem_cons_of_mem b hc)]
    exact ⟨fun h => h.elim And.right fun hbad => absurd hbad.1 (hne b hb), fun h => .inl ⟨hb, h⟩⟩

/-- After a bad output nothing comes. -/
theorem inOrder_bad (hne : ∀ b, good b → ¬bad b) {b : β} (hb : bad b) {bs : List β} :
    InOrder good bad (b :: bs) ↔ bs = [] :=
  ⟨fun h => h.elim (fun hgood => absurd hb (hne b hgood.1)) And.right, fun h => .inr ⟨hb, h⟩⟩

theorem hasKind_of_good {next : Step σ β} {speaks : Bool} (hgood : ∀ b ∈ next.out, good b)
    (hspeaks : next.out ≠ [] ↔ speaks = true) (hgo : next.goesOn = true) :
    HasKind good bad next (if speaks then .speaks else .quiet) := by
  cases speaks with
  | true => exact ⟨hspeaks.2 rfl, hgood, hgo⟩
  | false => exact ⟨by simpa using hspeaks, hgo⟩

theorem HasKind.good_or_bad {next : Step σ β} {k : Kind} (h : HasKind good bad next k) :
    ∀ b ∈ next.out, good b ∨ bad b := by
  intro b hb
  cases k with
  | quiet =>
    rw [h.1] at hb
    cases hb
  | speaks => exact .inl (h.2.1 b hb)
  | ends speaks => exact .inl (h.1 b hb)
  | complains | fails =>
    obtain ⟨⟨c, hc, hout⟩, -⟩ := h
    rw [hout] at hb
    rw [List.mem_singleton.1 hb]
    exact .inr hc

variable {kind : ι → Kind}

theorem good_or_bad (hkind : ∀ s i, I s → HasKind good bad (step s i) (kind i))
    (hI : ∀ s i, I s → (step s i).goesOn = true → I (step s i).state) (hs : I s) :
    ∀ b ∈ emit step s items, good b ∨ bad b := by
  induction items generalizing s with
  | nil => exact fun b hb => nomatch hb
  | cons i items ih =>
    intro b hb
    rw [emit] at hb
    rcases List.mem_append.1 hb with hb | hb
    · exact (hkind s i hs).good_or_bad b hb
    · split at hb
      · next hgo => exact ih (hI s i hs hgo) b hb
      · cases hb

theorem emit_eq_nil_iff (hkind : ∀ s i, I s → HasKind good bad (step s i) (kind i))
    (hI : ∀ s i, I s → (step s i).goesOn = true → I (step s i).state) (hs : I s) :
    emit step s items = [] ↔ Silent (items.map kind) := by
  induction items generalizing s with
  | nil => exact iff_of_true rfl trivial
  | cons i items ih =>
    have hi := hkind s i hs
    rw [emit, List.append_eq_nil_iff, List.map_cons]
    cases hk : kind i with
    | quiet =>
      rw [hk] at hi
      rw [if_pos hi.2, ih (hI s i hs hi.2)]
      exact and_iff_right hi.1
    | speaks =>
      rw [hk] at hi
      exact iff_of_false (fun h => hi.1 h.1) id
    | complains =>
      rw [hk] at hi
      obtain ⟨⟨b, -, hout⟩, -⟩ := hi
      exact iff_of_false (fun h => by cases hout.symm.trans h.1) id
    | ends speaks =>
      rw [hk] at hi
      obtain ⟨-, hspeaks, hstop⟩ := hi
      rw [hstop, if_neg Bool.false_ne_true]
      cases speaks with
      | false => exact iff_of_true ⟨by simpa using hspeaks, rfl⟩ rfl
      | true => exact iff_of_false (fun h => hspeaks.2 rfl h.1) (nomatch ·)
    | fails =>
      rw [hk] at hi
      obtain ⟨⟨b, -, hout⟩, -⟩ := hi
      exact iff_of_false (fun h => by cases hout.symm.trans h.1) id

/-- The outputs are in order exactly if nothing comes after a complaint. -/
theorem inOrder_emit_iff (hne : ∀ b, good b → ¬bad b)
    (hkind : ∀ s i, I s → HasKind good bad (step s i) (kind i))
    (hI : ∀ s i, I s → (step s i).goesOn = true → I (step s i).state) (hs : I s) :
    InOrder good bad (emit step s items) ↔ Orderly (items.map kind) := by
  induction items generalizing s with
  | nil => exact iff_of_true trivial trivial
  | cons i items ih =>
    have hi := hkind s i hs
    rw [emit, List.map_cons]
    cases hk : kind i with
    | quiet =>
      rw [hk] at hi
      rw [hi.1, List.nil_append, if_pos hi.2]
      exact ih (hI s i hs hi.2)
    | speaks =>
      rw [hk] at hi
      rw [inOrder_append hne hi.2.1, if_pos hi.2.2]
      exact ih (hI s i hs hi.2.2)
    | complains =>
      rw [hk] at hi
      obtain ⟨⟨b, hb, hout⟩, hgo⟩ := hi
      rw [hout, List.cons_append, List.nil_append, inOrder_bad hne hb, if_pos hgo]
      exact emit_eq_nil_iff hkind hI (hI s i hs hgo)
    | ends speaks =>
      rw [hk] at hi
      rw [hi.2.2, if_neg Bool.false_ne_true, List.append_nil]
      exact iff_of_true (inOrder_of_good hi.1) trivial
    | fails =>
      rw [hk] at hi
      obtain ⟨⟨b, hb, hout⟩, hstop⟩ := hi
      rw [hout, hstop, if_neg Bool.false_ne_true, List.append_nil]
      exact iff_of_true ((inOrder_bad hne hb).2 rfl) trivial

end Transducer
