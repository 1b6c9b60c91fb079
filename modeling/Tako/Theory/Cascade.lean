import Mathlib.Data.List.Forall2
import Tako.Theory.Traced

/-!
# Cascades

A list of candidates is asked one after another, each in the world that the one before it left,
until the outcome of one of them decides (`poll`). What a cascade does is what everyone would do
(`outcomes`), up to the first outcome that decides (`trace_poll`); the result and the world that is
left are those of the last one asked (`left_poll`).
-/

namespace Cascade

variable {ι ω τ ε α β : Type}

/-! ## A list up to an element -/

/-- A list up to its first element that satisfies `p`, with that element. -/
def upTo (p : β → Bool) : List β → List β
  | [] => []
  | b :: l => b :: if p b then [] else upTo p l

/-- The first element that satisfies `p`, or else the last one. -/
def decider (p : β → Bool) (l : List β) : Option β := (l.find? p).or l.getLast?

section upTo

variable {p : β → Bool} {b : β} {l : List β}

theorem upTo_of_pos (h : p b = true) : upTo p (b :: l) = [b] := by rw [upTo, if_pos h]

theorem upTo_of_neg (h : p b = false) : upTo p (b :: l) = b :: upTo p l := by
  rw [upTo, h, if_neg Bool.false_ne_true]

theorem upTo_eq_take (p : β → Bool) (l : List β) : upTo p l = l.take (l.findIdx p + 1) := by
  induction l with
  | nil => rfl
  | cons b l ih =>
    rw [List.findIdx_cons]
    cases h : p b with
    | true => exact upTo_of_pos h
    | false => rw [upTo_of_neg h, ih, cond_false, List.take_succ_cons]

theorem decider_of_pos (h : p b = true) : decider p (b :: l) = some b := by
  rw [decider, List.find?_cons_of_pos h, Option.some_or]

theorem decider_of_neg (h : p b = false) : decider p (b :: l) = some ((decider p l).getD b) := by
  rw [decider, decider, List.find?_cons_of_neg (by simp [h]), List.getLast?_cons]
  cases l.find? p <;> rfl

theorem exists_decider (p : β → Bool) (b : β) (l : List β) :
    ∃ c, decider p (b :: l) = some c := by
  cases h : p b with
  | true => exact ⟨b, decider_of_pos h⟩
  | false => exact ⟨_, decider_of_neg h⟩

theorem eq_false_of_mem_dropLast_upTo (h : b ∈ (upTo p l).dropLast) : p b = false := by
  induction l with
  | nil => cases h
  | cons c l ih =>
    cases hc : p c with
    | true =>
      rw [upTo_of_pos hc] at h
      cases h
    | false =>
      rw [upTo_of_neg hc] at h
      cases hl : upTo p l with
      | nil =>
        rw [hl] at h
        cases h
      | cons c' l' =>
        rw [hl, List.dropLast_cons_cons, ← hl] at h
        rcases List.mem_cons.mp h with rfl | h
        · exact hc
        · exact ih h

end upTo

/-! ## Asking -/

/-- What everyone does when all are asked. -/
def outcomes (ask : ι → Traced ω τ ε α) : List ι → ω → List (ι × Outcome ω τ ε α)
  | [], _ => []
  | i :: is, w => (i, (ask i).run w) :: outcomes ask is ((ask i).run w).world

/-- The candidates are asked up to the first one whose result decides. Without candidates there is
a result before them. -/
def poll (ask : ι → Traced ω τ ε α) (decides : ι → Except ε α → Bool) :
    Except ε α → List ι → Traced ω τ ε α
  | last, [] => .ofExcept last
  | _, i :: is => do
    let r ← (ask i).attempt
    if decides i r then .ofExcept r else poll ask decides r is

/-- The result of the outcome decides. -/
def Decides (decides : ι → Except ε α → Bool) (o : ι × Outcome ω τ ε α) : Bool :=
  decides o.1 o.2.result

variable {ask : ι → Traced ω τ ε α} {decides : ι → Except ε α → Bool} {i : ι} {is : List ι}
  {w : ω}

theorem map_fst_outcomes (ask : ι → Traced ω τ ε α) (is : List ι) (w : ω) :
    (outcomes ask is w).map Prod.fst = is := by
  induction is generalizing w with
  | nil => rfl
  | cons i is ih => rw [outcomes, List.map_cons, ih]

theorem exists_run_of_mem_outcomes {o : ι × Outcome ω τ ε α} (h : o ∈ outcomes ask is w) :
    ∃ w', o.2 = (ask o.1).run w' := by
  induction is generalizing w with
  | nil => cases h
  | cons i is ih =>
    rw [outcomes] at h
    rcases List.mem_cons.mp h with rfl | h
    · exact ⟨w, rfl⟩
    · exact ih h

theorem run_poll_of_pos (last : Except ε α) (h : Decides decides (i, (ask i).run w) = true) :
    (poll ask decides last (i :: is)).run w = (ask i).run w := by
  have hpos : decides i ((ask i).run w).result = true := h
  rw [poll, Traced.run_bind_ok (a := ((ask i).run w).result) _ rfl, if_pos hpos]
  simp only [Traced.attempt, Traced.run_ofExcept, List.append_nil]

theorem run_poll_of_neg (last : Except ε α) (h : Decides decides (i, (ask i).run w) = false) :
    (poll ask decides last (i :: is)).run w =
      { (poll ask decides ((ask i).run w).result is).run ((ask i).run w).world with
        trace := ((ask i).run w).trace ++
          ((poll ask decides ((ask i).run w).result is).run ((ask i).run w).world).trace } := by
  have hneg : ¬decides i ((ask i).run w).result = true := by
    rw [show decides i ((ask i).run w).result = false from h]
    exact Bool.false_ne_true
  rw [poll, Traced.run_bind_ok (a := ((ask i).run w).result) _ rfl, if_neg hneg]
  rfl

theorem trace_poll (ask : ι → Traced ω τ ε α) (decides : ι → Except ε α → Bool)
    (last : Except ε α) (is : List ι) (w : ω) :
    ((poll ask decides last is).run w).trace =
      (upTo (Decides decides) (outcomes ask is w)).flatMap (·.2.trace) := by
  induction is generalizing last w with
  | nil => cases last <;> rfl
  | cons i is ih =>
    rw [outcomes]
    cases h : Decides decides (i, (ask i).run w) with
    | true => rw [run_poll_of_pos last h, upTo_of_pos h, List.flatMap_singleton]
    | false => rw [run_poll_of_neg last h, upTo_of_neg h, List.flatMap_cons, ih]

/-- Nobody after the one that decides is asked, so it leaves the world. -/
theorem left_poll (ask : ι → Traced ω τ ε α) (decides : ι → Except ε α → Bool)
    (last : Except ε α) (is : List ι) (w : ω) :
    (((poll ask decides last is).run w).result, ((poll ask decides last is).run w).world) =
      ((decider (Decides decides) (outcomes ask is w)).map fun o =>
        (o.2.result, o.2.world)).getD (last, w) := by
  induction is generalizing last w with
  | nil => cases last <;> rfl
  | cons i is ih =>
    rw [outcomes]
    cases h : Decides decides (i, (ask i).run w) with
    | true => rw [run_poll_of_pos last h, decider_of_pos h, Option.map_some, Option.getD_some]
    | false =>
      rw [run_poll_of_neg last h, decider_of_neg h, ih, Option.map_some, Option.getD_some]
      cases decider (Decides decides) (outcomes ask is ((ask i).run w).world) <;> rfl

/-- With a candidate there is no result before them. -/
theorem result_poll_cons (ask : ι → Traced ω τ ε α) (decides : ι → Except ε α → Bool)
    (last : Except ε α) (i : ι) (is : List ι) (w : ω) :
    some ((poll ask decides last (i :: is)).run w).result =
      (decider (Decides decides) (outcomes ask (i :: is) w)).map (·.2.result) := by
  have hleft := congrArg Prod.fst (left_poll ask decides last (i :: is) w)
  obtain ⟨o, ho⟩ := exists_decider (Decides decides) (i, (ask i).run w)
    (outcomes ask is ((ask i).run w).world)
  rw [outcomes, ho] at hleft ⊢
  rw [Option.map_some, ← show _ = o.2.result from hleft]

/-- Where every candidate takes one action. -/
theorem trace_poll_map (act : ι → Except ε α → τ)
    (hact : ∀ i w, ((ask i).run w).trace = [act i ((ask i).run w).result])
    (decides : ι → Except ε α → Bool) (last : Except ε α) (is : List ι) (w : ω) :
    ((poll ask decides last is).run w).trace =
      (upTo (Decides decides) (outcomes ask is w)).map fun o => act o.1 o.2.result := by
  rw [trace_poll, List.map_eq_flatMap]
  refine List.flatMap_congr fun o ho => ?_
  rw [upTo_eq_take] at ho
  obtain ⟨w', hw'⟩ := exists_run_of_mem_outcomes (List.mem_of_mem_take ho)
  rw [hw']
  exact hact o.1 w'

/-! ## Cascades of cascades -/

/-- The result and the world that a computation leaves. -/
def left {τ : Type} (x : Traced ω τ ε α) (w : ω) : Except ε α × ω :=
  ((x.run w).result, (x.run w).world)

section

variable {d : Except ε α → Bool} {last : Except ε α}

theorem left_poll_cons (last : Except ε α) :
    left (poll ask (fun _ => d) last (i :: is)) w =
      if d (left (ask i) w).1 then left (ask i) w
      else left (poll ask (fun _ => d) (left (ask i) w).1 is) (left (ask i) w).2 := by
  cases h : Decides (fun _ => d) (i, (ask i).run w) with
  | true =>
    have hpos : d (left (ask i) w).1 = true := h
    rw [hpos, if_pos rfl, left, run_poll_of_pos last h, left]
  | false =>
    have hneg : d (left (ask i) w).1 = false := h
    rw [hneg, if_neg Bool.false_ne_true, left, run_poll_of_neg last h, left, left]

/-- Candidates after others have their turn where none of those decides. -/
theorem left_poll_append {js : List ι} (h : is ≠ [] ∨ d last = false) :
    left (poll ask (fun _ => d) last (is ++ js)) w =
      if d (left (poll ask (fun _ => d) last is) w).1 then left (poll ask (fun _ => d) last is) w
      else left (poll ask (fun _ => d) (left (poll ask (fun _ => d) last is) w).1 js)
        (left (poll ask (fun _ => d) last is) w).2 := by
  induction is generalizing last w with
  | nil =>
    have hlast : d last = false := h.resolve_left fun hne => hne rfl
    have hnil : left (poll ask (fun _ => d) last []) w = (last, w) := by
      rw [left, poll, Traced.run_ofExcept]
    rw [hnil, hlast, if_neg Bool.false_ne_true, List.nil_append]
  | cons i is ih =>
    rw [List.cons_append, left_poll_cons, left_poll_cons]
    cases hd : d (left (ask i) w).1 with
    | true => simp only [if_true, hd]
    | false =>
      simp only [if_neg Bool.false_ne_true]
      exact ih (.inr hd)

/-- A cascade whose candidates are cascades themselves leaves what one of all their candidates
does. -/
theorem left_poll_flatMap {κ τ' : Type} {ask' : κ → Traced ω τ' ε α} (parts : κ → List ι)
    {ks : List κ} (hne : ∀ k ∈ ks, parts k ≠ [])
    (hask : ∀ k ∈ ks, ∀ last w, left (ask' k) w = left (poll ask (fun _ => d) last (parts k)) w) :
    left (poll ask' (fun _ => d) last ks) w =
      left (poll ask (fun _ => d) last (ks.flatMap parts)) w := by
  induction ks generalizing last w with
  | nil => simp only [left, poll, List.flatMap_nil, Traced.run_ofExcept]
  | cons k ks ih =>
    rw [List.forall_mem_cons] at hne hask
    rw [List.flatMap_cons, left_poll_append (.inl hne.1), left_poll_cons, hask.1 last w]
    cases hd : d (left (poll ask (fun _ => d) last (parts k)) w).1 with
    | true => simp only [if_true]
    | false =>
      simp only [if_neg Bool.false_ne_true]
      exact ih hne.2 hask.2

end

/-! ## More failures that decide -/

section

variable {κ : Type} {ask' : κ → Traced ω τ ε α} {decides' : κ → Except ε α → Bool}

/-- The same candidate, and every failure of it that decided still does. -/
def Stricter (ask : ι → Traced ω τ ε α) (decides : ι → Except ε α → Bool)
    (ask' : κ → Traced ω τ ε α) (decides' : κ → Except ε α → Bool) (i : ι) (j : κ) : Prop :=
  ask i = ask' j ∧ ∀ e, decides i (.error e) = true → decides' j (.error e) = true

/-- A success in spite of more failures that decide is one without them. -/
theorem result_poll_of_stricter {is : List ι} {js : List κ}
    (h : List.Forall₂ (Stricter ask decides ask' decides') is js)
    (hok : ∀ i a, decides i (.ok a) = true) (hok' : ∀ j a, decides' j (.ok a) = true)
    {last last' : Except ε α} (hlast : ∀ a, last' ≠ .ok a) {w : ω} {a : α}
    (hr : ((poll ask' decides' last' js).run w).result = .ok a) :
    ((poll ask decides last is).run w).result = .ok a := by
  induction h generalizing last last' w with
  | nil =>
    rw [poll, Traced.run_ofExcept] at hr
    exact absurd hr (hlast a)
  | @cons i j is js hij _ ih =>
    obtain ⟨hask, hmono⟩ := hij
    cases hres : ((ask i).run w).result with
    | ok b =>
      have hpos : Decides decides (i, (ask i).run w) = true := by rw [Decides, hres]; exact hok i b
      have hpos' : Decides decides' (j, (ask' j).run w) = true := by
        rw [Decides, ← hask, hres]
        exact hok' j b
      rw [run_poll_of_pos _ hpos', ← hask] at hr
      rw [run_poll_of_pos _ hpos, hr]
    | error e =>
      cases hneg' : Decides decides' (j, (ask' j).run w) with
      | true =>
        rw [run_poll_of_pos _ hneg', ← hask, hres] at hr
        cases hr
      | false =>
        have hneg : Decides decides (i, (ask i).run w) = false := by
          rw [Decides, ← hask, hres] at hneg'
          rw [Decides, hres]
          exact Bool.eq_false_iff.mpr fun he => Bool.eq_false_iff.mp hneg' (hmono e he)
        rw [run_poll_of_neg _ hneg', ← hask, hres] at hr
        rw [run_poll_of_neg _ hneg, hres]
        exact ih (fun _ h => by cases h) hr

end

end Cascade
