/-!
# Services

A service answers one call after another and changes its state with each. Two services give the
same answers exactly as long as the calls fit (`answers_eq_iff`), and a service keeps apart what
calls of different clients see if a call leaves what the others see alone (`answersTo_eq`).
-/

namespace Service

variable {κ σ σ' α : Type}

/-- The answers to some calls. -/
def answers (serve : κ → σ → α × σ) : List κ → σ → List α
  | [], _ => []
  | c :: calls, s => (serve c s).1 :: answers serve calls (serve c s).2

/-- `P` holds of each call in the state that it finds. -/
def Along (serve : κ → σ → α × σ) (P : κ → σ → Prop) : List κ → σ → Prop
  | [], _ => True
  | c :: calls, s => P c s ∧ Along serve P calls (serve c s).2

/-- The answers to one client. -/
def answersTo (serve : κ → σ → α × σ) (own : κ → Bool) : List κ → σ → List α
  | [], _ => []
  | c :: calls, s =>
    if own c then (serve c s).1 :: answersTo serve own calls (serve c s).2
    else answersTo serve own calls (serve c s).2

variable {serve : κ → σ → α × σ} {serve' : κ → σ' → α × σ'} {P : κ → σ → Prop}
  {calls : List κ}

/-- Services in related states: a call has the same answer exactly if it fits, and then it leaves
them in related states. -/
theorem answers_eq_iff {R : σ → σ' → Prop} {fits : κ → σ' → Prop} {s : σ} {s' : σ'} (h : R s s')
    (hanswer : ∀ c ∈ calls, ∀ s s', R s s' → ((serve c s).1 = (serve' c s').1 ↔ fits c s'))
    (hkeep : ∀ c ∈ calls, ∀ s s', R s s' → fits c s' → R (serve c s).2 (serve' c s').2) :
    answers serve calls s = answers serve' calls s' ↔ Along serve' fits calls s' := by
  induction calls generalizing s s' with
  | nil => exact iff_of_true rfl trivial
  | cons c calls ih =>
    have hc := hanswer c List.mem_cons_self s s' h
    have hrest (hfits : fits c s') := ih (hkeep c List.mem_cons_self s s' h hfits)
      (fun d hd => hanswer d (List.mem_cons_of_mem c hd))
      (fun d hd => hkeep d (List.mem_cons_of_mem c hd))
    rw [answers, answers, List.cons.injEq, Along]
    constructor
    · rintro ⟨hfirst, hanswers⟩
      exact ⟨hc.mp hfirst, (hrest (hc.mp hfirst)).mp hanswers⟩
    · rintro ⟨hfits, halong⟩
      exact ⟨hc.mpr hfits, (hrest hfits).mpr halong⟩

/-- What holds of each call that fits in related states. -/
theorem along_of_fits {R : σ → σ' → Prop} {fits : κ → σ' → Prop} {s : σ} {s' : σ'} (h : R s s')
    (halong : Along serve' fits calls s')
    (hP : ∀ c ∈ calls, ∀ s s', R s s' → fits c s' → P c s)
    (hkeep : ∀ c ∈ calls, ∀ s s', R s s' → fits c s' → R (serve c s).2 (serve' c s').2) :
    Along serve P calls s := by
  induction calls generalizing s s' with
  | nil => trivial
  | cons c calls ih =>
    obtain ⟨hfits, hrest⟩ := halong
    exact ⟨hP c List.mem_cons_self s s' h hfits,
      ih (hkeep c List.mem_cons_self s s' h hfits) hrest
        (fun d hd => hP d (List.mem_cons_of_mem c hd))
        (fun d hd => hkeep d (List.mem_cons_of_mem c hd))⟩

/-- A client gets the answers that it would get alone: its calls look at nothing but its view, and
the others' calls leave its view alone. -/
theorem answersTo_eq {own : κ → Bool} {V : σ → σ → Prop} {s t : σ} (h : V s t)
    (hown : ∀ c ∈ calls, own c = true → ∀ s t, V s t →
      (serve c s).1 = (serve c t).1 ∧ V (serve c s).2 (serve c t).2)
    (hother : ∀ c ∈ calls, own c = false → ∀ s t, V s t → V (serve c s).2 t) :
    answersTo serve own calls s = answers serve (calls.filter own) t := by
  induction calls generalizing s t with
  | nil => rfl
  | cons c calls ih =>
    have hrest {s t : σ} (h : V s t) := ih h
      (fun d hd => hown d (List.mem_cons_of_mem c hd))
      (fun d hd => hother d (List.mem_cons_of_mem c hd))
    rw [answersTo]
    cases hc : own c with
    | true =>
      obtain ⟨hanswer, hview⟩ := hown c List.mem_cons_self hc s t h
      rw [if_pos rfl, List.filter_cons_of_pos hc, answers, hanswer, hrest hview]
    | false =>
      rw [if_neg Bool.false_ne_true, List.filter_cons_of_neg (by rw [hc]; exact Bool.false_ne_true)]
      exact hrest (hother c List.mem_cons_self hc s t h)

end Service
