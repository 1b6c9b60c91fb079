import Tako.Orchestrator.AbMctsTree
import Tako.Orchestrator.Texts
import Tako.Theory.TracedHistory

/-!
# The order of a stream's events

`Progress` is how far a stream of events has come, and `Progress.next` which event may come next:
the steps are begun one after the other, a text belongs to the step under way, the results of tool
calls arrive in the order of the calls and before the next step, and the final output is the last
event. `Loop.runStreaming_orderly` shows that the agent loop keeps to it with any hooks that do.
-/

namespace Tako.Orchestrator

open Traced

/-! ## The order -/

/-- How many steps an orchestrator may begin, and what it may do besides: begin a tool call before
the result of another has arrived, give up results at the end of a step, and begin anew after a
`Recursion`. -/
structure EventRules where
  limit : Nat
  concurrent : Bool := false
  lossy : Bool := false
  recursive : Bool := false

/-- The steps begun, the ids of the tool calls whose results are due, and whether the final output
is out. -/
structure Progress where
  begun : Nat := 0
  due : List String := []
  closed : Bool := false
  deriving DecidableEq

namespace Progress

/-- No result is waited for. -/
def Settled (R : EventRules) (s : Progress) : Prop := R.lossy = true ∨ s.due = []

instance (R : EventRules) (s : Progress) : Decidable (s.Settled R) :=
  inferInstanceAs (Decidable (_ ∨ _))

/-- `none` is an event out of order. -/
def next (R : EventRules) (s : Progress) (e : OrchEvent) : Option Progress :=
  if s.closed then none
  else
    match e with
    | .stepStart step =>
      if step = s.begun ∧ step < R.limit ∧ s.Settled R then some { begun := step + 1 } else none
    | .assistantText step _ => if step + 1 = s.begun ∧ s.due = [] then some s else none
    | .verifierScore step _ _ => if step + 1 = s.begun then some s else none
    | .toolCallStart step _ id =>
      if step + 1 = s.begun ∧ (R.concurrent = true ∨ s.due = []) then
        some { s with due := s.due ++ [id] }
      else none
    | .toolCallResult step id _ _ =>
      if step + 1 = s.begun ∧ s.due.head? = some id then some { s with due := s.due.tail } else none
    | .recursion _ _ => if R.recursive = true ∧ s.Settled R then some {} else none
    | .final _ => if s.Settled R then some { begun := s.begun, closed := true } else none

/-- The automaton on an orchestrator's actions. -/
def act {W : Type} (R : EventRules) (s : Progress) : Act W → Option Progress
  | .yielded e => s.next R e
  | _ => some s

theorem act_of_not_yield {W : Type} (R : EventRules) (s : Progress) {t : Act W}
    (h : ¬t.IsYield) : s.act R t = some s := by
  cases t with
  | yielded e => exact absurd trivial h
  | _ => rfl

/-- Between steps, or in one of them without a call that waits for its result. -/
def during (n : Nat) : Progress := { begun := n }

/-- No result is due, and the stream is open. -/
def Calm (s : Progress) : Prop := s.due = [] ∧ s.closed = false

theorem calm_during (n : Nat) : (during n).Calm := ⟨rfl, rfl⟩

/-! ## What the order comes to -/

def stepStart? : OrchEvent → Option Nat
  | .stepStart step => some step
  | _ => none

def toolCallStart? : OrchEvent → Option String
  | .toolCallStart _ _ id => some id
  | _ => none

def toolCallResult? : OrchEvent → Option String
  | .toolCallResult _ id _ _ => some id
  | _ => none

def final? : OrchEvent → Option OrchOutput
  | .final output => some output
  | _ => none

variable {R : EventRules} {s s' : Progress} {e : OrchEvent} {evs : List OrchEvent}

/-- Nothing follows the final output. -/
theorem next_of_closed (h : s.closed = true) : s.next R e = none := if_pos h

theorem eq_nil_of_closed (hs : s.closed = true) (h : evs.foldlM (next R) s = some s') :
    evs = [] := by
  cases evs with
  | nil => rfl
  | cons e evs =>
    rw [List.foldlM_cons, next_of_closed hs] at h
    cases h

/-- What one event changes. -/
theorem next_cases (h : s.next R e = some s') :
    s.closed = false ∧
      ((s'.due = s.due ∨ R.lossy = true ∧ s'.due = []) ∧ toolCallStart? e = none ∧
          toolCallResult? e = none ∨
        (∃ id, s'.due = s.due ++ [id] ∧ toolCallStart? e = some id ∧ toolCallResult? e = none) ∨
        ∃ id, s.due = id :: s'.due ∧ toolCallStart? e = none ∧ toolCallResult? e = some id) ∧
      (R.recursive = false → s'.begun = s.begun + (stepStart? e).toList.length ∧
        ∀ step, stepStart? e = some step → step = s.begun) ∧
      (s'.closed = (final? e).isSome) ∧ (s'.closed = true → s'.due = []) := by
  unfold next at h
  split at h
  · cases h
  next hopen =>
    have hopen : s.closed = false := by simpa using hopen
    have hclosed : s.closed = true → s.due = [] := fun hc => by simp [hopen] at hc
    have hsettled (hs : s.Settled R) : [] = s.due ∨ R.lossy = true ∧ ([] : List String) = [] :=
      hs.elim (fun hl => .inr ⟨hl, rfl⟩) fun hd => .inl hd.symm
    refine ⟨hopen, ?_⟩
    cases e with
    | stepStart step =>
      obtain ⟨⟨rfl, -, hs⟩, ⟨⟩⟩ := Option.ite_none_right_eq_some.1 h
      exact ⟨.inl ⟨hsettled hs, rfl, rfl⟩, fun _ => ⟨rfl, fun _ h => (Option.some.inj h).symm⟩,
        rfl, fun _ => rfl⟩
    | assistantText step delta =>
      obtain ⟨-, ⟨⟩⟩ := Option.ite_none_right_eq_some.1 h
      exact ⟨.inl ⟨.inl rfl, rfl, rfl⟩, fun _ => ⟨rfl, fun _ h => by cases h⟩, hopen, hclosed⟩
    | verifierScore step branch score =>
      obtain ⟨-, ⟨⟩⟩ := Option.ite_none_right_eq_some.1 h
      exact ⟨.inl ⟨.inl rfl, rfl, rfl⟩, fun _ => ⟨rfl, fun _ h => by cases h⟩, hopen, hclosed⟩
    | toolCallStart step name id =>
      obtain ⟨-, ⟨⟩⟩ := Option.ite_none_right_eq_some.1 h
      exact ⟨.inr (.inl ⟨id, rfl, rfl, rfl⟩), fun _ => ⟨rfl, fun _ h => by cases h⟩, hopen,
        fun hc => by simp [hopen] at hc⟩
    | toolCallResult step id result isError =>
      obtain ⟨⟨-, hdue⟩, ⟨⟩⟩ := Option.ite_none_right_eq_some.1 h
      obtain ⟨due, hdue⟩ := List.head?_eq_some_iff.1 hdue
      refine ⟨.inr (.inr ⟨id, ?_, rfl, rfl⟩), fun _ => ⟨rfl, fun _ h => by cases h⟩, hopen,
        fun hc => by simp [hopen] at hc⟩
      rw [hdue, List.tail_cons]
    | recursion depth confidence =>
      obtain ⟨⟨hrec, hs⟩, ⟨⟩⟩ := Option.ite_none_right_eq_some.1 h
      refine ⟨.inl ⟨hsettled hs, rfl, rfl⟩, fun hnot => ?_, rfl, fun _ => rfl⟩
      rw [hrec] at hnot
      cases hnot
    | final output =>
      obtain ⟨hs, ⟨⟩⟩ := Option.ite_none_right_eq_some.1 h
      exact ⟨.inl ⟨hsettled hs, rfl, rfl⟩, fun _ => ⟨rfl, fun _ h => by cases h⟩, rfl,
        fun _ => rfl⟩

theorem begun_next_le (hs : s.begun ≤ R.limit) (h : s.next R e = some s') :
    s'.begun ≤ R.limit := by
  unfold next at h
  split at h
  · cases h
  · cases e with
    | stepStart step =>
      obtain ⟨⟨-, hlt, -⟩, ⟨⟩⟩ := Option.ite_none_right_eq_some.1 h
      exact hlt
    | recursion depth confidence =>
      obtain ⟨-, ⟨⟩⟩ := Option.ite_none_right_eq_some.1 h
      exact Nat.zero_le _
    | assistantText | verifierScore | toolCallStart | toolCallResult | final =>
      obtain ⟨-, ⟨⟩⟩ := Option.ite_none_right_eq_some.1 h
      exact hs

/-- Where no result is given up, the calls are answered in their order, all but those that are
due. -/
theorem starts_eq (hR : R.lossy = false) (h : evs.foldlM (next R) s = some s') :
    s.due ++ evs.filterMap toolCallStart? = evs.filterMap toolCallResult? ++ s'.due := by
  induction evs generalizing s with
  | nil =>
    obtain rfl : s = s' := Option.some.inj h
    simp
  | cons e evs ih =>
    rw [List.foldlM_cons] at h
    obtain ⟨t, ht, hrest⟩ := Option.bind_eq_some_iff.1 h
    have hih := ih hrest
    obtain ⟨-, hdue, -⟩ := next_cases ht
    rcases hdue with ⟨hdue, hs, hr⟩ | ⟨id, hdue, hs, hr⟩ | ⟨id, hdue, hs, hr⟩
    · have hdue : t.due = s.due := by simpa [hR] using hdue
      rw [List.filterMap_cons_none hs, List.filterMap_cons_none hr, ← hdue]
      exact hih
    · rw [List.filterMap_cons_some hs, List.filterMap_cons_none hr, ← hih, hdue]
      simp
    · rw [List.filterMap_cons_none hs, List.filterMap_cons_some hr, hdue, List.cons_append,
        List.cons_append, hih]

/-- In any case the results are those of some of the calls, in their order. -/
theorem results_sublist (h : evs.foldlM (next R) s = some s') :
    (evs.filterMap toolCallResult?).Sublist (s.due ++ evs.filterMap toolCallStart?) := by
  induction evs generalizing s with
  | nil => exact List.nil_sublist _
  | cons e evs ih =>
    rw [List.foldlM_cons] at h
    obtain ⟨t, ht, hrest⟩ := Option.bind_eq_some_iff.1 h
    have hih := ih hrest
    obtain ⟨-, hdue, -⟩ := next_cases ht
    rcases hdue with ⟨hdue, hs, hr⟩ | ⟨id, hdue, hs, hr⟩ | ⟨id, hdue, hs, hr⟩
    · rw [List.filterMap_cons_none hs, List.filterMap_cons_none hr]
      rcases hdue with hdue | ⟨-, hdue⟩
      · exact hdue ▸ hih
      · rw [hdue, List.nil_append] at hih
        exact hih.trans (List.sublist_append_right _ _)
    · rw [List.filterMap_cons_some hs, List.filterMap_cons_none hr]
      rw [hdue, List.append_assoc] at hih
      exact hih
    · rw [List.filterMap_cons_none hs, List.filterMap_cons_some hr, hdue, List.cons_append]
      exact hih.cons_cons id

/-- The steps are numbered one after the other. -/
theorem steps_eq (hR : R.recursive = false) (h : evs.foldlM (next R) s = some s') :
    evs.filterMap stepStart? = List.range' s.begun (s'.begun - s.begun) ∧ s.begun ≤ s'.begun := by
  induction evs generalizing s with
  | nil =>
    obtain rfl : s = s' := Option.some.inj h
    simp
  | cons e evs ih =>
    rw [List.foldlM_cons] at h
    obtain ⟨t, ht, hrest⟩ := Option.bind_eq_some_iff.1 h
    obtain ⟨hih, hle⟩ := ih hrest
    obtain ⟨-, -, hbegun, -⟩ := next_cases ht
    obtain ⟨hlength, hstep⟩ := hbegun hR
    cases he : stepStart? e with
    | none =>
      have heq : t.begun = s.begun := by simpa [he] using hlength
      rw [List.filterMap_cons_none he, ← heq]
      exact ⟨hih, hle⟩
    | some step =>
      have heq : t.begun = s.begun + 1 := by simpa [he] using hlength
      rw [List.filterMap_cons_some he, hih, hstep step he, heq]
      refine ⟨?_, by omega⟩
      have hsub : s'.begun - s.begun = s'.begun - (s.begun + 1) + 1 := by omega
      rw [hsub, List.range'_succ]

/-- No more steps are begun than the limit allows. -/
theorem begun_le (hs : s.begun ≤ R.limit) (h : evs.foldlM (next R) s = some s') :
    s'.begun ≤ R.limit := by
  induction evs generalizing s with
  | nil =>
    obtain rfl : s = s' := Option.some.inj h
    exact hs
  | cons e evs ih =>
    rw [List.foldlM_cons] at h
    obtain ⟨t, ht, hrest⟩ := Option.bind_eq_some_iff.1 h
    exact ih (begun_next_le hs ht) hrest

/-- Nothing is due once the stream is closed. -/
theorem due_of_closed (hs : s.closed = true → s.due = []) (h : evs.foldlM (next R) s = some s')
    (hc : s'.closed = true) : s'.due = [] := by
  induction evs generalizing s with
  | nil =>
    obtain rfl : s = s' := Option.some.inj h
    exact hs hc
  | cons e evs ih =>
    rw [List.foldlM_cons] at h
    obtain ⟨t, ht, hrest⟩ := Option.bind_eq_some_iff.1 h
    obtain ⟨-, -, -, -, hdue⟩ := next_cases ht
    exact ih hdue hrest

/-- There is a final output exactly if the stream is closed, and it comes last. -/
theorem final_last (hs : s.closed = false) (h : evs.foldlM (next R) s = some s') :
    (s'.closed = true → ∃ before output, evs = before ++ [.final output] ∧
      before.filterMap final? = []) ∧
      (s'.closed = false → evs.filterMap final? = []) := by
  induction evs generalizing s with
  | nil =>
    obtain rfl : s = s' := Option.some.inj h
    exact ⟨fun hc => by simp [hs] at hc, fun _ => rfl⟩
  | cons e evs ih =>
    rw [List.foldlM_cons] at h
    obtain ⟨t, ht, hrest⟩ := Option.bind_eq_some_iff.1 h
    obtain ⟨-, -, -, hclosed, -⟩ := next_cases ht
    cases hfinal : final? e with
    | none =>
      obtain ⟨hlast, hnone⟩ := ih (hclosed.trans (by rw [hfinal]; rfl)) hrest
      refine ⟨fun hc => ?_, fun hc => ?_⟩
      · obtain ⟨before, output, rfl, hbefore⟩ := hlast hc
        exact ⟨e :: before, output, rfl, by rw [List.filterMap_cons_none hfinal, hbefore]⟩
      · rw [List.filterMap_cons_none hfinal, hnone hc]
    | some output =>
      have ht' : t.closed = true := hclosed.trans (by rw [hfinal]; rfl)
      obtain rfl := eq_nil_of_closed ht' hrest
      obtain rfl : t = s' := Option.some.inj hrest
      have he : e = .final output := by
        cases e with
        | final output' => rw [Option.some.inj hfinal]
        | _ => cases hfinal
      subst he
      exact ⟨fun _ => ⟨[], output, rfl, rfl⟩, fun hc => by rw [ht'] at hc; cases hc⟩

end Progress

/-- No call is left without its result, but for concurrent calls and those that are given up. -/
def Progress.Answered (R : EventRules) (s : Progress) : Prop :=
  R.concurrent = false ∧ R.lossy = false → s.due = []

/-- The events of a stream that has succeeded or failed: they are in order, no call is left without
its result, and the final output is out exactly after a success. -/
def InOrder (R : EventRules) (evs : List OrchEvent) (succeeded : Bool) : Prop :=
  ∃ s, evs.foldlM (Progress.next R) {} = some s ∧ s.Answered R ∧ s.closed = succeeded

namespace InOrder

variable {R : EventRules} {evs : List OrchEvent} {succeeded : Bool}

open Progress

/-- The calls are the results. -/
theorem starts_eq_results (hR : R.lossy = false) (h : InOrder R evs succeeded)
    (hsettled : R.concurrent = false ∨ succeeded = true) :
    evs.filterMap toolCallStart? = evs.filterMap toolCallResult? := by
  obtain ⟨s, hs, hdue, hclosed⟩ := h
  have hdue : s.due = [] :=
    hsettled.elim (fun hone => hdue ⟨hone, hR⟩) fun hok =>
      due_of_closed (fun hc => by cases hc) hs (hclosed.trans hok)
  simpa [hdue] using starts_eq hR hs

theorem results_sublist (h : InOrder R evs succeeded) :
    (evs.filterMap toolCallResult?).Sublist (evs.filterMap toolCallStart?) := by
  obtain ⟨s, hs, -⟩ := h
  exact Progress.results_sublist hs

/-- The steps are the first numbers, up to the limit. -/
theorem steps_eq_range (hR : R.recursive = false) (h : InOrder R evs succeeded) :
    ∃ n, n ≤ R.limit ∧ evs.filterMap stepStart? = List.range n := by
  obtain ⟨s, hs, -⟩ := h
  obtain ⟨hsteps, -⟩ := steps_eq hR hs
  exact ⟨s.begun, begun_le (Nat.zero_le _) hs, by rw [hsteps, List.range_eq_range']; rfl⟩

theorem final_last (h : InOrder R evs true) :
    ∃ before output, evs = before ++ [.final output] ∧ before.filterMap final? = [] := by
  obtain ⟨s, hs, -, hclosed⟩ := h
  exact (Progress.final_last rfl hs).1 hclosed

theorem no_final (h : InOrder R evs false) : evs.filterMap final? = [] := by
  obtain ⟨s, hs, -, hclosed⟩ := h
  exact (Progress.final_last rfl hs).2 hclosed

end InOrder

/-- What a computation has yielded. -/
def eventsOf {W : Type} (trace : List (Act W)) : List OrchEvent := trace.filterMap Act.event

theorem foldlM_act {W : Type} (R : EventRules) (trace : List (Act W)) (s : Progress) :
    trace.foldlM (Progress.act R) s = (eventsOf trace).foldlM (Progress.next R) s := by
  rw [eventsOf, List.foldlM_filterMap]
  congr 1
  funext s t
  cases t with
  | yielded e => rfl
  | _ => rfl

/-- The events of a stream are in order. -/
def KeepsEventOrder {W : Type} (R : EventRules) (o : Outcome W (Act W) TakoError Unit) : Prop :=
  InOrder R (eventsOf o.trace) o.result.isOk

/-! ## The parts of a computation -/

variable {W ρ κ : Type}

/-- From `s` on, the events of `x` are in order. -/
abbrev Orderly (R : EventRules) (s : Progress) (x : M W α) (Q : α → Progress → Prop) : Prop :=
  Guided (Progress.act R) Progress.Calm s x Q

namespace Orderly

variable {R : EventRules} {n : Nat}

/-- A first part that yields no event. -/
theorem after {x : M W α} {f : α → M W β} {P : β → Progress → Prop}
    (h : x.Acts fun t => ¬t.IsYield) (hf : ∀ a, Orderly R (.during n) (f a) P) :
    Orderly R (.during n) (x >>= f) P :=
  Guided.seq (Guided.of_acts (h.weaken fun _ _ hl t ht => Progress.act_of_not_yield R _ (hl t ht))
    (Progress.calm_during n)) hf

theorem yield {s s' : Progress} {e : OrchEvent} {Q : Unit → Progress → Prop}
    (h : s.next R e = some s') (hq : Q () s') : Orderly (W := W) R s (Orchestrator.yield e) Q :=
  Guided.emit h hq

end Orderly

/-- Hooks that begin a step at the start of a turn, yield what belongs to it, and every event of a
tool. -/
structure Hooks.Orderly (R : EventRules) (H : Hooks W ρ κ) : Prop where
  turnStart : ∀ step < R.limit, Orchestrator.Orderly R (.during step) (H.turnStart step)
    fun _ s => s = .during (step + 1)
  onText : ∀ role step k delta text, Orchestrator.Orderly R (.during (step + 1))
    (H.onText role step k delta text) fun _ s => s = .during (step + 1)
  onChat : ∀ role step k text, Orchestrator.Orderly R (.during (step + 1))
    (H.onChat role step k text) fun _ s => s = .during (step + 1)
  onTurn : ∀ role step assistant, Orchestrator.Orderly R (.during (step + 1))
    (H.onTurn role step assistant) fun _ s => s = .during (step + 1)
  toolEvent : H.toolEvent = yield

/-! ## The loop -/

namespace Loop

variable {L : Loop W ρ} {H : Hooks W ρ κ} {R : EventRules}

theorem runTools_orderly (step : Nat) (model : String) (messages : List Message)
    (calls : List (String × String × Json)) :
    Orderly R (.during (step + 1)) (L.runTools yield step model messages calls)
      fun _ s => s = .during (step + 1) := by
  induction calls with
  | nil => exact .pure rfl
  | cons call calls ih =>
    obtain ⟨id, name, args⟩ := call
    unfold runTools
    refine Orderly.after (gate_acts (fun _ _ _ _ _ h => h) _ _ _ _) fun _ => ?_
    -- the call is due until its result is out, and an invocation does not fail in between
    have hstart : Orderly (W := W) R (.during (step + 1)) (yield (.toolCallStart step name id))
        fun _ s => s = { begun := step + 1, due := [id] } := by
      refine .yield ?_ rfl
      simp [Progress.next, Progress.during]
    refine hstart.seq fun _ => ?_
    refine .seq (.of_acts_infallible (.attempt (.call fun _ => rfl)) (.attempt _)) fun r => ?_
    have hresult : Orderly (W := W) R { begun := step + 1, due := [id] }
        (yield (.toolCallResult step id (L.toolValue r).1 (L.toolValue r).2))
        fun _ s => s = .during (step + 1) := by
      refine .yield ?_ rfl
      simp [Progress.next, Progress.during]
    refine hresult.seq fun _ => ?_
    refine ih.seq fun _ => ?_
    exact .pure rfl

theorem finishTurn_orderly (step : Nat) (model : String) (s : LoopState) (assistant : Message)
    (fr : FinishReason) (usage : Usage) :
    Orderly R (.during (step + 1)) (L.finishTurn yield step model s assistant fr usage)
      fun _ s => s = .during (step + 1) := by
  unfold finishTurn
  dsimp only
  split
  · exact .pure rfl
  · refine (runTools_orderly _ _ _ _).seq fun _ => ?_
    exact .pure rfl

theorem receiveText_orderly (hH : H.Orderly R) (role : ρ) (step : Nat) (r : Received) (k : κ)
    (text : Option String) :
    Orderly R (.during (step + 1)) (receiveText H role step r k text)
      fun _ s => s = .during (step + 1) := by
  unfold receiveText
  cases text with
  | none => exact .pure rfl
  | some t =>
    by_cases ht : t = ""
    · simp only [if_pos ht]
      exact .pure rfl
    · simp only [if_neg ht]
      refine (hH.onText _ _ _ _ _).seq fun _ => ?_
      exact .pure rfl

theorem consume_orderly (hH : H.Orderly R) (role : ρ) (step : Nat) (provider model : String)
    (chunks : List (Result ChatChunk)) (r : Received) (k : κ) :
    Orderly R (.during (step + 1)) (consume H role step provider model chunks r k)
      fun _ s => s = .during (step + 1) := by
  have hcalm := Progress.calm_during (step + 1)
  induction chunks generalizing r k with
  | nil =>
    refine Orderly.after (.emit id) fun _ => ?_
    exact .pure rfl
  | cons chunk chunks ih =>
    unfold consume
    refine Orderly.after (.emit id) fun _ => ?_
    cases chunk with
    | error e => exact .throw hcalm
    | ok chunk =>
      cases chunk with
      | delta text toolCalls =>
        refine (receiveText_orderly hH _ _ _ _ _).seq fun a => ?_
        exact ih _ _
      | error message => exact .throw hcalm
      | «end» fr usage => exact ih _ _

theorem chatFallback_orderly (hH : H.Orderly R) (role : ρ) (step : Nat) (provider : LlmProvider W)
    (model : String) (messages : List Message) (k : κ) :
    Orderly R (.during (step + 1)) (L.chatFallback H role step provider model messages k)
      fun _ s => s = .during (step + 1) := by
  unfold chatFallback
  refine Orderly.after (.read _) fun schemas => ?_
  refine Orderly.after (.call fun _ => id) fun resp => ?_
  dsimp only
  split
  · exact .pure rfl
  · refine (hH.onChat _ _ _ _).seq fun _ => ?_
    exact .pure rfl

theorem respond_orderly (hH : H.Orderly R) (role : ρ) (step : Nat) (provider : LlmProvider W)
    (model : String) (messages : List Message) (req : ChatRequest) (k : κ) :
    Orderly R (.during (step + 1)) (L.respond H role step provider model messages req k)
      fun _ s => s = .during (step + 1) := by
  unfold respond
  split
  · refine Orderly.after (.attempt (.call fun _ => id)) fun started => ?_
    cases started with
    | ok chunks =>
      refine (consume_orderly hH role step provider.id model chunks {} k).seq fun _ => ?_
      exact .pure rfl
    | error e => exact chatFallback_orderly hH _ _ _ _ _ _
  · exact chatFallback_orderly hH _ _ _ _ _ _

/-- A turn is one step. -/
theorem streamTurn_orderly (hpick : ∀ ms, (L.pick ms).Acts fun t => ¬t.IsYield)
    (hH : H.Orderly R) {step : Nat} (hstep : step < R.limit) (s : LoopState) (k : κ) :
    Orderly R (.during step) (L.streamTurn H step s k) fun _ s => s = .during (step + 1) := by
  unfold streamTurn
  refine (hH.turnStart step hstep).seq fun _ => ?_
  refine Orderly.after (hpick _) fun picked => ?_
  refine Orderly.after (.read _) fun schemas => ?_
  refine Orderly.after (preCheck_acts (fun _ _ _ => id) _ _ _ _) fun _ => ?_
  refine (respond_orderly hH _ _ _ _ _ _ _).seq fun _ => ?_
  refine Orderly.after (record_acts (fun _ _ _ => id) _ _ _ _) fun _ => ?_
  refine (hH.onTurn _ _ _).seq fun _ => ?_
  rw [hH.toolEvent]
  refine (finishTurn_orderly _ _ _ _ _ _).seq fun _ => ?_
  exact .pure rfl

theorem streamTurns_orderly (hpick : ∀ ms, (L.pick ms).Acts fun t => ¬t.IsYield)
    (hH : H.Orderly R) {n step : Nat} (hle : step + n ≤ R.limit) (s : LoopState) (k : κ) :
    Orderly R (.during step) (L.streamTurns H n step s k) fun _ s => s.Calm := by
  induction n generalizing step s k with
  | zero => exact .pure (Progress.calm_during step)
  | succ n ih =>
    unfold streamTurns
    refine (streamTurn_orderly hpick hH (by omega) s k).seq fun a => ?_
    dsimp only
    cases a.1.final with
    | some m => exact .pure (Progress.calm_during (step + 1))
    | none => exact ih (by omega) a.1 a.2

/-- The whole loop, whose steps the limit allows. -/
theorem runStreaming_orderly (hpick : ∀ ms, (L.pick ms).Acts fun t => ¬t.IsYield)
    (hH : H.Orderly R) (hlimit : L.maxSteps ≤ R.limit) (messages : List Message) (k : κ) :
    Orderly R {} (L.runStreaming H messages k) fun _ s => s.Calm :=
  Guided.bind (streamTurns_orderly hpick hH (by omega) { messages } k) fun _ _ hs => .pure hs

end Loop

/-! ## The agents and the tree search -/

/-- A stream that ends in its final output. -/
theorem Orderly.keeps {R : EventRules} {x : M W OrchOutput}
    (h : Orderly R {} x fun _ s => s.Calm) (w : W) :
    KeepsEventOrder R ((x >>= fun output => Orchestrator.yield (.final output)).run w) := by
  obtain ⟨s, hm, hends⟩ := h w
  cases hr : (x.run w).result with
  | ok output =>
    rw [hr] at hends
    obtain ⟨hdue, hopen⟩ : s.Calm := hends
    rw [run_bind_ok _ hr]
    refine ⟨{ begun := s.begun, closed := true }, ?_, fun _ => rfl, rfl⟩
    rw [← foldlM_act, List.foldlM_append, hm]
    have hnext : s.next R (OrchEvent.final output) =
        some { begun := s.begun, closed := true } := by
      simp [Progress.next, Progress.Settled, hdue, hopen]
    exact congrArg (· >>= pure) hnext
  | error e =>
    rw [hr] at hends
    rw [run_bind_error _ hr]
    exact ⟨s, by rw [← foldlM_act, hm], fun _ => hends.1, hends.2⟩

theorem Progress.next_stepStart {R : EventRules} {step : Nat} (h : step < R.limit) :
    (during step).next R (.stepStart step) = some (.during (step + 1)) := by
  simp [next, during, Settled, h]

@[simp] theorem Progress.next_assistantText (R : EventRules) (step : Nat) (delta : String) :
    (during (step + 1)).next R (.assistantText step delta) = some (.during (step + 1)) := by
  simp [next, during]

@[simp] theorem Progress.next_verifierScore (R : EventRules) (step branch : Nat) (score : Rat) :
    (during (step + 1)).next R (.verifierScore step branch score) = some (.during (step + 1)) := by
  simp [next, during]

theorem SingleAgent.hooks_orderly (R : EventRules) :
    (SingleAgent.hooks : Hooks W Unit Unit).Orderly R where
  turnStart _ h := .yield (Progress.next_stepStart h) rfl
  onText _ _ _ _ _ := Orderly.yield (by simp) rfl
  onChat _ _ _ _ := Orderly.yield (by simp) rfl
  onTurn _ _ _ := .pure rfl
  toolEvent := rfl

theorem Trinity.hooks_orderly (R : EventRules) (T : Trinity W) (p : Principal) (prompt : String) :
    (T.hooks p prompt).Orderly R where
  turnStart _ h := .yield (Progress.next_stepStart h) rfl
  onText role step _ delta text := by
    refine Guided.seq (t := .during (step + 1)) (Orderly.yield (by simp) rfl) fun _ => ?_
    unfold scoreDelta
    split
    · exact .pure rfl
    · refine Orderly.after (.call fun _ => id) fun score => ?_
      cases score with
      | some score => exact Orderly.yield (by simp) rfl
      | none => exact .pure rfl
  onChat _ _ _ _ := Orderly.yield (by simp) rfl
  onTurn role step assistant := by
    change Orderly R _ (T.scoreTurn p prompt role step assistant) _
    unfold scoreTurn
    split
    · exact .pure rfl
    · refine Orderly.after (.call fun _ => id) fun score => ?_
      exact Orderly.yield (by simp) rfl
  toolEvent := rfl

namespace AbMcts

variable {G : Type} {A : AbMcts W G} {p : Principal} {R : EventRules}

/-- What a rollout of an iteration yields belongs to the iteration's step. -/
theorem rolloutStreaming_during (iteration branch : Nat) (messages : List Message) :
    (A.rolloutStreaming p iteration branch messages).Acts fun t =>
      (Progress.during (iteration + 1)).act R t = some (.during (iteration + 1)) := by
  have hloop (picked : LlmProvider W) : (A.rolloutLoop p picked).Acts fun t =>
      (Progress.during (iteration + 1)).act R t = some (.during (iteration + 1)) :=
    { pick _ := .pure _, preCheck _ _ _ := rfl, chat _ _ _ := rfl, stream _ _ _ := rfl
      next _ := rfl, record _ _ _ := rfl, evaluate _ _ _ _ _ := rfl, invoke _ _ _ := rfl }
  refine .bind (pickRolloutProvider_acts (fun _ _ _ => rfl) _) fun picked => ?_
  split
  · exact Loop.runStreaming_acts (hloop picked) (rolloutHooks_acts (fun _ _ => rfl)
      (Progress.next_assistantText R iteration)
      (Progress.next_verifierScore R iteration branch)) _ _
  · refine .bind (Loop.run_acts (hloop picked) _) fun output => ?_
    split
    · exact .bind (.emit (Progress.next_assistantText R iteration output.text)) fun _ => .pure _
    · exact .pure _

/-- An iteration is one step. -/
theorem iterateStreaming_orderly (prompt : String) {iteration : Nat} (h : iteration < R.limit)
    (s : Search G) :
    Orderly R (.during iteration) (A.iterateStreaming p prompt iteration s)
      fun _ s => s = .during (iteration + 1) := by
  refine Guided.seq (Orderly.yield (Progress.next_stepStart h) rfl) fun _ => ?_
  refine Guided.seq (.of_acts (rolloutStreaming_during _ _ _) (Progress.calm_during _)) fun _ => ?_
  refine Orderly.after (.call fun _ => id) fun score => ?_
  refine Guided.seq (Orderly.yield (by simp) rfl) fun _ => .pure rfl

theorem iterations_orderly {prompt : String} {n i : Nat} (hle : i + n ≤ R.limit) (s : Search G) :
    Orderly R (.during i) (A.iterations (A.iterateStreaming p prompt) n i s)
      fun _ s => s.Calm := by
  induction n generalizing i s with
  | zero => exact .pure (Progress.calm_during i)
  | succ n ih =>
    unfold iterations
    refine (iterateStreaming_orderly prompt (by omega) s).seq fun s => ?_
    split
    · exact .pure (Progress.calm_during (i + 1))
    · exact ih (by omega) s

end AbMcts

theorem SingleAgent.stream_inOrder (A : SingleAgent W) (p : Principal) (input : OrchInput) (w : W) :
    KeepsEventOrder { limit := A.maxSteps } ((A.stream p input).run w) := by
  refine Orderly.keeps (Loop.runStreaming_orderly ?_ (SingleAgent.hooks_orderly _) ?_ _ _) w
  · exact SingleAgent.pick_acts (fun _ _ _ => id) A p
  · exact Nat.le_refl _

theorem Trinity.stream_inOrder (T : Trinity W) (p : Principal) (input : OrchInput) (w : W) :
    KeepsEventOrder { limit := T.maxSteps } ((T.stream p input).run w) := by
  refine Orderly.keeps (Loop.runStreaming_orderly ?_ (Trinity.hooks_orderly _ T p _) ?_ _ _) w
  · exact Trinity.pick_acts (fun _ _ _ => id) T p
  · exact Nat.le_refl _

theorem AbMcts.stream_inOrder {G : Type} (B : AbMcts W G) (p : Principal) (input : OrchInput)
    (rng : G) (w : W) :
    KeepsEventOrder { limit := B.maxIterations } ((B.stream p input rng).run w) := by
  unfold AbMcts.stream
  rw [← Traced.bind_assoc]
  have hlimit : 0 + B.maxIterations.1 ≤ (EventRules.mk B.maxIterations false false false).limit :=
    Nat.le_of_eq (Nat.zero_add _)
  refine Orderly.keeps (Guided.bind (AbMcts.iterations_orderly hlimit _) fun s t ht => ?_) w
  cases s.output with
  | ok output => exact .pure ht
  | error e => exact .throw ht

/-- Every stream of the two agents and of the tree search keeps its events in order: the steps are
0, 1, 2, … up to the limit, every tool call is followed by its result before anything else of the
step, and the final output comes last and only if the stream succeeds. -/
theorem streams_keep_event_order {G : Type} (A : SingleAgent W) (T : Trinity W) (B : AbMcts W G)
    (p : Principal) (input : OrchInput) (rng : G) (w : W) :
    KeepsEventOrder { limit := A.maxSteps } ((A.stream p input).run w) ∧
      KeepsEventOrder { limit := T.maxSteps } ((T.stream p input).run w) ∧
      KeepsEventOrder { limit := B.maxIterations } ((B.stream p input rng).run w) :=
  ⟨A.stream_inOrder p input w, T.stream_inOrder p input w, B.stream_inOrder p input rng w⟩

end Tako.Orchestrator
