import Tako.Orchestrator.EventOrder
import Tako.Orchestrator.SelfCaller.Basic

/-!
# The order of a `SelfCaller`'s events

`SelfCaller::stream` forwards the events of one inner stream after the other, but for their final
outputs. If the inner streams keep their events in order, so does it, with a `Recursion` before each
new beginning and before its own final output (`SelfCaller.wraps_in_order`). So wrapping again keeps
them in order, too.
-/

namespace Tako.Orchestrator

open Generator

variable {W τ : Type}

/-! ## Orchestrators whose streams are in order -/

/-- What a failure leaves. -/
def Progress.Failed (R : EventRules) (s : Progress) : Prop := s.closed = false ∧ s.Answered R

/-- Whatever else changes the world meanwhile, a stream's events are in order. -/
def KeepsOrder (R : EventRules) (O : Orchestrator W τ) : Prop :=
  ∀ p input, (O.stream p input).Guided (Progress.next R) (Progress.Failed R)
    (fun _ s => s.closed = true) {}

/-- A run of such a stream. -/
theorem KeepsOrder.inOrder {R : EventRules} {O : Orchestrator W τ} (h : KeepsOrder R O)
    (p : Principal) (input : OrchInput) (w : W) :
    InOrder R (items ((O.stream p input).play.run w).trace)
      ((O.stream p input).play.run w).result.isOk := by
  obtain ⟨s, hs, hok, herr⟩ := (h p input).play w
  cases hr : ((O.stream p input).play.run w).result with
  | ok a =>
    have hclosed := hok a hr
    exact ⟨s, hs, fun _ => Progress.due_of_closed (fun _ => rfl) hs hclosed, hclosed⟩
  | error e =>
    obtain ⟨hopen, hanswered⟩ := herr e hr
    exact ⟨s, hs, hanswered, hopen⟩

/-! ## One inner stream -/

/-- The rules of an orchestrator, with `Recursion`s. -/
def EventRules.wrapped (R : EventRules) : EventRules := { R with recursive := true }

theorem Progress.next_wrapped {R : EventRules} {s s' : Progress} {e : OrchEvent}
    (h : s.next R e = some s') : s.next R.wrapped e = some s' := by
  cases e with
  | recursion depth confidence =>
    simp only [next, Option.ite_none_left_eq_some, Option.ite_none_right_eq_some] at h ⊢
    exact ⟨h.1, ⟨rfl, h.2.1.2⟩, h.2.2⟩
  | _ => exact h

/-- Where the outer stream is while the inner one is at `s`: at the same place, until the inner
final output is withheld. -/
structure Progress.Beside (R : EventRules) (s t : Progress) : Prop where
  opened : t.closed = false
  same : s.closed = false → t = s
  settled : s.closed = true → t.due = [] ∨ R.lossy = true

theorem Progress.Beside.of_open {R : EventRules} {s : Progress} (h : s.closed = false) :
    s.Beside R s :=
  ⟨h, fun _ => rfl, fun hc => by simp [h] at hc⟩

namespace SelfCaller

variable {C : SelfCaller W τ} {R : EventRules}

theorem failed_of_due {t : Progress} (hopen : t.closed = false) (hdue : t.due = []) :
    t.Failed R.wrapped := ⟨hopen, fun _ => hdue⟩

/-- The loop over an inner stream keeps the order, and ends where no result is waited for. -/
theorem consume_guided {g : Generator W (Act τ) TakoError OrchEvent Unit} (q : Principal)
    {s t : Progress} (accumulated : String) (captured : Option OrchOutput)
    (hg : g.Guided (Progress.next R) (Progress.Failed R) (fun _ s => s.closed = true) s)
    (h : s.Beside R t) :
    (C.consume q g accumulated captured).Guided (Progress.next R.wrapped)
      (Progress.Failed R.wrapped) (fun _ t => t.closed = false ∧ t.Settled R) t := by
  induction g generalizing s t accumulated captured with
  | done a => exact ⟨h.opened, (h.settled hg).symm⟩
  | fail e =>
    obtain rfl := h.same hg.1
    exact hg
  | act step rest ih => exact fun w => ih w accumulated captured (hg w) h
  | item e rest ih =>
    obtain ⟨s', hnext, hrest⟩ := hg
    have hopen : s.closed = false := (Progress.next_cases hnext).1
    obtain rfl := h.same hopen
    have hnext' := Progress.next_wrapped hnext
    cases e with
    | final output =>
      refine ih accumulated (some output) hrest ⟨hopen, fun hs => ?_, fun _ => ?_⟩
      · rw [(Progress.next_cases hnext).2.2.2.1] at hs
        cases hs
      · simp only [Progress.next, Option.ite_none_left_eq_some, Option.ite_none_right_eq_some]
          at hnext
        exact hnext.2.1.symm
    | assistantText step delta =>
      have hbeside : s'.Beside R s' := .of_open (Progress.next_cases hnext).2.2.2.1
      have hdue : s'.due = [] := by
        simp only [Progress.next, Option.ite_none_left_eq_some, Option.ite_none_right_eq_some]
          at hnext
        obtain ⟨-, ⟨-, hdue⟩, ⟨⟩⟩ := hnext
        exact hdue
      refine ⟨s', hnext', Guided.call_bind (failed_of_due hbeside.opened hdue) fun score => ?_⟩
      cases score with
      | none => exact ih _ captured hrest hbeside
      | some score =>
        dsimp only
        split
        · exact ⟨hbeside.opened, .inr hdue⟩
        · exact ih _ captured hrest hbeside
    | _ =>
      exact ⟨s', hnext', ih accumulated captured hrest
        (.of_open (Progress.next_cases hnext).2.2.2.1)⟩

/-! ## All inner streams -/

theorem failed_of_settled {t : Progress} (h : t.closed = false ∧ t.Settled R) :
    t.Failed R.wrapped :=
  ⟨h.1, fun hone => h.2.resolve_left fun hlossy => by simp [hlossy, EventRules.wrapped] at hone⟩

theorem next_recursion {t : Progress} (h : t.closed = false ∧ t.Settled R) (depth : Nat)
    (score : Rat) : t.next R.wrapped (.recursion depth score) = some {} := by
  have hrule : R.wrapped.recursive = true ∧ t.Settled R.wrapped := ⟨rfl, h.2⟩
  simp only [Progress.next, h.1, if_pos hrule]
  rfl

theorem final_guided (out : OrchOutput) :
    (Generator.yield (.final out) : Generator W (Act τ) TakoError OrchEvent Unit).Guided
      (Progress.next R) (Progress.Failed R) (fun _ s => s.closed = true) {} :=
  ⟨{ closed := true }, by simp [Progress.next, Progress.Settled], rfl⟩

theorem streamFrom_guided (h : KeepsOrder R C.inner) (p : Principal) (start n offset : Nat)
    (input : OrchInput) (last : Option OrchOutput) :
    (C.streamFrom p start n offset input last).Guided (Progress.next R.wrapped)
      (Progress.Failed R.wrapped) (fun _ s => s.closed = true) {} := by
  induction n generalizing offset input last with
  | zero =>
    cases last with
    | none => exact ⟨rfl, fun _ => rfl⟩
    | some out => exact final_guided out
  | succ n ih =>
    refine Guided.emit_bind (Guided.bind (consume_guided _ "" none (h _ input) (.of_open rfl)) ?_)
    intro consumed t ht
    cases consumed with
    | early score accumulated => exact Guided.yield_bind (next_recursion ht _ _) (final_guided _)
    | ended captured =>
      cases captured with
      | none => exact failed_of_settled ht
      | some out =>
        refine Guided.call_bind (failed_of_settled ht) fun conf => ?_
        refine Guided.yield_bind (next_recursion ht _ _) ?_
        split
        · exact final_guided out
        · exact ih (offset + 1) (C.revise input out.text) (some out)

theorem keepsOrder_toOrchestrator (h : KeepsOrder R C.inner) :
    KeepsOrder R.wrapped C.toOrchestrator :=
  fun p input => streamFrom_guided h p _ _ _ input none

/-! ## The final output -/

/-- Whether the last event was a `Recursion`. A final output has to follow one. -/
def afterRecursion (s : Bool) : OrchEvent → Option Bool
  | .recursion _ _ => some true
  | .final _ => if s then some false else none
  | _ => some false

theorem eq_concat_recursion {evs : List OrchEvent}
    (h : evs.foldlM afterRecursion false = some true) :
    ∃ before depth score, evs = before ++ [.recursion depth score] := by
  obtain rfl | ⟨before, e, rfl⟩ := List.eq_nil_or_concat evs
  · cases h
  rw [List.concat_eq_append, List.foldlM_append] at h
  obtain ⟨s, -, he⟩ := Option.bind_eq_some_iff.1 h
  rw [List.foldlM_cons] at he
  obtain ⟨t, ht, hnil⟩ := Option.bind_eq_some_iff.1 he
  obtain rfl : t = true := Option.some.inj hnil
  cases e with
  | recursion depth score => exact ⟨before, depth, score, List.concat_eq_append⟩
  | final output =>
    simp only [afterRecursion, Option.ite_none_right_eq_some] at ht
    cases ht.2
  | _ => cases ht

/-- The loop over an inner stream withholds its final outputs. -/
theorem consume_afterRecursion (q : Principal) (g : Generator W (Act τ) TakoError OrchEvent Unit)
    (accumulated : String) (captured : Option OrchOutput) (s : Bool) :
    (C.consume q g accumulated captured).Guided afterRecursion (fun _ => True)
      (fun _ _ => True) s := by
  induction g generalizing accumulated captured s with
  | done a => trivial
  | fail e => trivial
  | act step rest ih => exact fun w => ih w accumulated captured s
  | item e rest ih =>
    cases e with
    | final output => exact ih accumulated (some output) s
    | assistantText step delta =>
      refine ⟨false, rfl, Guided.call_bind trivial fun score => ?_⟩
      cases score with
      | none => exact ih _ captured false
      | some score =>
        dsimp only
        split
        · trivial
        · exact ih _ captured false
    | recursion depth score => exact ⟨true, rfl, ih accumulated captured true⟩
    | _ => exact ⟨false, rfl, ih accumulated captured false⟩

theorem streamFrom_afterRecursion (p : Principal) (start n offset : Nat) (input : OrchInput)
    (last : Option OrchOutput) (s : Bool) (hlast : last.isSome = true → s = true) :
    (C.streamFrom p start n offset input last).Guided afterRecursion (fun _ => True)
      (fun _ _ => True) s := by
  induction n generalizing offset input last s with
  | zero =>
    cases last with
    | none => trivial
    | some out => exact ⟨false, if_pos (hlast rfl), trivial⟩
  | succ n ih =>
    refine Guided.emit_bind (Guided.bind (consume_afterRecursion _ _ "" none s) ?_)
    intro consumed t _
    cases consumed with
    | early score accumulated => exact ⟨true, rfl, false, rfl, trivial⟩
    | ended captured =>
      cases captured with
      | none => trivial
      | some out =>
        refine Guided.call_bind trivial fun conf => ?_
        refine ⟨true, rfl, ?_⟩
        split
        · exact ⟨false, rfl, trivial⟩
        · exact ih (offset + 1) (C.revise input out.text) (some out) true fun _ => rfl

/-- A final output follows a `Recursion`. -/
theorem final_after_recursion (p : Principal) (input : OrchInput) (w : W) {output : OrchOutput}
    {before later : List OrchEvent}
    (h : items ((C.stream p input).play.run w).trace = before ++ .final output :: later) :
    ∃ before' depth score, before = before' ++ [.recursion depth score] := by
  have hguided : (C.stream p input).Guided afterRecursion (fun _ => True) (fun _ _ => True) false :=
    streamFrom_afterRecursion p _ _ _ input none false fun hsome => by cases hsome
  obtain ⟨s, hs, -⟩ := hguided.play w
  rw [h, List.foldlM_append] at hs
  obtain ⟨t, ht, hlast⟩ := Option.bind_eq_some_iff.1 hs
  rw [List.foldlM_cons] at hlast
  obtain ⟨u, hu, -⟩ := Option.bind_eq_some_iff.1 hlast
  obtain ⟨rfl, -⟩ := Option.ite_none_right_eq_some.1 hu
  exact eq_concat_recursion ht

/-- If the streams of what a `SelfCaller` wraps keep their events in order, then so do its own,
whatever the guard says: the inner final outputs are withheld, each inner stream is followed by one
`Recursion`, and one final output comes last, behind a `Recursion`, exactly if the stream
succeeds. -/
theorem wraps_in_order (C : SelfCaller W τ) (R : EventRules) (h : KeepsOrder R C.inner) :
    KeepsOrder R.wrapped C.toOrchestrator ∧
      ∀ p input w, InOrder R.wrapped (items ((C.stream p input).play.run w).trace)
        ((C.stream p input).play.run w).result.isOk ∧
        ∀ before output later,
          items ((C.stream p input).play.run w).trace = before ++ .final output :: later →
          ∃ before' depth score, before = before' ++ [.recursion depth score] :=
  ⟨keepsOrder_toOrchestrator h, fun p input w =>
    ⟨(keepsOrder_toOrchestrator h).inOrder p input w,
      fun _ _ _ hfinal => final_after_recursion p input w hfinal⟩⟩

/-! ## A sample -/

/-- One step with an answer in one piece. -/
def stepwise : Orchestrator Nat (Act Empty) where
  run _ _ := pure ⟨"ok", .assistant "ok", {}, 1⟩
  stream _ _ := .item (.stepStart 0) (.item (.assistantText 0 "ok")
    (.yield (.final ⟨"ok", .assistant "ok", {}, 1⟩)))

/-- A guard that never likes the answer. -/
def unconvinced : SelfCaller Nat Empty where
  maxDepth := 2
  confidence := ⟨fun _ _ w => (.ok 0, w), fun _ _ w => (.ok none, w)⟩
  inner := stepwise

theorem stepwise_keepsOrder : KeepsOrder { limit := 1 } stepwise := fun _ _ =>
  ⟨.during 1, rfl, .during 1, rfl, { begun := 1, closed := true }, rfl, rfl⟩

theorem wraps_in_order_unconvinced : KeepsOrder { limit := 1, recursive := true }
    unconvinced.toOrchestrator :=
  (wraps_in_order unconvinced { limit := 1 } stepwise_keepsOrder).1

end SelfCaller

end Tako.Orchestrator
