import Tako.Orchestrator.Loop
import Tako.Orchestrator.Conductor.Moves
import Tako.Orchestrator.Conductor.Rounds

/-!
# The events of a round

What a round of `Conductor::stream` yields carries the round's number, also in the ids of the
results.
-/

namespace Tako.Orchestrator

open Traced

variable {W : Type}

/-- An event of the round. -/
def OrchEvent.InRound (step : Nat) : OrchEvent → Prop
  | .stepStart k | .assistantText k _ | .toolCallStart k _ _ | .verifierScore k _ _ => k = step
  | .toolCallResult k id _ _ => k = step ∧ ∃ idx : Nat, id = s!"step{step}-{idx}"
  | .final _ | .recursion _ _ => False

/-- Whoever acts in a round: what is yielded belongs to the round, and by the conductor. -/
def ActsInRound (step : Nat) : Party × Act W → Prop
  | (.conductor, .yielded e) => e.InRound step
  | _ => True

theorem actsInRound_of_not_yield (step : Nat) (party : Party) {a : Act W} (h : ¬a.IsYield) :
    ActsInRound step (party, a) := by
  cases a with
  | yielded e => exact absurd trivial h
  | _ => cases party <;> exact trivial

namespace Conductor

/-- A computation of the conductor in a round. -/
abbrev StaysIn (step : Nat) (x : M W α) : Prop := x.Acts fun t => ActsInRound step (.conductor, t)

theorem ask_acts {P : Act W → Prop} (hP : ∀ a, ¬a.IsYield → P a) (C : Conductor W) (p : Principal)
    (messages : List Message) : (C.ask p messages).Acts P :=
  .bind (Loop.preCheck_acts (fun _ _ _ => hP _ id) _ _ _ _) fun _ =>
    .bind (.call fun _ => hP _ id) fun _ =>
      .bind (Loop.record_acts (fun _ _ _ => hP _ id) _ _ _ _) fun _ => .pure _

theorem scoreDelta_acts {P : Act W → Prop} (hcall : ∀ text r, P (.evaluateStreaming text r))
    (F : Fanout W)
    (hscore : ∀ branch score, P (.yielded (.verifierScore F.step branch score))) (branch : Nat)
    (text : String) : (F.scoreDelta branch text).Acts P := by
  unfold Fanout.scoreDelta
  split
  · exact .pure _
  · refine .bind (.call fun _ => hcall _ _) fun score => ?_
    split
    · exact .emit (hscore _ _)
    · exact .pure _

/-- In a fan-out the conductor asks its verifier and yields scores, and does nothing else. -/
theorem play_acts {P : Party × Act W → Prop} (hworker : ∀ branch a, P (.worker branch, a))
    (hcall : ∀ text r, P (.conductor, .evaluateStreaming text r)) (F : Fanout W)
    (hscore : ∀ branch score, P (.conductor, .yielded (.verifierScore F.step branch score)))
    (w : W) (moves : List Fanout.Move) : ∀ t ∈ (F.play (F.start w) moves).trace, P t := by
  refine Fanout.play_induction (F := F) (P := fun f => ∀ t ∈ f.trace, P t)
    (fun f f' hf h => ?_) (fun _ h => absurd h List.not_mem_nil) _
  cases h with
  | ran => exact List.forall_mem_append.2 ⟨hf, List.forall_mem_map.2 fun _ _ => hworker _ _⟩
  | timedOut | panicked | done => exact hf
  | timedOutSending =>
    exact List.forall_mem_append.2 ⟨hf, List.forall_mem_singleton.2 (hworker _ _)⟩
  | delta _ _ _ hrun =>
    have hacts := (scoreDelta_acts (P := fun a => P (.conductor, a)) hcall F hscore _ _).of_run hrun
    exact List.forall_mem_append.2 ⟨hf, List.forall_mem_map.2 hacts⟩

theorem dispatchWorkersStreaming_acts (C : Conductor W) (p : Principal) (S : Schedule W)
    (step : Nat) (plan : List WorkerDispatch) :
    (C.dispatchWorkersStreaming p S step plan).Acts (ActsInRound step) :=
  fun w => play_acts (fun _ _ => trivial) (fun _ _ => trivial) (C.fanout p true step plan)
    (fun _ _ => rfl) w _

theorem yieldResult_acts {P : Act W → Prop} (C : Conductor W) (p : Principal) (prompt : String)
    (step idx : Nat) (r : WorkerResult)
    (hresult : P (.yielded (.toolCallResult step s!"step{step}-{idx}" r.toJson r.err?.isSome)))
    (hcall : ∀ text r, P (.score prompt text r))
    (hscore : ∀ branch score, P (.yielded (.verifierScore step branch score))) :
    (C.yieldResult p prompt step idx r).Acts P := by
  refine .bind (.emit hresult) fun _ => ?_
  split
  · exact .bind (.call fun _ => hcall _ _) fun _ => .emit (hscore _ _)
  · exact .pure _

theorem report_acts {P : Party × Act W → Prop} (C : Conductor W) (s : RunState)
    (results : List WorkerResult) : (C.report s results).Acts P := by
  unfold report
  split
  · exact .throw _
  · split
    · exact .pure _
    · exact .throw _

/-- What holds of all that a round of `stream` does, by what the round is made of. -/
theorem roundStreaming_acts_of {P : Party × Act W → Prop} {C : Conductor W} {p : Principal}
    {S : Schedule W} {prompt : String} {step : Nat} {s : RunState}
    (hstart : P (.conductor, .yielded (.stepStart step)))
    (hask : (C.ask p s.messages).Acts fun a => P (.conductor, a))
    (htext : ∀ text, P (.conductor, .yielded (.assistantText step text)))
    (hcall : ∀ (name : String) (idx : Nat),
      P (.conductor, .yielded (.toolCallStart step name s!"step{step}-{idx}")))
    (hdispatch : ∀ plan, (C.dispatchWorkersStreaming p S step plan).Acts P)
    (hresult : ∀ idx r, (C.yieldResult p prompt step idx r).Acts fun a => P (.conductor, a)) :
    (C.roundStreaming p S prompt step s).Acts P := by
  refine .bind (.embed (.emit hstart)) fun _ => .bind (.embed hask) fun resp =>
    .bind (.embed ?_) fun _ => ?_
  · split
    · exact .pure _
    · exact .emit (htext _)
  · dsimp only
    split
    · exact .pure _
    · split
      · exact .pure _
      · split
        · exact .pure _
        · refine .bind (.embed (.forM (fun _ => ?_) _)) fun _ => ?_
          · exact .emit (hcall _ _)
          · refine .bind (hdispatch _) fun results => ?_
            refine .bind (.embed (.forM (fun _ => hresult _ _) _)) fun _ => ?_
            exact .bind (report_acts C _ _) fun _ => .pure _

theorem roundStreaming_acts (C : Conductor W) (p : Principal) (S : Schedule W) (prompt : String)
    (step : Nat) (s : RunState) :
    (C.roundStreaming p S prompt step s).Acts (ActsInRound step) := by
  have hask : StaysIn step (C.ask p s.messages) :=
    ask_acts (fun a h => actsInRound_of_not_yield step .conductor h) _ _ _
  have hresult (idx : Nat) (r : WorkerResult) : StaysIn step (C.yieldResult p prompt step idx r) :=
    yieldResult_acts C p _ _ _ _ ⟨rfl, _, rfl⟩ (fun _ _ => trivial) fun _ _ => rfl
  exact roundStreaming_acts_of rfl hask (fun _ => rfl) (fun _ _ => rfl)
    (dispatchWorkersStreaming_acts C p S step) hresult

theorem rounds_acts {P : Party × Act W → Prop}
    {round : Nat → RunState → CM W (RunState ⊕ OrchOutput)}
    (h : ∀ step s, (round step s).Acts P) (n step : Nat) (s : RunState) :
    (rounds round n step s).Acts P := by
  induction n generalizing step s with
  | zero => exact .pure _
  | succ n ih =>
    refine .bind (h step s) fun r => ?_
    cases r with
    | inl s' => exact ih _ _
    | inr output => exact .pure _

end Conductor

end Tako.Orchestrator
