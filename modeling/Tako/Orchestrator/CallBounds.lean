import Tako.Orchestrator.AbMctsTree
import Tako.Orchestrator.Conductor.Events
import Tako.Theory.TracedHistory

/-!
# How often a provider is called

A turn calls its provider once, or twice if a stream does not start. So the limits that an
orchestrator is built with bound its calls, whatever the providers, the router, the tools and the
verifier do (`calls_bounded`).
-/

namespace Tako.Orchestrator

open Traced

variable {W ρ κ G : Type}

/-- A request to a provider, by `chat` or by `stream`. -/
def Act.callsProvider : Act W → Bool
  | .chat _ _ _ | .stream _ _ _ => true
  | _ => false

/-- At most `n` requests to providers. -/
abbrev CallsAtMost (n : Nat) (x : M W α) : Prop := AtMost Act.callsProvider n x

/-- No request to a provider. -/
abbrev CallsNone (x : M W α) : Prop := x.Acts fun t => t.callsProvider = false

theorem yield_callsNone (e : OrchEvent) : CallsNone (W := W) (yield e) := .emit rfl

/-! ## The loop -/

namespace Loop

variable {L : Loop W ρ} {H : Hooks W ρ κ}

theorem finishTurn_callsNone {event : OrchEvent → M W Unit} (hev : ∀ e, CallsNone (event e))
    (step : Nat) (model : String) (s : LoopState) (assistant : Message) (fr : FinishReason)
    (usage : Usage) : CallsNone (L.finishTurn event step model s assistant fr usage) :=
  finishTurn_acts (fun _ _ _ _ _ => rfl) (fun _ _ _ => rfl) hev _ _ _ _ _ _

theorem turn_calls (hpick : ∀ ms, CallsNone (L.pick ms)) (step : Nat) (s : LoopState) :
    CallsAtMost 1 (L.turn step s) := by
  refine .after (hpick _) fun _ => .after (.read _) fun _ => ?_
  refine .after (preCheck_acts (fun _ _ _ => rfl) _ _ _ _) fun _ => ?_
  refine .before .call fun _ => .bind (record_acts (fun _ _ _ => rfl) _ _ _ _) fun _ => ?_
  exact finishTurn_callsNone (fun _ => .pure _) _ _ _ _ _ _

theorem turns_calls {turn : Nat → LoopState → M W LoopState} {m : Nat}
    (h : ∀ step s, CallsAtMost m (turn step s)) (n step : Nat) (s : LoopState) :
    CallsAtMost (m * n) (turns turn n step s) := by
  induction n generalizing step s with
  | zero => exact .pure _
  | succ n ih =>
    rw [Nat.mul_succ, Nat.add_comm]
    refine .bind (h step s) fun s => ?_
    cases s.final with
    | some message => exact .pure _
    | none => exact ih (step + 1) s

theorem run_calls (hpick : ∀ ms, CallsNone (L.pick ms)) (messages : List Message) :
    CallsAtMost L.maxSteps (L.run messages) := by
  refine .before ?_ fun _ => .pure _
  exact (turns_calls (turn_calls hpick) L.maxSteps 0 { messages }).weaken (by omega)

theorem chatFallback_calls (hH : H.Acts fun t => t.callsProvider = false) (role : ρ) (step : Nat)
    (provider : LlmProvider W) (model : String) (messages : List Message) (k : κ) :
    CallsAtMost 1 (L.chatFallback H role step provider model messages k) := by
  refine .after (.read _) fun _ => .before .call fun resp => ?_
  dsimp only
  split
  · exact .bind (.pure _) fun _ => .pure _
  · exact .bind (hH.onChat _ _ _ _) fun _ => .pure _

/-- A stream that does not start is followed by another request. -/
theorem respond_calls (hH : H.Acts fun t => t.callsProvider = false) (role : ρ) (step : Nat)
    (provider : LlmProvider W) (model : String) (messages : List Message) (req : ChatRequest)
    (k : κ) : CallsAtMost 2 (L.respond H role step provider model messages req k) := by
  unfold respond
  split
  · refine AtMost.bind (m := 1) (n := 1) (.attempt .call) fun started => ?_
    cases started with
    | ok chunks =>
      refine .before (.weaken (.of_acts ?_) (Nat.zero_le 1)) fun _ => .pure _
      exact consume_acts hH (fun _ => rfl) _ _ _ _ _ _ _
    | error e => exact chatFallback_calls hH _ _ _ _ _ _
  · exact (chatFallback_calls hH _ _ _ _ _ _).weaken (by decide)

theorem streamTurn_calls (hpick : ∀ ms, CallsNone (L.pick ms))
    (hH : H.Acts fun t => t.callsProvider = false) (step : Nat) (s : LoopState) (k : κ) :
    CallsAtMost 2 (L.streamTurn H step s k) := by
  refine .after (hH.turnStart _) fun _ => .after (hpick _) fun _ => .after (.read _) fun _ => ?_
  refine .after (preCheck_acts (fun _ _ _ => rfl) _ _ _ _) fun _ => ?_
  refine .before (respond_calls hH _ _ _ _ _ _ _) fun _ => ?_
  refine .bind (record_acts (fun _ _ _ => rfl) _ _ _ _) fun _ => .bind (hH.onTurn _ _ _) fun _ => ?_
  exact .bind (finishTurn_callsNone hH.toolEvent _ _ _ _ _ _) fun _ => .pure _

theorem runStreaming_calls (hpick : ∀ ms, CallsNone (L.pick ms))
    (hH : H.Acts fun t => t.callsProvider = false) (messages : List Message) (k : κ) :
    CallsAtMost (2 * L.maxSteps) (L.runStreaming H messages k) := by
  refine .before ?_ fun _ => .pure _
  have hturns (n step : Nat) (s : LoopState) (k : κ) :
      CallsAtMost (2 * n) (L.streamTurns H n step s k) := by
    induction n generalizing step s k with
    | zero => exact .pure _
    | succ n ih =>
      rw [Nat.mul_succ, Nat.add_comm]
      refine .bind (streamTurn_calls hpick hH step s k) fun a => ?_
      dsimp only
      cases a.1.final with
      | some message => exact .pure _
      | none => exact ih (step + 1) a.1 a.2
  exact hturns _ _ _ _

end Loop

/-! ## The tree search -/

namespace AbMcts

variable {A : AbMcts W G} {p : Principal}

theorem rollout_calls (messages : List Message) :
    CallsAtMost A.maxStepsPerRollout (A.rollout p messages) :=
  .after (pickRolloutProvider_acts (fun _ _ _ => rfl) _) fun picked =>
    Loop.run_calls (L := A.rolloutLoop p picked) (fun _ => .pure _) messages

theorem rolloutStreaming_calls (iteration branch : Nat) (messages : List Message) :
    CallsAtMost (2 * A.maxStepsPerRollout) (A.rolloutStreaming p iteration branch messages) := by
  refine .after (pickRolloutProvider_acts (fun _ _ _ => rfl) _) fun picked => ?_
  have hhooks : (A.rolloutHooks p iteration branch).Acts fun t => t.callsProvider = false :=
    rolloutHooks_acts (fun _ _ => rfl) (fun _ => rfl) fun _ => rfl
  split
  · exact Loop.runStreaming_calls (L := A.rolloutLoop p picked) (fun _ => .pure _) hhooks _ ""
  · have hrun := Loop.run_calls (L := A.rolloutLoop p picked) (fun _ => .pure _) messages
    have hle : A.maxStepsPerRollout.1 ≤ 2 * A.maxStepsPerRollout := by omega
    refine .before (hrun.weaken hle) fun output => ?_
    split
    · exact .bind (yield_callsNone _) fun _ => .pure _
    · exact .pure _

theorem iterateWith_calls {prompt : String} {rollout : Nat → List Message → M W OrchOutput}
    {scored : Nat → Rat → M W Unit} {n : Nat} (hr : ∀ i ms, CallsAtMost n (rollout i ms))
    (hs : ∀ i x, CallsNone (scored i x)) (s : Search G) :
    CallsAtMost n (A.iterateWith p prompt rollout scored s) :=
  .before (hr _ _) fun _ => .bind (.call fun _ => rfl) fun _ => .bind (hs _ _) fun _ => .pure _

theorem iterations_calls {iterate : Nat → Search G → M W (Search G)} {m : Nat}
    (h : ∀ i s, CallsAtMost m (iterate i s)) (n i : Nat) (s : Search G) :
    CallsAtMost (n * m) (A.iterations iterate n i s) := by
  induction n generalizing i s with
  | zero => exact .pure _
  | succ n ih =>
    rw [Nat.succ_mul, Nat.add_comm]
    refine .bind (h i s) fun s => ?_
    split
    · exact .pure _
    · exact ih (i + 1) s

theorem run_calls (input : OrchInput) (rng : G) :
    CallsAtMost (A.maxIterations * A.maxStepsPerRollout) (A.run p input rng) := by
  refine .before (iterations_calls (fun _ s => ?_) _ _ _) fun _ => .ofExcept _
  exact iterateWith_calls (fun _ ms => rollout_calls ms) (fun _ _ => .pure _) s

theorem stream_calls (input : OrchInput) (rng : G) :
    CallsAtMost (A.maxIterations * (2 * A.maxStepsPerRollout)) (A.stream p input rng) := by
  refine .before (iterations_calls (fun i s => ?_) _ _ _) fun _ =>
    .bind (.ofExcept _) fun _ => yield_callsNone _
  refine .after (yield_callsNone _) fun _ => ?_
  exact iterateWith_calls (rolloutStreaming_calls i) (fun _ _ => yield_callsNone _) s

end AbMcts

/-! ## The conductor -/

namespace Conductor

variable {C : Conductor W} {p : Principal} {S : Schedule W}

/-- A request to the coordinator. -/
def asksCoordinator : Party × Act W → Bool
  | (.conductor, a) => a.callsProvider
  | (.worker _, _) => false

theorem ask_calls (messages : List Message) :
    AtMost (asksCoordinator (W := W)) 1 (byConductor (C.ask p messages)) := by
  refine .embed ?_
  refine .after (Loop.preCheck_acts (fun _ _ _ => rfl) _ _ _ _) fun _ => .before .call fun _ => ?_
  exact .bind (Loop.record_acts (fun _ _ _ => rfl) _ _ _ _) fun _ => .pure _

theorem rounds_calls {round : Nat → RunState → CM W (RunState ⊕ OrchOutput)}
    (h : ∀ step s, AtMost (asksCoordinator (W := W)) 1 (round step s)) (n step : Nat)
    (s : RunState) : AtMost (asksCoordinator (W := W)) n (rounds round n step s) := by
  induction n generalizing step s with
  | zero => exact .pure _
  | succ n ih =>
    refine AtMost.weaken (AtMost.bind (n := n) (h step s) fun r => ?_) (by omega)
    cases r with
    | inl s => exact ih (step + 1) s
    | inr output => exact .pure _

/-- A fan-out is the workers' affair. -/
theorem play_calls (F : Fanout W) (w : W) (moves : List Fanout.Move) :
    ∀ t ∈ (F.play (F.start w) moves).trace, asksCoordinator t = false :=
  play_acts (fun _ _ => rfl) (fun _ _ => rfl) F (fun _ _ => rfl) w moves

theorem run_calls (input : OrchInput) :
    AtMost (asksCoordinator (W := W)) C.maxSteps (C.run p S input) := by
  refine rounds_calls (fun step s => ?_) _ _ _
  refine .before (ask_calls _) fun resp => ?_
  dsimp only
  split
  · exact .pure _
  · split
    · exact .pure _
    · split
      · exact .pure _
      · refine .bind (fun w => play_calls _ w _) fun results => ?_
        exact .bind (report_acts C _ _) fun _ => .pure _

theorem stream_calls (input : OrchInput) :
    AtMost (asksCoordinator (W := W)) C.maxSteps (C.stream p S input) := by
  refine .before (rounds_calls (fun step s => ?_) _ _ _) fun _ => .embed (.emit rfl)
  refine .after (.embed (.emit rfl)) fun _ => .before (ask_calls _) fun resp => ?_
  refine .bind (.embed ?_) fun _ => ?_
  · split
    · exact .pure _
    · exact .emit rfl
  · dsimp only
    split
    · exact .pure _
    · split
      · exact .pure _
      · split
        · exact .pure _
        · refine .bind (.embed (.forM (fun _ => yield_callsNone _) _)) fun _ => ?_
          refine .bind (fun w => play_calls _ w _) fun results => ?_
          refine .bind (.embed (.forM (fun _ => ?_) _)) fun _ => ?_
          · exact yieldResult_acts C p _ _ _ _ rfl (fun _ _ => rfl) fun _ _ => rfl
          · exact .bind (report_acts C _ _) fun _ => .pure _

end Conductor

/-- The requests to providers in a trace. -/
def providerCalls (trace : List (Act W)) : Nat := trace.countP Act.callsProvider

/-- No run makes more requests than its limits allow: an agent as many as it has steps, a tree
search as many as its iterations have steps, and twice as many where it streams; a conductor asks
its coordinator once a round. -/
theorem calls_bounded (A : SingleAgent W) (T : Trinity W) (B : AbMcts W G) (C : Conductor W)
    (S : Schedule W) (p : Principal) (input : OrchInput) (rng : G) (w : W) :
    (providerCalls ((A.run p input).run w).trace ≤ A.maxSteps ∧
        providerCalls ((A.stream p input).run w).trace ≤ 2 * A.maxSteps) ∧
      (providerCalls ((T.run p input).run w).trace ≤ T.maxSteps ∧
        providerCalls ((T.stream p input).run w).trace ≤ 2 * T.maxSteps) ∧
      (providerCalls ((B.run p input rng).run w).trace ≤ B.maxIterations * B.maxStepsPerRollout ∧
        providerCalls ((B.stream p input rng).run w).trace ≤
          B.maxIterations * (2 * B.maxStepsPerRollout)) ∧
      ((C.run p S input).run w).trace.countP Conductor.asksCoordinator ≤ C.maxSteps ∧
      ((C.stream p S input).run w).trace.countP Conductor.asksCoordinator ≤ C.maxSteps := by
  refine ⟨⟨?_, ?_⟩, ⟨?_, ?_⟩, ⟨?_, ?_⟩, ?_, ?_⟩
  · exact Loop.run_calls (L := A.loop p) (SingleAgent.pick_acts (fun _ _ _ => rfl) A p) _ w
  · refine AtMost.before (Loop.runStreaming_calls (L := A.loop p) ?_ ?_ _ _)
      (fun _ => yield_callsNone _) w
    · exact SingleAgent.pick_acts (fun _ _ _ => rfl) A p
    · exact SingleAgent.hooks_acts fun _ => rfl
  · exact Loop.run_calls (L := T.loop p) (Trinity.pick_acts (fun _ _ _ => rfl) T p) _ w
  · refine AtMost.before (Loop.runStreaming_calls (L := T.loop p) ?_ ?_ _ _)
      (fun _ => yield_callsNone _) w
    · exact Trinity.pick_acts (fun _ _ _ => rfl) T p
    · exact Trinity.hooks_acts (fun _ => rfl) (fun _ _ _ => rfl) (fun _ _ => rfl) T p _
  · exact AbMcts.run_calls input rng w
  · exact AbMcts.stream_calls input rng w
  · exact Conductor.run_calls input w
  · exact Conductor.stream_calls input w

end Tako.Orchestrator
