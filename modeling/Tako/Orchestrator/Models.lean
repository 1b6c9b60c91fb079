import Tako.Orchestrator.AbMctsUsage
import Tako.Orchestrator.Conductor.Events

/-!
# The model of a request

Whatever an orchestrator asks a provider, the request's model is the second part of the provider's
id (`Issued.model`).
-/

namespace Tako.Orchestrator

open Traced

variable {W G ρ κ : Type}

/-- The request that an action makes to the provider with this id. -/
def Act.asks (id : String) : Act W → Option ChatRequest
  | .chat provider req _ | .stream provider req _ => if provider = id then some req else none
  | _ => none

/-- A request's model is that of the provider's id. -/
def Act.NamesModel : Act W → Prop
  | .chat provider req _ | .stream provider req _ => req.model = modelOf provider
  | _ => True

theorem Act.NamesModel.model_eq {t : Act W} {id : String} {req : ChatRequest} (h : t.NamesModel)
    (hasks : t.asks id = some req) : req.model = modelOf id := by
  cases t with
  | chat provider req' r | stream provider req' r =>
    unfold asks at hasks
    obtain ⟨rfl, hreq⟩ := Option.ite_none_right_eq_some.1 hasks
    cases hreq
    exact h
  | _ => cases hasks

theorem yield_namesModel (e : OrchEvent) : (yield e : M W Unit).Acts Act.NamesModel :=
  .emit trivial

/-! ## Agent loops -/

namespace Loop

variable {L : Loop W ρ} {H : Hooks W ρ κ}

theorem turn_namesModel (hpick : ∀ messages, (L.pick messages).Acts Act.NamesModel) (step : Nat)
    (s : LoopState) : (L.turn step s).Acts Act.NamesModel := by
  unfold turn
  refine .bind (hpick _) fun _ => .bind (.read _) fun _ => ?_
  refine .bind (preCheck_acts (fun _ _ _ => trivial) _ _ _ _) fun _ => ?_
  refine .bind (.call fun _ => rfl) fun _ => ?_
  refine .bind (record_acts (fun _ _ _ => trivial) _ _ _ _) fun _ => ?_
  exact finishTurn_acts (fun _ _ _ _ _ => trivial) (fun _ _ _ => trivial) (fun _ => .pure _) _ _ _
    _ _ _

theorem run_namesModel (hpick : ∀ messages, (L.pick messages).Acts Act.NamesModel)
    (messages : List Message) : (L.run messages).Acts Act.NamesModel :=
  .bind (turns_acts (turn_namesModel hpick) _ _ _) fun _ => .pure _

theorem streamTurn_namesModel (hpick : ∀ messages, (L.pick messages).Acts Act.NamesModel)
    (hH : H.Acts Act.NamesModel) (step : Nat) (s : LoopState) (k : κ) :
    (L.streamTurn H step s k).Acts Act.NamesModel := by
  unfold streamTurn
  refine .bind (hH.turnStart _) fun _ => .bind (hpick _) fun _ => .bind (.read _) fun _ => ?_
  refine .bind (preCheck_acts (fun _ _ _ => trivial) _ _ _ _) fun _ => ?_
  refine .bind (respond_acts hH (fun _ => trivial) _ _ _ _ _ _ _ (fun _ => rfl) fun _ _ => rfl)
    fun _ => ?_
  refine .bind (record_acts (fun _ _ _ => trivial) _ _ _ _) fun _ => ?_
  refine .bind (hH.onTurn _ _ _) fun _ => ?_
  exact .bind (finishTurn_acts (fun _ _ _ _ _ => trivial) (fun _ _ _ => trivial) hH.toolEvent _ _
    _ _ _ _) fun _ => .pure _

theorem streamTurns_namesModel (hpick : ∀ messages, (L.pick messages).Acts Act.NamesModel)
    (hH : H.Acts Act.NamesModel) (n step : Nat) (s : LoopState) (k : κ) :
    (L.streamTurns H n step s k).Acts Act.NamesModel :=
  streamTurns_induction (Q := fun _ x => x.Acts Act.NamesModel) (fun _ => .pure _)
    (fun step s k _ hf => .bind (streamTurn_namesModel hpick hH step s k) fun a => hf a.1 a.2)
    n step s k

theorem runStreaming_namesModel (hpick : ∀ messages, (L.pick messages).Acts Act.NamesModel)
    (hH : H.Acts Act.NamesModel) (messages : List Message) (k : κ) :
    (L.runStreaming H messages k).Acts Act.NamesModel :=
  .bind (streamTurns_namesModel hpick hH _ _ _ _) fun _ => .pure _

end Loop

/-! ## `SingleAgent`, `Trinity` and `AbMcts` -/

theorem SingleAgent.run_namesModel (A : SingleAgent W) (p : Principal) (input : OrchInput) :
    (A.run p input).Acts Act.NamesModel :=
  Loop.run_namesModel (SingleAgent.pick_acts (fun _ _ _ => trivial) A p) _

theorem SingleAgent.stream_namesModel (A : SingleAgent W) (p : Principal) (input : OrchInput) :
    (A.stream p input).Acts Act.NamesModel :=
  .bind (Loop.runStreaming_namesModel (SingleAgent.pick_acts (fun _ _ _ => trivial) A p)
    (SingleAgent.hooks_acts fun _ => trivial) _ _) fun _ => .emit trivial

theorem Trinity.run_namesModel (T : Trinity W) (p : Principal) (input : OrchInput) :
    (T.run p input).Acts Act.NamesModel :=
  Loop.run_namesModel (Trinity.pick_acts (fun _ _ _ => trivial) T p) _

theorem Trinity.stream_namesModel (T : Trinity W) (p : Principal) (input : OrchInput) :
    (T.stream p input).Acts Act.NamesModel :=
  .bind (Loop.runStreaming_namesModel (Trinity.pick_acts (fun _ _ _ => trivial) T p)
    (Trinity.hooks_acts (fun _ => trivial) (fun _ _ _ => trivial) (fun _ _ => trivial) T p _) _ _)
    fun _ => .emit trivial

namespace AbMcts

variable (A : AbMcts W G) (p : Principal)

theorem rollout_namesModel (messages : List Message) :
    (A.rollout p messages).Acts Act.NamesModel :=
  .bind (pickRolloutProvider_acts (fun _ _ _ => trivial) _) fun _ =>
    Loop.run_namesModel (fun _ => .pure _) _

theorem rolloutStreaming_namesModel (iteration branch : Nat) (messages : List Message) :
    (A.rolloutStreaming p iteration branch messages).Acts Act.NamesModel := by
  refine .bind (pickRolloutProvider_acts (fun _ _ _ => trivial) _) fun picked => ?_
  split
  · exact Loop.runStreaming_namesModel (fun _ => .pure _)
      (rolloutHooks_acts (fun _ _ => trivial) (fun _ => trivial) fun _ => trivial) _ _
  · refine .bind (Loop.run_namesModel (fun _ => .pure _) _) fun output => ?_
    split
    · exact .bind (.emit trivial) fun _ => .pure _
    · exact .pure _

theorem iterateWith_namesModel (prompt : String) {rollout : Nat → List Message → M W OrchOutput}
    {scored : Nat → Rat → M W Unit}
    (hr : ∀ n messages, (rollout n messages).Acts Act.NamesModel)
    (hs : ∀ n x, (scored n x).Acts Act.NamesModel) (s : Search G) :
    (A.iterateWith p prompt rollout scored s).Acts Act.NamesModel :=
  .bind (hr _ _) fun _ => .bind (.call fun _ => trivial) fun _ => .bind (hs _ _) fun _ => .pure _

theorem run_namesModel (input : OrchInput) (rng : G) :
    (A.run p input rng).Acts Act.NamesModel := by
  refine .bind (iterations_acts (fun _ _ => ?_) _ _ _) fun _ => .ofExcept _
  exact iterateWith_namesModel A p _ (fun _ => rollout_namesModel A p) (fun _ _ => .pure _) _

theorem stream_namesModel (input : OrchInput) (rng : G) :
    (A.stream p input rng).Acts Act.NamesModel := by
  refine .bind (iterations_acts (fun i s => ?_) _ _ _)
    fun _ => .bind (.ofExcept _) fun _ => .emit trivial
  exact .bind (yield_namesModel _) fun _ => iterateWith_namesModel A p _
    (rolloutStreaming_namesModel A p _) (fun _ _ => yield_namesModel _) _

end AbMcts

/-! ## `Conductor` -/

/-- Whoever asks a provider. -/
def namesModel (t : Party × Act W) : Prop := t.2.NamesModel

theorem Fanout.taskStep_namesModel (F : Fanout W) (branch : Nat) (d : WorkerDispatch)
    (worker : Option (Worker W)) (task : Task) :
    (F.taskStep branch d worker task).Acts Act.NamesModel := by
  unfold taskStep
  split
  · exact .pure _
  · exact .pure _
  · refine .bind (Acts.attempt (Loop.preCheck_acts (fun _ _ _ => trivial) _ _ _ _)) fun r => ?_
    split <;> exact .pure _
  · refine .bind (Acts.attempt (.call fun _ => rfl)) fun r => ?_
    split <;> exact .pure _
  · exact .bind (.emit trivial) fun _ => .pure _
  · refine .bind (.emit trivial) fun _ => ?_
    split
    · split <;> exact .pure _
    all_goals exact .pure _
  · refine .bind (Acts.attempt (.call fun _ => rfl)) fun r => ?_
    split <;> exact .pure _
  · refine .bind (Acts.attempt (Loop.record_acts (fun _ _ _ => trivial) _ _ _ _)) fun r => ?_
    split <;> exact .pure _
  all_goals exact .pure _

theorem Fanout.play_namesModel (F : Fanout W) (w : W) (moves : List Move) :
    ∀ t ∈ (F.play (F.start w) moves).trace, namesModel t := by
  refine play_induction (F := F) (P := fun f => ∀ t ∈ f.trace, namesModel t)
    (fun f f' hf h => ?_) (fun _ h => absurd h List.not_mem_nil) _
  cases h with
  | ran _ _ _ _ hrun =>
    have hacts := (F.taskStep_namesModel _ _ _ _).of_run hrun
    exact List.forall_mem_append.2 ⟨hf, List.forall_mem_map.2 hacts⟩
  | timedOut | panicked | done => exact hf
  | timedOutSending => exact List.forall_mem_append.2 ⟨hf, List.forall_mem_singleton.2 trivial⟩
  | delta _ _ _ hrun =>
    have hacts := (Conductor.scoreDelta_acts (P := Act.NamesModel) (fun _ _ => trivial) F
      (fun _ _ => trivial) _ _).of_run hrun
    exact List.forall_mem_append.2 ⟨hf, List.forall_mem_map.2 hacts⟩

namespace Conductor

variable (C : Conductor W) (p : Principal) (S : Schedule W)

theorem ask_namesModel (messages : List Message) : (C.ask p messages).Acts Act.NamesModel :=
  .bind (Loop.preCheck_acts (fun _ _ _ => trivial) _ _ _ _) fun _ =>
    .bind (.call fun _ => rfl) fun _ =>
      .bind (Loop.record_acts (fun _ _ _ => trivial) _ _ _ _) fun _ => .pure _

theorem round_namesModel (step : Nat) (s : RunState) :
    (C.round p S step s).Acts namesModel := by
  refine .bind (.embed (ask_namesModel C p _)) fun resp => ?_
  dsimp only
  split
  · exact .pure _
  · split
    · exact .pure _
    · split
      · exact .pure _
      · refine .bind (fun w => Fanout.play_namesModel _ w _) fun results => ?_
        exact .bind (report_acts C _ _) fun _ => .pure _

theorem roundStreaming_namesModel (prompt : String) (step : Nat) (s : RunState) :
    (C.roundStreaming p S prompt step s).Acts namesModel :=
  roundStreaming_acts_of trivial (ask_namesModel C p _) (fun _ => trivial) (fun _ _ => trivial)
    (fun _ w => Fanout.play_namesModel _ w _)
    fun _ _ => yieldResult_acts C p _ _ _ _ trivial (fun _ _ => trivial) fun _ _ => trivial

theorem run_namesModel (input : OrchInput) : (C.run p S input).Acts namesModel :=
  rounds_acts (round_namesModel C p S) _ _ _

theorem stream_namesModel (input : OrchInput) : (C.stream p S input).Acts namesModel :=
  .bind (rounds_acts (roundStreaming_namesModel C p S _) _ _ _) fun _ => .embed (.emit trivial)

end Conductor

/-! ## Requests -/

/-- An orchestrator makes the request to the provider with this id, in some run or stream. -/
inductive Issued (W : Type) (id : String) (req : ChatRequest) : Prop
  | single (A : SingleAgent W) (p : Principal) (input : OrchInput) (w : W) {t : Act W} :
    t ∈ ((A.run p input).run w).trace ∨ t ∈ ((A.stream p input).run w).trace →
    t.asks id = some req → Issued W id req
  | trinity (T : Trinity W) (p : Principal) (input : OrchInput) (w : W) {t : Act W} :
    t ∈ ((T.run p input).run w).trace ∨ t ∈ ((T.stream p input).run w).trace →
    t.asks id = some req → Issued W id req
  | abMcts {G : Type} (A : AbMcts W G) (p : Principal) (input : OrchInput) (rng : G) (w : W)
    {t : Act W} :
    t ∈ ((A.run p input rng).run w).trace ∨ t ∈ ((A.stream p input rng).run w).trace →
    t.asks id = some req → Issued W id req
  | conductor (C : Conductor W) (p : Principal) (S : Schedule W) (input : OrchInput) (w : W)
    {party : Party} {t : Act W} :
    (party, t) ∈ ((C.run p S input).run w).trace ∨
      (party, t) ∈ ((C.stream p S input).run w).trace →
    t.asks id = some req → Issued W id req

theorem Issued.model {id : String} {req : ChatRequest} (h : Issued W id req) :
    req.model = modelOf id := by
  cases h with
  | single A p input w ht hasks =>
    refine Act.NamesModel.model_eq ?_ hasks
    exact ht.elim (A.run_namesModel p input w _) (A.stream_namesModel p input w _)
  | trinity T p input w ht hasks =>
    refine Act.NamesModel.model_eq ?_ hasks
    exact ht.elim (T.run_namesModel p input w _) (T.stream_namesModel p input w _)
  | abMcts A p input rng w ht hasks =>
    refine Act.NamesModel.model_eq ?_ hasks
    exact ht.elim (A.run_namesModel p input rng w _) (A.stream_namesModel p input rng w _)
  | conductor C p S input w ht hasks =>
    refine Act.NamesModel.model_eq ?_ hasks
    exact ht.elim (C.run_namesModel p S input w _) (C.stream_namesModel p S input w _)

end Tako.Orchestrator
