import Tako.Orchestrator.Loop

/-!
# `SingleAgent`

One provider, or several with a router, and a tool registry
(`tako-orchestrator/src/single.rs`).
-/

namespace Tako.Orchestrator

/-- A step limit. The builders raise 0 to 1. -/
abbrev StepLimit := { n : Nat // 0 < n }

def StepLimit.atLeastOne (n : UInt32) : StepLimit := ⟨max n.toNat 1, by omega⟩

theorem StepLimit.exists_eq (limit : StepLimit) : ∃ n, limit.1 = n + 1 :=
  Nat.exists_eq_add_one.2 limit.2

def defaultMaxSteps : StepLimit := ⟨8, by decide⟩

structure SingleAgent (W : Type) where
  codec : Codec
  provider : LlmProvider W
  candidates : List (LlmProvider W) := []
  router : Option (Router W) := none
  tools : ToolRegistry W
  maxSteps : StepLimit := defaultMaxSteps
  defaults : ChatDefaults := {}
  policy : Option (PolicyEngine W) := none
  budget : Option (BudgetTracker W) := none

variable {W : Type}

/-- `pick_provider_static`: without a router or candidates always the primary provider. -/
def pickProviderStatic (primary : LlmProvider W) (candidates : List (LlmProvider W))
    (router : Option (Router W)) (principal : Principal) (messages : List Message) :
    M W (LlmProvider W) :=
  match router with
  | none => pure primary
  | some router =>
    if candidates.isEmpty then pure primary
    else do
      let pool := primary :: candidates
      let decision ← route router principal (.new "router" messages) (pool.map (·.id))
      match pool.find? (·.id = decision.providerId) with
      | some p => pure p
      | none => .throw (.invalid
          s!"SingleAgent: router chose unknown provider id `{decision.providerId}`")

namespace SingleAgent

variable (A : SingleAgent W) (principal : Principal)

def pickProvider (messages : List Message) : M W (LlmProvider W) :=
  pickProviderStatic A.provider A.candidates A.router principal messages

def loop : Loop W Unit where
  codec := A.codec
  principal
  pick messages := do
    let p ← A.pickProvider principal messages
    pure ((), p)
  tools := A.tools
  policy := A.policy
  budget := A.budget
  defaults := A.defaults
  maxSteps := A.maxSteps

/-- What `stream` yields. -/
def hooks : Hooks W Unit Unit where
  streams p := p.capabilities.supportsStreaming
  turnStart step := yield (.stepStart step)
  onText _ step _ delta _ := yield (.assistantText step delta)
  onChat _ step _ text := yield (.assistantText step text)
  onTurn _ _ _ := pure ()
  toolEvent := yield

def run (input : OrchInput) : M W OrchOutput := (A.loop principal).run input.conversation

def stream (input : OrchInput) : M W Unit := do
  let output ← (A.loop principal).runStreaming hooks input.conversation ()
  yield (.final output)

end SingleAgent

/-! ## What they do -/

open Traced

theorem pickProviderStatic_acts {P : Act W → Prop} (hroute : ∀ req cs r, P (.route req cs r))
    (primary : LlmProvider W) (candidates : List (LlmProvider W)) (router : Option (Router W))
    (principal : Principal) (messages : List Message) :
    (pickProviderStatic primary candidates router principal messages).Acts P := by
  unfold pickProviderStatic
  split
  · exact .pure _
  · split
    · exact .pure _
    · refine .bind (.call fun _ => hroute _ _ _) fun decision => ?_
      split
      · exact .pure _
      · exact .throw _

namespace SingleAgent

variable {P : Act W → Prop}

theorem pick_acts (hroute : ∀ req cs r, P (.route req cs r)) (A : SingleAgent W) (p : Principal)
    (messages : List Message) : ((A.loop p).pick messages).Acts P :=
  .bind (pickProviderStatic_acts hroute _ _ _ _ _) fun _ => .pure _

theorem hooks_acts (hy : ∀ e, P (.yielded e)) : (hooks : Hooks W Unit Unit).Acts P where
  turnStart _ := .emit (hy _)
  onText _ _ _ _ _ := .emit (hy _)
  onChat _ _ _ _ := .emit (hy _)
  onTurn _ _ _ := .pure _
  toolEvent _ := .emit (hy _)

variable {A : SingleAgent W} {p : Principal}

theorem loop_acts (h : ∀ t : Act W, ¬t.IsEvaluate → P t)
    (he : ∀ engine ∈ A.policy, ∀ w ctx, ctx.stage = .preTool →
      P (.evaluate w ctx (engine.evaluate p ctx w).1)) : (A.loop p).Acts P where
  pick := pick_acts (fun _ _ _ => h _ id) A p
  preCheck _ _ _ := h _ id
  chat _ _ _ := h _ id
  stream _ _ _ := h _ id
  next _ := h _ id
  record _ _ _ := h _ id
  evaluate := he
  invoke _ _ _ := h _ id

theorem run_acts (h : ∀ t : Act W, ¬t.IsEvaluate → P t)
    (he : ∀ engine ∈ A.policy, ∀ w ctx, ctx.stage = .preTool →
      P (.evaluate w ctx (engine.evaluate p ctx w).1)) (input : OrchInput) :
    (A.run p input).Acts P :=
  Loop.run_acts (loop_acts h he) _

theorem stream_acts (h : ∀ t : Act W, ¬t.IsEvaluate → P t)
    (he : ∀ engine ∈ A.policy, ∀ w ctx, ctx.stage = .preTool →
      P (.evaluate w ctx (engine.evaluate p ctx w).1)) (input : OrchInput) :
    (A.stream p input).Acts P :=
  .bind (Loop.runStreaming_acts (loop_acts h he) (hooks_acts fun _ => h _ id) _ _)
    fun _ => .emit (h _ id)

end SingleAgent

end Tako.Orchestrator
