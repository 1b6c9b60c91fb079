import Tako.Orchestrator.ToolCalls

/-!
# The agent loop

`SingleAgent`, `Trinity` and the rollouts of `AbMcts` (`tako-orchestrator/src/{single, trinity,
ab_mcts}.rs`) write the same loop out: pick a provider, check the budget, call, record, run the
tools, up to a number of steps. `Loop` holds what differs between them and `Loop.run` is the loop
over `chat`; `Hooks` holds what differs between their streaming copies and `Loop.runStreaming` is
the loop over `stream`.
-/

namespace Tako.Orchestrator

structure ChatDefaults where
  temperature : Option Rat := none
  maxTokens : Option UInt32 := none

/-- What one agent loop works with. `pick` picks a turn's provider, with a role. -/
structure Loop (W ρ : Type) where
  codec : Codec
  principal : Principal
  pick : List Message → M W (ρ × LlmProvider W)
  tools : ToolRegistry W
  policy : Option (PolicyEngine W)
  budget : Option (BudgetTracker W)
  defaults : ChatDefaults
  maxSteps : Nat

/-- What a streaming copy adds: which providers it streams from, and what it does besides, mostly
yielding events. `κ` is the state of its text hook. -/
structure Hooks (W ρ κ : Type) where
  streams : LlmProvider W → Bool
  turnStart : Nat → M W Unit
  /-- A text delta, and the turn's text up to and with it. -/
  onText : ρ → Nat → κ → String → String → M W κ
  /-- The text of a turn that was not streamed. -/
  onChat : ρ → Nat → κ → String → M W κ
  onTurn : ρ → Nat → Message → M W Unit
  toolEvent : OrchEvent → M W Unit

structure LoopState where
  messages : List Message
  usage : Usage := {}
  steps : Nat := 0
  final : Option Message := none

def LoopState.output (s : LoopState) : OrchOutput :=
  let message := s.final.getD (.assistant "")
  { text := message.text, message, usage := s.usage, steps := s.steps }

/-- A turn was answered. -/
def LoopState.answer (s : LoopState) (assistant : Message) (usage : Usage) : LoopState :=
  { s with
    steps := s.steps + 1, usage := s.usage.add usage, messages := s.messages ++ [assistant] }

/-- The results of the turn's tools, as one user message. -/
def LoopState.receive (s : LoopState) (results : List ContentPart) (final : Option Message) :
    LoopState :=
  { s with messages := s.messages ++ [⟨.user, results⟩], final }

/-- Whether a turn's answer is the final message. -/
def isFinal (assistant : Message) (finishReason : FinishReason) : Bool :=
  assistant.toolCalls.isEmpty ||
    ((finishReason = .stop || finishReason = .length) && assistant.toolCalls.isEmpty)

/-- The finish reason decides nothing. -/
@[simp] theorem isFinal_eq (assistant : Message) (finishReason : FinishReason) :
    isFinal assistant finishReason = assistant.toolCalls.isEmpty := by
  unfold isFinal
  cases assistant.toolCalls.isEmpty <;> simp

namespace Loop

variable {W ρ κ : Type} (L : Loop W ρ)

def request (model : String) (messages : List Message) (tools : List ToolSchema) (stream : Bool) :
    ChatRequest where
  model
  messages
  tools
  temperature := L.defaults.temperature
  maxTokens := L.defaults.maxTokens
  stop := []
  stream
  metadata := []

/-! ## Tools -/

/-- The `PreTool` context of a call. -/
def preToolContext (model : String) (messages : List Message) (name : String) (args : Json) :
    PolicyContext where
  stage := .preTool
  model
  messagesHash := L.codec.hashMessages messages
  tools := [name]
  toolArgsHash := some (L.codec.hashValue args)
  responseHash := none

/-- What a policy decision means for the call of a tool. -/
def enforce (name : String) : PolicyDecision → Result Unit
  | .deny reason => .error (.policyDenied s!"tool `{name}`: {reason}")
  | .requireApproval reason => .error (.policyDenied s!"tool `{name}` requires approval: {reason}")
  | _ => .ok ()

/-- The policy is consulted before a tool is invoked. -/
def gate (model : String) (messages : List Message) (name : String) (args : Json) : M W Unit :=
  match L.policy with
  | none => pure ()
  | some engine => do
    let decision ← evaluate engine L.principal (L.preToolContext model messages name args)
    .ofExcept (enforce name decision)

/-- A tool's answer, or its error as the model is told of it. -/
def toolValue : Result Json → Json × Bool
  | .ok v => (v, false)
  | .error e => (L.codec.errorJson e, true)

/-- The tool calls of one turn, in order. -/
def runTools (event : OrchEvent → M W Unit) (step : Nat) (model : String)
    (messages : List Message) : List (String × String × Json) → M W (List ContentPart)
  | [] => pure []
  | (id, name, args) :: calls => do
    L.gate model messages name args
    event (.toolCallStart step name id)
    let r ← (invoke L.tools L.principal name args).attempt
    let (result, isError) := L.toolValue r
    event (.toolCallResult step id result isError)
    let results ← runTools event step model messages calls
    pure (.toolResult id result isError :: results)

/-- The end of a turn: the assistant's message joins the conversation, then either it is the final
message or its tools run. -/
def finishTurn (event : OrchEvent → M W Unit) (step : Nat) (model : String) (s : LoopState)
    (assistant : Message) (finishReason : FinishReason) (usage : Usage) : M W LoopState :=
  let s := s.answer assistant usage
  if isFinal assistant finishReason then pure { s with final := some assistant }
  else do
    let results ← L.runTools event step model s.messages assistant.toolCalls
    pure (s.receive results (if step + 1 = L.maxSteps then some assistant else none))

/-! ## The loop over `chat` -/

def turn (step : Nat) (s : LoopState) : M W LoopState := do
  let (_, provider) ← L.pick s.messages
  let model := modelOf provider.id
  let schemas ← .read L.tools.schemas
  let req := L.request model s.messages schemas false
  let estimatedUsd := provider.estimateCostUsd req
  preCheck L.budget L.principal estimatedUsd (req.maxTokens.getD 0)
  let resp ← chat provider L.principal req
  record L.budget L.principal estimatedUsd resp.usage
  L.finishTurn (fun _ => pure ()) step model s resp.message resp.finishReason resp.usage

/-- The turns from `step` on, until one sets the final message. -/
def turns (turn : Nat → LoopState → M W LoopState) : Nat → Nat → LoopState → M W LoopState
  | 0, _, s => pure s
  | n + 1, step, s => do
    let s ← turn step s
    match s.final with
    | some _ => pure s
    | none => turns turn n (step + 1) s

def run (messages : List Message) : M W OrchOutput := do
  let s ← turns L.turn L.maxSteps 0 { messages }
  pure s.output

/-! ## The loop over `stream` -/

variable (H : Hooks W ρ κ)

/-- What has been received of a streamed response. -/
structure Received where
  text : String := ""
  deltas : List ToolCallDelta := []
  finishReason : FinishReason := .stop
  usage : Usage := {}

/-- The message that the received chunks make up. -/
def Received.message (codec : Codec) (r : Received) : Message where
  role := .assistant
  content := (if r.text = "" then [] else [.text r.text]) ++ assembleToolCalls codec r.deltas

/-- The text of one delta; an empty one counts for nothing. -/
def receiveText (role : ρ) (step : Nat) (r : Received) (k : κ) : Option String → M W (Received × κ)
  | none => pure (r, k)
  | some t =>
    if t = "" then pure (r, k)
    else do
      let text := r.text ++ t
      let k ← H.onText role step k t text
      pure ({ r with text }, k)

/-- The chunks of a stream are taken one after the other. -/
def consume (role : ρ) (step : Nat) (provider model : String) :
    List (Result ChatChunk) → Received → κ → M W (Received × κ)
  | [], r, k => do
    .emit (.next none)
    pure (r, k)
  | chunk :: chunks, r, k => do
    .emit (.next (some chunk))
    match chunk with
    | .error e => .throw e
    | .ok (.delta text toolCalls) => do
      let (r, k) ← receiveText H role step r k text
      consume role step provider model chunks { r with deltas := r.deltas ++ toolCalls } k
    | .ok (.error message) =>
      .throw (.provider s!"stream error: {message}" { providerId := provider, model })
    | .ok (.end finishReason usage) =>
      consume role step provider model chunks { r with finishReason, usage } k

/-- The call of a turn that is not streamed, and its text. -/
def chatFallback (role : ρ) (step : Nat) (provider : LlmProvider W) (model : String)
    (messages : List Message) (k : κ) : M W (Message × FinishReason × Usage × κ) := do
  let schemas ← .read L.tools.schemas
  let resp ← chat provider L.principal (L.request model messages schemas false)
  let text := resp.message.text
  let k ← if text = "" then pure k else H.onChat role step k text
  pure (resp.message, resp.finishReason, resp.usage, k)

/-- The call of a turn: streamed if the provider can, by `chat` if the stream does not start. -/
def respond (role : ρ) (step : Nat) (provider : LlmProvider W) (model : String)
    (messages : List Message) (req : ChatRequest) (k : κ) :
    M W (Message × FinishReason × Usage × κ) :=
  if H.streams provider then do
    match ← (stream provider L.principal req).attempt with
    | .ok chunks => do
      let (r, k) ← consume H role step provider.id model chunks {} k
      pure (r.message L.codec, r.finishReason, r.usage, k)
    | .error _ => L.chatFallback H role step provider model messages k
  else L.chatFallback H role step provider model messages k

def streamTurn (step : Nat) (s : LoopState) (k : κ) : M W (LoopState × κ) := do
  H.turnStart step
  let (role, provider) ← L.pick s.messages
  let model := modelOf provider.id
  let schemas ← .read L.tools.schemas
  let req := L.request model s.messages schemas (H.streams provider)
  let estimatedUsd := provider.estimateCostUsd req
  preCheck L.budget L.principal estimatedUsd (req.maxTokens.getD 0)
  let (assistant, finishReason, usage, k) ← L.respond H role step provider model s.messages req k
  record L.budget L.principal estimatedUsd usage
  H.onTurn role step assistant
  let s ← L.finishTurn H.toolEvent step model s assistant finishReason usage
  pure (s, k)

/-- The streaming turns from `step` on, until one sets the final message. -/
def streamTurns : Nat → Nat → LoopState → κ → M W LoopState
  | 0, _, s, _ => pure s
  | n + 1, step, s, k => do
    let (s, k) ← L.streamTurn H step s k
    match s.final with
    | some _ => pure s
    | none => streamTurns n (step + 1) s k

def runStreaming (messages : List Message) (k : κ) : M W OrchOutput := do
  let s ← L.streamTurns H L.maxSteps 0 { messages } k
  pure s.output

/-! ## What the parts of a turn do -/

end Loop

open Traced

/-- Every action of the hooks satisfies `P`. -/
structure Hooks.Acts {W ρ κ : Type} (P : Act W → Prop) (H : Hooks W ρ κ) : Prop where
  turnStart : ∀ step, (H.turnStart step).Acts P
  onText : ∀ role step k delta text, (H.onText role step k delta text).Acts P
  onChat : ∀ role step k text, (H.onChat role step k text).Acts P
  onTurn : ∀ role step assistant, (H.onTurn role step assistant).Acts P
  toolEvent : ∀ e, (H.toolEvent e).Acts P

namespace Loop

variable {L : Loop W ρ} {P : Act W → Prop}

theorem gate_acts
    (he : ∀ engine ∈ L.policy, ∀ w ctx, ctx.stage = .preTool →
      P (.evaluate w ctx (engine.evaluate L.principal ctx w).1))
    (model : String) (messages : List Message) (name : String) (args : Json) :
    (L.gate model messages name args).Acts P := by
  unfold gate
  split
  · exact .pure _
  · next engine hengine =>
    exact .bind (.call fun w => he engine hengine w _ rfl) fun _ => .ofExcept _

theorem runTools_acts
    (he : ∀ engine ∈ L.policy, ∀ w ctx, ctx.stage = .preTool →
      P (.evaluate w ctx (engine.evaluate L.principal ctx w).1))
    (hi : ∀ name args r, P (.invoke name args r)) {event : OrchEvent → M W Unit}
    (hstart : ∀ step name id, (event (.toolCallStart step name id)).Acts P)
    (hresult : ∀ step id result isError, (event (.toolCallResult step id result isError)).Acts P)
    (step : Nat) (model : String) (messages : List Message)
    (calls : List (String × String × Json)) :
    (L.runTools event step model messages calls).Acts P := by
  induction calls with
  | nil => exact .pure _
  | cons call calls ih =>
    obtain ⟨id, name, args⟩ := call
    unfold runTools
    refine .bind (gate_acts he _ _ _ _) fun _ => .bind (hstart _ _ _) fun _ => ?_
    refine .bind (Acts.attempt (.call fun _ => hi _ _ _)) fun _ => .bind (hresult _ _ _ _) fun _ => ?_
    exact .bind ih fun _ => .pure _

theorem finishTurn_acts
    (he : ∀ engine ∈ L.policy, ∀ w ctx, ctx.stage = .preTool →
      P (.evaluate w ctx (engine.evaluate L.principal ctx w).1))
    (hi : ∀ name args r, P (.invoke name args r)) {event : OrchEvent → M W Unit}
    (hev : ∀ e, (event e).Acts P) (step : Nat) (model : String) (s : LoopState)
    (assistant : Message) (finishReason : FinishReason) (usage : Usage) :
    (L.finishTurn event step model s assistant finishReason usage).Acts P := by
  unfold finishTurn
  dsimp only
  split
  · exact .pure _
  · exact .bind (runTools_acts he hi (fun _ _ _ => hev _) (fun _ _ _ _ => hev _) _ _ _ _)
      fun _ => .pure _

theorem preCheck_acts (h : ∀ est tokens r, P (.preCheck est tokens r))
    (budget : Option (BudgetTracker W)) (p : Principal) (est : Rat) (tokens : UInt32) :
    (preCheck budget p est tokens).Acts P := by
  unfold preCheck
  split
  · exact .call fun _ => h _ _ _
  · exact .pure _

theorem record_acts (h : ∀ usd usage r, P (.record usd usage r))
    (budget : Option (BudgetTracker W)) (p : Principal) (usd : Rat) (usage : Usage) :
    (record budget p usd usage).Acts P := by
  unfold record
  split
  · exact .call fun _ => h _ _ _
  · exact .pure _

variable {H : Hooks W ρ κ}

theorem receiveText_acts (hH : H.Acts P) (role : ρ) (step : Nat) (r : Received) (k : κ)
    (text : Option String) : (receiveText H role step r k text).Acts P := by
  unfold receiveText
  split
  · exact .pure _
  · split
    · exact .pure _
    · exact .bind (hH.onText _ _ _ _ _) fun _ => .pure _

theorem consume_acts (hH : H.Acts P) (hn : ∀ chunk, P (.next chunk)) (role : ρ) (step : Nat)
    (provider model : String) (chunks : List (Result ChatChunk)) (r : Received) (k : κ) :
    (consume H role step provider model chunks r k).Acts P := by
  induction chunks generalizing r k with
  | nil => exact .bind (.emit (hn _)) fun _ => .pure _
  | cons chunk chunks ih =>
    unfold consume
    refine .bind (.emit (hn _)) fun _ => ?_
    split
    · exact .throw _
    · exact .bind (receiveText_acts hH _ _ _ _ _) fun _ => ih _ _
    · exact .throw _
    · exact ih _ _

theorem chatFallback_acts (hH : H.Acts P) (role : ρ) (step : Nat) (provider : LlmProvider W)
    (model : String) (messages : List Message) (k : κ)
    (hc : ∀ tools r, P (.chat provider.id (L.request model messages tools false) r)) :
    (L.chatFallback H role step provider model messages k).Acts P := by
  unfold chatFallback
  refine .bind (.read _) fun _ => .bind (.call fun _ => hc _ _) fun resp => ?_
  dsimp only
  split
  · exact .bind (.pure _) fun _ => .pure _
  · exact .bind (hH.onChat _ _ _ _) fun _ => .pure _

theorem respond_acts (hH : H.Acts P) (hn : ∀ chunk, P (.next chunk)) (role : ρ) (step : Nat)
    (provider : LlmProvider W) (model : String) (messages : List Message) (req : ChatRequest)
    (k : κ) (hs : ∀ r, P (.stream provider.id req r))
    (hc : ∀ tools r, P (.chat provider.id (L.request model messages tools false) r)) :
    (L.respond H role step provider model messages req k).Acts P := by
  unfold respond
  split
  · refine .bind (Acts.attempt (.call fun _ => hs _)) fun started => ?_
    split
    · exact .bind (consume_acts hH hn _ _ _ _ _ _ _) fun _ => .pure _
    · exact chatFallback_acts hH _ _ _ _ _ _ hc
  · exact chatFallback_acts hH _ _ _ _ _ _ hc

/-- Every action of a turn but its hooks' satisfies `P`, whatever comes back. -/
structure Acts (P : Act W → Prop) (L : Loop W ρ) : Prop where
  pick : ∀ messages, (L.pick messages).Acts P
  preCheck : ∀ est tokens r, P (.preCheck est tokens r)
  chat : ∀ provider req r, P (.chat provider req r)
  stream : ∀ provider req r, P (.stream provider req r)
  next : ∀ chunk, P (.next chunk)
  record : ∀ usd usage r, P (.record usd usage r)
  evaluate : ∀ engine ∈ L.policy, ∀ w ctx, ctx.stage = .preTool →
    P (.evaluate w ctx (engine.evaluate L.principal ctx w).1)
  invoke : ∀ name args r, P (.invoke name args r)

theorem turn_acts (hL : L.Acts P) (step : Nat) (s : LoopState) : (L.turn step s).Acts P := by
  unfold turn
  refine .bind (hL.pick _) fun _ => .bind (.read _) fun _ => ?_
  refine .bind (preCheck_acts hL.preCheck _ _ _ _) fun _ => ?_
  refine .bind (.call fun _ => hL.chat _ _ _) fun _ => ?_
  refine .bind (record_acts hL.record _ _ _ _) fun _ => ?_
  exact finishTurn_acts hL.evaluate hL.invoke (fun _ => .pure _) _ _ _ _ _ _

/-- What the turns come to, if a turn leads from it to it. -/
theorem turns_induction {Q : LoopState → M W LoopState → Prop}
    {turn : Nat → LoopState → M W LoopState} (hpure : ∀ s, Q s (pure s))
    (hturn : ∀ step s f, (∀ s', Q s' (f s')) → Q s (turn step s >>= f)) (n step : Nat)
    (s : LoopState) : Q s (turns turn n step s) := by
  induction n generalizing step s with
  | zero => exact hpure s
  | succ n ih =>
    refine hturn step s _ fun s' => ?_
    cases s'.final with
    | some m => exact hpure s'
    | none => exact ih (step + 1) s'

theorem streamTurns_induction {Q : LoopState → M W LoopState → Prop} (hpure : ∀ s, Q s (pure s))
    (hturn : ∀ step s k f, (∀ s' k', Q s' (f (s', k'))) → Q s (L.streamTurn H step s k >>= f))
    (n step : Nat) (s : LoopState) (k : κ) : Q s (L.streamTurns H n step s k) := by
  induction n generalizing step s k with
  | zero => exact hpure s
  | succ n ih =>
    refine hturn step s k _ fun s' k' => ?_
    dsimp only
    cases s'.final with
    | some m => exact hpure s'
    | none => exact ih (step + 1) s' k'

theorem turns_acts {turn : Nat → LoopState → M W LoopState} (h : ∀ step s, (turn step s).Acts P)
    (n step : Nat) (s : LoopState) : (turns turn n step s).Acts P :=
  turns_induction (Q := fun _ x => x.Acts P) (fun _ => .pure _)
    (fun step s _ hf => .bind (h step s) hf) n step s

theorem run_acts (hL : L.Acts P) (messages : List Message) : (L.run messages).Acts P :=
  .bind (turns_acts (turn_acts hL) _ _ _) fun _ => .pure _

theorem streamTurn_acts (hL : L.Acts P) (hH : H.Acts P) (step : Nat) (s : LoopState) (k : κ) :
    (L.streamTurn H step s k).Acts P := by
  unfold streamTurn
  refine .bind (hH.turnStart _) fun _ => .bind (hL.pick _) fun _ => .bind (.read _) fun _ => ?_
  refine .bind (preCheck_acts hL.preCheck _ _ _ _) fun _ => ?_
  refine .bind (respond_acts hH hL.next _ _ _ _ _ _ _ (hL.stream _ _) fun _ => hL.chat _ _)
    fun _ => ?_
  refine .bind (record_acts hL.record _ _ _ _) fun _ => .bind (hH.onTurn _ _ _) fun _ => ?_
  exact .bind (finishTurn_acts hL.evaluate hL.invoke hH.toolEvent _ _ _ _ _ _) fun _ => .pure _

theorem streamTurns_acts (hL : L.Acts P) (hH : H.Acts P) (n step : Nat) (s : LoopState) (k : κ) :
    (L.streamTurns H n step s k).Acts P :=
  streamTurns_induction (Q := fun _ x => x.Acts P) (fun _ => .pure _)
    (fun step s k _ hf => .bind (streamTurn_acts hL hH step s k) fun a => hf a.1 a.2) n step s k

theorem runStreaming_acts (hL : L.Acts P) (hH : H.Acts P) (messages : List Message) (k : κ) :
    (L.runStreaming H messages k).Acts P :=
  .bind (streamTurns_acts hL hH _ _ _ _) fun _ => .pure _

/-! ## The part of a turn before its call -/

variable (L : Loop W ρ) (H : Hooks W ρ κ)

/-- The provider is picked, and the budget checks the estimate of the request. -/
def prepare (streams : LlmProvider W → Bool) (messages : List Message) :
    M W (ρ × LlmProvider W × ChatRequest) := do
  let (role, provider) ← L.pick messages
  let schemas ← .read L.tools.schemas
  let req := L.request (modelOf provider.id) messages schemas (streams provider)
  preCheck L.budget L.principal (provider.estimateCostUsd req) (req.maxTokens.getD 0)
  pure (role, provider, req)

theorem turn_eq (step : Nat) (s : LoopState) :
    L.turn step s = (do
      let (_, provider, req) ← L.prepare (fun _ => false) s.messages
      let resp ← chat provider L.principal req
      record L.budget L.principal (provider.estimateCostUsd req) resp.usage
      L.finishTurn (fun _ => pure ()) step (modelOf provider.id) s resp.message resp.finishReason
        resp.usage) := by
  simp only [turn, prepare, Traced.bind_assoc, Traced.pure_bind]

theorem streamTurn_eq (step : Nat) (s : LoopState) (k : κ) :
    L.streamTurn H step s k = (do
      H.turnStart step
      let (role, provider, req) ← L.prepare H.streams s.messages
      let (assistant, finishReason, usage, k) ←
        L.respond H role step provider (modelOf provider.id) s.messages req k
      record L.budget L.principal (provider.estimateCostUsd req) usage
      H.onTurn role step assistant
      let s ← L.finishTurn H.toolEvent step (modelOf provider.id) s assistant finishReason usage
      pure (s, k)) := by
  simp only [streamTurn, prepare, Traced.bind_assoc, Traced.pure_bind]

variable {L H}

theorem prepare_acts (hpick : ∀ messages, (L.pick messages).Acts P)
    (hpre : ∀ est tokens r, P (.preCheck est tokens r)) (streams : LlmProvider W → Bool)
    (messages : List Message) : (L.prepare streams messages).Acts P := by
  refine .bind (hpick _) fun _ => .bind (.read _) fun _ => ?_
  exact .bind (preCheck_acts hpre _ _ _ _) fun _ => .pure _

/-- The request holds the conversation. -/
theorem prepare_messages (streams : LlmProvider W → Bool) (messages : List Message) :
    (L.prepare streams messages).Ensures fun r _ => ∀ a, r = .ok a → a.2.2.messages = messages := by
  have hnil : ∀ {α : Type} (x : M W α), x.Ensures fun _ _ => True := fun _ _ => trivial
  refine .bind (hnil _) (fun _ _ _ _ h => by cases h) fun picked _ _ => ?_
  refine .bind (hnil _) (fun _ _ _ _ h => by cases h) fun schemas _ _ => ?_
  refine .bind (hnil _) (fun _ _ _ _ h => by cases h) fun _ _ _ => .pure ?_
  intro a ha
  cases ha
  rfl

theorem turn_sends (step : Nat) (s : LoopState)
    (h : ((L.prepare (fun _ => false) s.messages).run w).result = .ok a) :
    ∃ t ∈ ((L.turn step s).run w).trace, t.Sends s.messages := by
  rw [turn_eq]
  refine ⟨_, mem_trace_bind_ok _ h (mem_trace_bind _ List.mem_cons_self), ?_⟩
  exact prepare_messages _ _ w a h

theorem respond_sends (role : ρ) (step : Nat) (provider : LlmProvider W) (model : String)
    {messages : List Message} {req : ChatRequest} (hreq : req.messages = messages) (k : κ) (w : W) :
    ∃ t ∈ ((L.respond H role step provider model messages req k).run w).trace,
      t.Sends messages := by
  unfold respond
  split
  · exact ⟨_, mem_trace_bind _ List.mem_cons_self, hreq⟩
  · exact ⟨_, mem_trace_bind_ok _ rfl (mem_trace_bind _ List.mem_cons_self), rfl⟩

theorem streamTurn_sends (step : Nat) (s : LoopState) (k : κ)
    (hstart : ((H.turnStart step).run w).result = .ok ())
    (h : ((L.prepare H.streams s.messages).run ((H.turnStart step).run w).world).result = .ok a) :
    ∃ t ∈ ((L.streamTurn H step s k).run w).trace, t.Sends s.messages := by
  rw [streamTurn_eq]
  obtain ⟨t, ht, hsends⟩ := respond_sends (L := L) (H := H) a.1 step a.2.1 (modelOf a.2.1.id)
    (prepare_messages _ _ _ a h) k
    ((L.prepare H.streams s.messages).run ((H.turnStart step).run w).world).world
  exact ⟨t, mem_trace_bind_ok _ hstart (mem_trace_bind_ok _ h (mem_trace_bind _ ht)), hsends⟩

/-- The first request of a loop is the conversation that it starts with. -/
theorem run_sends (hn : L.maxSteps = n + 1)
    (h : ((L.prepare (fun _ => false) messages).run w).result = .ok a) :
    ∃ t ∈ ((L.run messages).run w).trace, t.Sends messages := by
  obtain ⟨t, ht, hsends⟩ := turn_sends 0 { messages } h
  unfold run
  rw [hn]
  exact ⟨t, mem_trace_bind _ (mem_trace_bind _ ht), hsends⟩

theorem run_trace_of_error (messages : List Message) (w : W) (hn : L.maxSteps = n + 1)
    (h : ((L.prepare (fun _ => false) messages).run w).result = .error e) :
    ((L.run messages).run w).trace = ((L.prepare (fun _ => false) messages).run w).trace := by
  unfold run
  rw [hn, turns, turn_eq, Traced.bind_assoc, Traced.bind_assoc, run_bind_error _ h]

theorem runStreaming_sends (hn : L.maxSteps = n + 1)
    (hstart : ((H.turnStart 0).run w).result = .ok ())
    (h : ((L.prepare H.streams messages).run ((H.turnStart 0).run w).world).result = .ok a) (k : κ) :
    ∃ t ∈ ((L.runStreaming H messages k).run w).trace, t.Sends messages := by
  obtain ⟨t, ht, hsends⟩ := streamTurn_sends 0 { messages } k hstart h
  unfold runStreaming
  rw [hn]
  exact ⟨t, mem_trace_bind _ (mem_trace_bind _ ht), hsends⟩

theorem runStreaming_trace_of_error (hn : L.maxSteps = n + 1)
    (hstart : ((H.turnStart 0).run w).result = .ok ())
    (h : ((L.prepare H.streams messages).run ((H.turnStart 0).run w).world).result = .error e)
    (k : κ) (f : OrchOutput → M W α) :
    ((L.runStreaming H messages k >>= f).run w).trace = ((H.turnStart 0).run w).trace ++
      ((L.prepare H.streams messages).run ((H.turnStart 0).run w).world).trace := by
  unfold runStreaming
  rw [hn, streamTurns, streamTurn_eq]
  simp only [Traced.bind_assoc]
  rw [run_bind_ok _ hstart, run_bind_error _ h]

end Loop

end Tako.Orchestrator
