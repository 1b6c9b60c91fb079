import Tako.Orchestrator.Single
import Tako.Rust.Str

/-!
# `Trinity`

A router picks a role, and with it a provider, for each turn
(`tako-orchestrator/src/trinity.rs`).
-/

namespace Tako.Orchestrator

variable {W : Type}

/-- The roles are listed in the order in which the map iterates over them, `roleOrder` in the order
in which they were added. -/
structure Trinity (W : Type) where
  codec : Codec
  roles : List (String × LlmProvider W)
  roleOrder : List String
  router : Router W
  tools : ToolRegistry W
  maxSteps : StepLimit := defaultMaxSteps
  defaults : ChatDefaults := {}
  policy : Option (PolicyEngine W) := none
  budget : Option (BudgetTracker W) := none
  verifier : Option (Verifier W) := none

/-- `f32::clamp(0.0, 1.0)`. -/
def clampUnit (x : Rat) : Rat := if x < 0 then 0 else if 1 < x then 1 else x

namespace Trinity

/-- A decision is `role|provider`, a role or a provider id, tried in this order. -/
def pickProviderStatic (roles : List (String × LlmProvider W)) (decisionId : String) :
    Option (String × LlmProvider W) :=
  let role := Str.beforeFirst decisionId '|'
  let named := if '|' ∈ decisionId.toList then roles.find? (·.1 = role) else none
  (named.or (roles.find? (·.1 = decisionId))).or (roles.find? (·.2.id = decisionId))

variable (T : Trinity W) (principal : Principal)

def candidateIds : List String :=
  T.roleOrder.map fun r =>
    let provider := ((T.roles.find? (·.1 = r)).map (·.2.id)).getD ""
    s!"{r}|{provider}"

def pickProvider (decisionId : String) : Option (String × LlmProvider W) :=
  pickProviderStatic T.roles decisionId

def loop : Loop W String where
  codec := T.codec
  principal
  pick messages := do
    let decision ← route T.router principal (.new "router" messages) T.candidateIds
    match T.pickProvider decision.providerId with
    | some p => pure p
    | none => .throw (.invalid
        s!"Trinity: router chose unknown provider id `{decision.providerId}`")
  tools := T.tools
  policy := T.policy
  budget := T.budget
  defaults := T.defaults
  maxSteps := T.maxSteps

/-- `role_order.iter().position(|r| r == &role).unwrap_or(0)`. -/
def branch (role : String) : Nat := (T.roleOrder.findIdx? (· = role)).getD 0

/-- The per-delta verifier hook. -/
def scoreDelta (role : String) (step : Nat) (text : String) : M W Unit :=
  match T.verifier with
  | none => pure ()
  | some v => do
    match ← evaluateStreaming v principal text with
    | some score => yield (.verifierScore step (T.branch role) (clampUnit score))
    | none => pure ()

/-- The score of a finished turn. -/
def scoreTurn (prompt : String) (role : String) (step : Nat) (assistant : Message) : M W Unit :=
  match T.verifier with
  | none => pure ()
  | some v => do
    let score ← score v principal prompt assistant.text
    yield (.verifierScore step (T.branch role) (clampUnit score))

/-- What `stream` yields, with the verifier's scores. -/
def hooks (prompt : String) : Hooks W String Unit where
  streams p := p.capabilities.supportsStreaming
  turnStart step := yield (.stepStart step)
  onText role step _ delta text := do
    yield (.assistantText step delta)
    T.scoreDelta principal role step text
  onChat _ step _ text := yield (.assistantText step text)
  onTurn := T.scoreTurn principal prompt
  toolEvent := yield

def run (input : OrchInput) : M W OrchOutput := (T.loop principal).run input.conversation

def stream (input : OrchInput) : M W Unit := do
  let output ← (T.loop principal).runStreaming (T.hooks principal input.promptText)
    input.conversation ()
  yield (.final output)

/-! ## What they do -/

open Traced

variable {P : Act W → Prop}

theorem pick_acts (hroute : ∀ req cs r, P (.route req cs r)) (T : Trinity W) (p : Principal)
    (messages : List Message) : ((T.loop p).pick messages).Acts P := by
  refine .bind (.call fun _ => hroute _ _ _) fun decision => ?_
  split
  · exact .pure _
  · exact .throw _

theorem hooks_acts (hy : ∀ e, P (.yielded e)) (hs : ∀ prompt out r, P (.score prompt out r))
    (he : ∀ text r, P (.evaluateStreaming text r)) (T : Trinity W) (p : Principal)
    (prompt : String) : (T.hooks p prompt).Acts P where
  turnStart _ := .emit (hy _)
  onText role step _ delta text := by
    refine .bind (.emit (hy _)) fun _ => ?_
    unfold scoreDelta
    split
    · exact .pure _
    · refine .bind (.call fun _ => he _ _) fun score => ?_
      split
      · exact .emit (hy _)
      · exact .pure _
  onChat _ _ _ _ := .emit (hy _)
  onTurn role step assistant := by
    change (T.scoreTurn p prompt role step assistant).Acts P
    unfold scoreTurn
    split
    · exact .pure _
    · exact .bind (.call fun _ => hs _ _ _) fun _ => .emit (hy _)
  toolEvent _ := .emit (hy _)

end Trinity

end Tako.Orchestrator
