import Tako.Governance.Policy
import Tako.Orchestrator.AbMcts

/-!
# Sample data

A world that counts the provider's calls, a provider that answers from a script, and what an agent
needs besides, for the concrete runs beside the theorems.
-/

namespace Tako.Orchestrator.Sample

/-- The one JSON text that is read is the empty object. -/
def codec : Codec where
  jsonToString _ := "\x7b\x7d"
  jsonFromStr s := if s = "\x7b\x7d" then some (.object []) else none
  sha256 _ := []
  debugDuration _ := ""

def acme : Principal := { tenantId := "acme", userId := "u" }

def input : OrchInput := { messages := [.user "hi"] }

/-- The chunks of a response whose tool calls have no arguments. -/
def chunks (resp : ChatResponse) : List (Result ChatChunk) :=
  [.ok (.delta (some resp.message.text) []),
    .ok (.delta none (resp.message.toolCalls.zipIdx.map fun (call, i) =>
      { index := i.toUInt32, id := call.1, name := call.2.1, argumentsFragment := "\x7b\x7d" })),
    .ok (.end resp.finishReason resp.usage)]

/-- The n-th call is answered by the n-th response of the script. Where there is none, the call
fails and a stream does not start. -/
def scripted (script : Nat → Option ChatResponse) : LlmProvider Nat where
  id := "sample:model"
  capabilities := { supportsStreaming := true, supportsTools := true }
  estimateCostUsd _ := 1
  chat _ _ n :=
    match script n with
    | some resp => (.ok resp, n + 1)
    | none => (.error (.transport "closed"), n)
  stream _ _ n :=
    match script n with
    | some resp => (.ok (chunks resp), n + 1)
    | none => (.error (.transport "closed"), n)

def tools : ToolRegistry Nat where
  schemas _ := []
  invoke _ _ _ n := (.ok .null, n)

def callTool : ChatResponse where
  message := ⟨.assistant, [.toolCall "c1" "rm" (.object [])]⟩
  finishReason := .toolCalls
  usage := {}

def done : ChatResponse where
  message := .assistant "done"
  finishReason := .stop
  usage := {}

/-- A tool's turn, then the answer. -/
def toolThenDone : Nat → Option ChatResponse
  | 0 => some callTool
  | _ => some done

def agent (script : Nat → Option ChatResponse) : SingleAgent Nat where
  codec
  provider := scripted script
  tools

/-- One role, which the router always picks. -/
def trinity (script : Nat → Option ChatResponse) : Trinity Nat where
  codec
  roles := [("solver", scripted script)]
  roleOrder := ["solver"]
  router := { route := fun _ _ _ n => (.ok { providerId := "solver", confidence := 1 }, n) }
  tools

/-- A verifier that gives every text the one answer. -/
def verifier (r : Result Rat) : Verifier Nat where
  score _ _ _ n := (r, n)
  evaluateStreaming _ _ n := (.ok none, n)

/-- A search along one branch, with the means of the posteriors as samples. -/
def mcts (script : Nat → Option ChatResponse) (maxStepsPerRollout : StepLimit) : AbMcts Nat Nat where
  codec
  provider := scripted script
  verifier := verifier (.ok (1 / 2))
  tools
  maxIterations := ⟨2, by decide⟩
  branchingFactor := 1
  maxStepsPerRollout
  temperature := 1
  minConfidence := 1
  sampleBeta alpha beta g := (alpha / (alpha + beta), g + 1)

/-- A bundle whose every query has the one value. -/
def bundle (v : Json) : Governance.OpaBundle Nat where
  codec
  rego := {
    compile := .ok ()
    setInput := fun _ => .ok ()
    evalQuery := fun _ _ n => (.ok [[some v]], n) }

end Tako.Orchestrator.Sample
