import Tako.Theory.Traced
import Tako.Core.Chat
import Tako.Core.Error

/-!
# What an orchestrator works with

The traits behind which the orchestrators (`tako-orchestrator/src`) find their providers, tools,
policies and budgets. Every implementation answers in a world `W` that it may read and change, so
that one call can depend on all earlier ones. An orchestrator is a computation `M W` whose trace
lists its calls with their answers, the chunks it takes from a provider's stream and the events it
yields.
-/

namespace Tako.Orchestrator

/-! ## Input, output and events -/

structure OrchInput where
  messages : List Message
  system : Option String := none

/-- The conversation that a run starts with. -/
def OrchInput.conversation (input : OrchInput) : List Message :=
  (input.system.map Message.system).toList ++ input.messages

/-- The first text part of each input message, one on each line. -/
def OrchInput.promptText (input : OrchInput) : String :=
  "\n".intercalate (input.messages.filterMap fun m => (m.content.filterMap ContentPart.asText)[0]?)

structure OrchOutput where
  text : String
  message : Message
  usage : Usage
  steps : Nat

inductive OrchEvent where
  | stepStart (step : Nat)
  | assistantText (step : Nat) (delta : String)
  | toolCallStart (step : Nat) (name id : String)
  | toolCallResult (step : Nat) (id : String) (result : Json) (isError : Bool)
  | final (output : OrchOutput)
  | verifierScore (step branch : Nat) (score : Rat)
  | recursion (depth : Nat) (confidence : Rat)

/-- The text that an event adds to the answer. -/
def OrchEvent.delta : OrchEvent → Option String
  | .assistantText _ delta => some delta
  | _ => none

def textOf (evs : List OrchEvent) : String := String.join (evs.filterMap OrchEvent.delta)

theorem textOf_append (evs evs' : List OrchEvent) :
    textOf (evs ++ evs') = textOf evs ++ textOf evs' := by
  rw [textOf, List.filterMap_append, String.join_append]
  rfl

/-! ## The traits -/

/-- `LlmProvider`. A stream that starts is the list of the chunks that it yields. -/
structure LlmProvider (W : Type) where
  id : String
  capabilities : Capabilities
  estimateCostUsd : ChatRequest → Rat
  chat : Principal → ChatRequest → W → Result ChatResponse × W
  stream : Principal → ChatRequest → W → Result (List (Result ChatChunk)) × W

structure Router (W : Type) where
  route : Principal → ChatRequest → List String → W → Result RoutingDecision × W

/-- `ToolRegistry`. The schemas are read under a lock and sorted by name. -/
structure ToolRegistry (W : Type) where
  schemas : W → List ToolSchema
  invoke : Principal → String → Json → W → Result Json × W

structure PolicyEngine (W : Type) where
  evaluate : Principal → PolicyContext → W → Result PolicyDecision × W

structure BudgetTracker (W : Type) where
  preCheck : Principal → Rat → UInt32 → W → Result Unit × W
  record : Principal → Rat → Usage → W → Result Unit × W

structure Verifier (W : Type) where
  score : Principal → String → String → W → Result Rat × W
  evaluateStreaming : Principal → String → W → Result (Option Rat) × W

/-- The libraries that hash and parse: `serde_json::to_string` and `from_str`, SHA-256, and how a
duration is printed. -/
structure Codec where
  jsonToString : Json → String
  jsonFromStr : String → Option Json
  sha256 : List UInt8 → List UInt8
  debugDuration : Nat → String

/-! ## Actions -/

/-- One entry of a trace. A policy evaluation keeps the world in which it was made; `next` is a
poll of the current stream. -/
inductive Act (W : Type) where
  | route (req : ChatRequest) (candidates : List String) (r : Result RoutingDecision)
  | preCheck (est : Rat) (tokens : UInt32) (r : Result Unit)
  | chat (provider : String) (req : ChatRequest) (r : Result ChatResponse)
  | stream (provider : String) (req : ChatRequest) (r : Result (List (Result ChatChunk)))
  | next (chunk : Option (Result ChatChunk))
  | record (usd : Rat) (usage : Usage) (r : Result Unit)
  | evaluate (w : W) (ctx : PolicyContext) (r : Result PolicyDecision)
  | invoke (name : String) (args : Json) (r : Result Json)
  | evaluateStreaming (text : String) (r : Result (Option Rat))
  | score (prompt output : String) (r : Result Rat)
  | yielded (e : OrchEvent)

def Act.IsYield {W : Type} : Act W → Prop
  | .yielded _ => True
  | _ => False

def Act.IsEvaluate {W : Type} : Act W → Prop
  | .evaluate _ _ _ => True
  | _ => False

def Act.IsInvoke {W : Type} : Act W → Prop
  | .invoke _ _ _ => True
  | _ => False

/-- A request to a provider. -/
def Act.IsProviderCall {W : Type} : Act W → Prop
  | .chat _ _ _ | .stream _ _ _ => True
  | _ => False

/-- A request to a provider with the conversation. -/
def Act.Sends {W : Type} (messages : List Message) : Act W → Prop
  | .chat _ req _ | .stream _ req _ => req.messages = messages
  | _ => False

theorem Act.Sends.isProviderCall {W : Type} {t : Act W} (h : t.Sends messages) :
    t.IsProviderCall := by
  cases t with
  | chat | stream => exact trivial
  | _ => exact h.elim

/-- An orchestrator's computations. -/
abbrev M (W : Type) := Traced W (Act W) TakoError

variable {W : Type}

def route (r : Router W) (p : Principal) (req : ChatRequest) (candidates : List String) :
    M W RoutingDecision :=
  .call (r.route p req candidates) fun _ a => .route req candidates a

def chat (provider : LlmProvider W) (p : Principal) (req : ChatRequest) : M W ChatResponse :=
  .call (provider.chat p req) fun _ a => .chat provider.id req a

def stream (provider : LlmProvider W) (p : Principal) (req : ChatRequest) :
    M W (List (Result ChatChunk)) :=
  .call (provider.stream p req) fun _ a => .stream provider.id req a

def evaluate (engine : PolicyEngine W) (p : Principal) (ctx : PolicyContext) :
    M W PolicyDecision :=
  .call (engine.evaluate p ctx) fun w a => .evaluate w ctx a

def invoke (tools : ToolRegistry W) (p : Principal) (name : String) (args : Json) : M W Json :=
  .call (tools.invoke p name args) fun _ a => .invoke name args a

def score (v : Verifier W) (p : Principal) (prompt output : String) : M W Rat :=
  .call (v.score p prompt output) fun _ a => .score prompt output a

def evaluateStreaming (v : Verifier W) (p : Principal) (text : String) : M W (Option Rat) :=
  .call (v.evaluateStreaming p text) fun _ a => .evaluateStreaming text a

def yield (e : OrchEvent) : M W Unit := .emit (.yielded e)

/-- `if let Some(b) = budget { b.pre_check(…)? }` -/
def preCheck (budget : Option (BudgetTracker W)) (p : Principal) (est : Rat) (tokens : UInt32) :
    M W Unit :=
  match budget with
  | some b => .call (b.preCheck p est tokens) fun _ a => .preCheck est tokens a
  | none => pure ()

/-- `if let Some(b) = budget { b.record(…)? }` -/
def record (budget : Option (BudgetTracker W)) (p : Principal) (usd : Rat) (usage : Usage) :
    M W Unit :=
  match budget with
  | some b => .call (b.record p usd usage) fun _ a => .record usd usage a
  | none => pure ()

/-! ## Hashes -/

def hexDigit (n : UInt8) : Char :=
  if n < 10 then Char.ofNat ('0'.toNat + n.toNat) else Char.ofNat ('a'.toNat + n.toNat - 10)

def hexDigest (bytes : List UInt8) : String :=
  String.ofList (bytes.flatMap fun b => [hexDigit (b / 16), hexDigit (b % 16)])

def utf8 (s : String) : List UInt8 := s.toUTF8.data.toList

theorem utf8_append (a b : String) : utf8 (a ++ b) = utf8 a ++ utf8 b := by
  simp [utf8]

theorem utf8_injective {a b : String} (h : utf8 a = utf8 b) : a = b := by
  have hdata : a.toUTF8.data = b.toUTF8.data := Array.toList_inj.1 h
  exact String.toByteArray_inj.1 (ByteArray.ext hdata)

namespace Codec

variable (codec : Codec)

def hashMessages (messages : List Message) : String :=
  hexDigest (codec.sha256 (messages.flatMap fun m =>
    utf8 m.role.debug ++ (m.content.flatMap fun c => utf8 (codec.jsonToString c.toJson)) ++
      utf8 "|"))

def hashValue (v : Json) : String := hexDigest (codec.sha256 (utf8 (codec.jsonToString v)))

/-- What the model is told of a failed tool call: `json!({ "error": e.to_string() })`. -/
def errorJson (e : TakoError) : Json := .object [("error", .string (e.display codec.debugDuration))]

end Codec

/-- `provider.id().split(':').nth(1).unwrap_or("")`. -/
def modelOf (providerId : String) : String :=
  ((providerId.toList.splitOn ':')[1]?.map String.ofList).getD ""

example : modelOf "anthropic:claude" = "claude" := by decide

end Tako.Orchestrator
