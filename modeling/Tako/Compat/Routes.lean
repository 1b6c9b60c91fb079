import Tako.Auth.Basic
import Tako.Compat.Sse
import Tako.Rust.Str
import Tako.Theory.Traced

/-!
# Route handlers

`/v1/chat/completions` (`tako-compat/src/routes.rs`): the last user message is the prompt of a run,
or of a stream whose events are sent on. A handler that panics drops the connection.
-/

namespace Tako.Compat

open Auth Orchestrator

/-! ## What is served -/

/-- The items of a stream, and whether it ends in a panic. -/
structure Streamed where
  items : List (Result OrchEvent)
  panics : Bool := false

/-- `Arc<dyn Orchestrator>`. A run that panics has no result. -/
structure Service (W : Type) where
  run : Principal → OrchInput → W → Option (Result OrchOutput) × W
  stream : Principal → OrchInput → W → Streamed × W

structure AppState (W : Type) where
  orch : Service W
  auth : AuthResolver W

/-- How a duration is printed by `{:?}`, and an `f32` in JSON. -/
structure Formats where
  debugDuration : Nat → String
  f32ToJson : Rat → Json

/-! ## Requests and responses -/

/-- `HeaderMap`, with names in lower case. -/
abbrev HeaderMap := List (String × List UInt8)

/-- `HeaderValue::to_str`: visible ASCII characters and tabs. -/
def toStr (value : List UInt8) : Option String :=
  if value.all fun b => (32 ≤ b && b < 127) || b = 9 then
    some (String.ofList (value.map fun b => Char.ofNat b.toNat))
  else none

def bearer (headers : HeaderMap) : Option String := do
  let value ← headers.lookup "authorization"
  let s ← toStr value
  Str.stripPrefix s "Bearer "

/-- What is answered; the frames of a stream that panics are not all of it. -/
inductive Response where
  | completion (resp : OaResponse)
  | error (status : Nat) (body : Json)
  | sse (frames : List SseEvent) (panics : Bool)
  | dropped

def errorBody (message type : String) : Json :=
  .object [("error", .object [("message", .string message), ("type", .string type)])]

variable {W : Type} (fmt : Formats)

def resolvePrincipal (headers : HeaderMap) (auth : AuthResolver W) (w : W) :
    Except Response Principal × W :=
  match bearer headers with
  | none => (.error (.error 401 (errorBody "missing Authorization: Bearer" "auth")), w)
  | some token =>
    match auth.resolve token w with
    | (.ok p, w) => (.ok p, w)
    | (.error e, w) => (.error (.error 401 (errorBody (e.display fmt.debugDuration) "auth")), w)

/-- The first text of the last user message. -/
def extractUserPrompt (req : ChatRequest) : Option String :=
  (req.messages.reverse.find? (·.role = .user)).bind fun m =>
    m.content.findSome? ContentPart.asText

/-- `OrchInput::from_user` of the prompt. -/
def orchInput (body : OaChatRequest) : OrchInput where
  messages := [.user ((extractUserPrompt (fromOpenaiRequest body)).getD "")]

/-! ## Without streaming -/

/-- The response to a run that has failed. -/
def runError : TakoError → Response
  | .policyDenied reason => .error 403 (errorBody reason "policy_denied")
  | .budgetExhausted reason => .error 402 (errorBody reason "budget_exhausted")
  | e => .error 500 (errorBody (e.display fmt.debugDuration) "internal_error")

def runResponse (nanos : Nat) (model : String) : Option (Result OrchOutput) → Response
  | some (.ok out) => .completion (toOpenaiResponse nanos model
    { message := out.message, finishReason := .stop, usage := out.usage })
  | some (.error e) => runError fmt e
  | none => .dropped

/-! ## With streaming -/

/-- An output as the events of a stream. -/
def emulatedTextThenFinal : Result OrchEvent → List (Result OrchEvent)
  | .error e => [.error e]
  | .ok (.final output) =>
    (if output.text = "" then [] else [.ok (.assistantText 0 output.text)]) ++ [.ok (.final output)]
  | .ok other => [.ok other]

/-- What stands in for a stream that fails at once. -/
def emulate (orch : Service W) (p : Principal) (input : OrchInput) (w : W) : Streamed × W :=
  match orch.run p input w with
  | (some r, w) => ({ items := emulatedTextThenFinal (r.map .final) }, w)
  | (none, w) => ({ items := [], panics := true }, w)

def itemFrames (id model : String) : Result OrchEvent → List SseEvent
  | .ok ev => eventFrames fmt.f32ToJson id model ev
  | .error e => [.error (errorBody (e.display fmt.debugDuration) "internal_error")]

def sseResponse (nanos : Nat) (model : String) (s : Streamed) : Response :=
  .sse (s.items.flatMap (itemFrames fmt (newChunkId nanos) model) ++
    if s.panics then [] else [.done]) s.panics

/-- The first item is awaited before there is a response. -/
def chatCompletionsStream (orch : Service W) (nanos : Nat) (p : Principal) (body : OaChatRequest)
    (w : W) : Response × W :=
  match orch.stream p (orchInput body) w with
  | (⟨.error _ :: _, _⟩, w) =>
    let (s, w) := emulate orch p (orchInput body) w
    (sseResponse fmt nanos body.model s, w)
  | (⟨[], true⟩, w) => (.dropped, w)
  | (s, w) => (sseResponse fmt nanos body.model s, w)

def chatCompletions (state : AppState W) (nanos : Nat) (headers : HeaderMap) (body : OaChatRequest)
    (w : W) : Response × W :=
  match resolvePrincipal fmt headers state.auth w with
  | (.error resp, w) => (resp, w)
  | (.ok p, w) =>
    if body.stream then chatCompletionsStream fmt state.orch nanos p body w
    else
      let (r, w) := state.orch.run p (orchInput body) w
      (runResponse fmt nanos body.model r, w)

/-! ## Contents -/

/-- The content that a client reads: the message's, or that of all deltas. -/
def Response.content? : Response → Option String
  | .completion resp => resp.choices.head?.map (·.message.content)
  | .sse frames _ => some (String.join (frames.flatMap SseEvent.deltas))
  | .error _ _ | .dropped => none

theorem sseResponse_content (nanos : Nat) (model : String) (evs : List OrchEvent) :
    (sseResponse fmt nanos model ⟨evs.map .ok, false⟩).content? = some (textOf evs) := by
  have hframes : (evs.map Except.ok).flatMap (itemFrames fmt (newChunkId nanos) model) =
      evs.flatMap (eventFrames fmt.f32ToJson (newChunkId nanos) model) :=
    List.flatMap_map _ _ _
  rw [sseResponse, Response.content?, hframes, List.flatMap_append, String.join_append,
    flatMap_eventFrames_deltas]
  exact congrArg some String.append_empty

variable {fmt} {state : AppState W} {headers : HeaderMap} {body : OaChatRequest} {p : Principal}
  {w v : W}

/-- A run's message is the content. -/
theorem chatCompletions_content (hauth : resolvePrincipal fmt headers state.auth w = (.ok p, v))
    (nanos : Nat) {out : OrchOutput}
    (hrun : (state.orch.run p (orchInput body) v).1 = some (.ok out)) :
    (chatCompletions fmt state nanos headers { body with stream := false } w).1.content? =
      some out.message.text := by
  unfold chatCompletions
  rw [hauth]
  change (runResponse fmt nanos body.model (state.orch.run p (orchInput body) v).1).content? = _
  rw [hrun]
  rfl

/-- A stream's text is the content. -/
theorem chatCompletions_stream_content
    (hauth : resolvePrincipal fmt headers state.auth w = (.ok p, v)) (nanos : Nat)
    {evs : List OrchEvent} (hstream : (state.orch.stream p (orchInput body) v).1 = ⟨evs.map .ok, false⟩) :
    (chatCompletions fmt state nanos headers { body with stream := true } w).1.content? =
      some (textOf evs) := by
  unfold chatCompletions
  rw [hauth]
  change (chatCompletionsStream fmt state.orch nanos p { body with stream := true } v).1.content? = _
  unfold chatCompletionsStream
  change (state.orch.stream p (orchInput { body with stream := true }) v).1 = _ at hstream
  generalize state.orch.stream p (orchInput { body with stream := true }) v = sw at hstream
  obtain ⟨s, v'⟩ := sw
  cases hstream
  have hcontent := sseResponse_content fmt nanos body.model evs
  cases evs with
  | nil => exact hcontent
  | cons e evs => exact hcontent

end Tako.Compat
