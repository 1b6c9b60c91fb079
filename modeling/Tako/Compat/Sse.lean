import Tako.Compat.OpenAi
import Tako.Orchestrator.Basic

/-!
# Events as chunks

What the server sends of an orchestrator's event: OpenAI's chunks and the named extensions
(`tako-compat/src/sse.rs`). Members of objects are in the order of their keys.
-/

namespace Tako.Compat

open Orchestrator

structure OaChunkChoice where
  index : UInt32
  delta : Json
  finishReason : Option String

structure OaChunk where
  id : String
  object : String := "chat.completion.chunk"
  model : String
  choices : List OaChunkChoice
  usage : Option Json := none

/-- `json!({"role": "assistant", "content": delta})`. -/
def contentDelta (delta : String) : Json :=
  .object [("content", .string delta), ("role", .string "assistant")]

def toolCallDelta (id name : String) : Json :=
  .object [("tool_calls", .array [.object [
    ("function", .object [("arguments", .string ""), ("name", .string name)]),
    ("id", .string id), ("index", .ofU64 0), ("type", .string "function")]])]

def usageJson (u : Usage) : Json :=
  .object [("completion_tokens", .ofU64 u.outputTokens.toNat),
    ("prompt_tokens", .ofU64 u.inputTokens.toNat), ("total_tokens", .ofU64 u.total.toNat)]

/-- The chunks of an event. -/
def eventToPayloads (event : OrchEvent) (id model : String) : List OaChunk :=
  match event with
  | .assistantText _ delta =>
    if delta = "" then []
    else [{ id, model, choices := [⟨0, contentDelta delta, none⟩] }]
  | .toolCallStart _ name tcId => [{ id, model, choices := [⟨0, toolCallDelta tcId name, none⟩] }]
  | .final output => [{
      id
      model
      choices := [⟨0, .object [], some (finishReasonStr .stop)⟩]
      usage := some (usageJson output.usage) }]
  | .stepStart _ | .toolCallResult _ _ _ _ | .verifierScore _ _ _ | .recursion _ _ => []

/-- The named extensions of an event; `f32ToJson` is the number that is printed of an `f32`. -/
def eventToTakoExtensions (f32ToJson : Rat → Json) : OrchEvent → List (String × Json)
  | .verifierScore step branch score => [("tako.verifier_score",
      .object [("branch", .ofU64 branch), ("score", f32ToJson score), ("step", .ofU64 step)])]
  | .recursion depth confidence => [("tako.recursion",
      .object [("confidence", f32ToJson confidence), ("depth", .ofU64 depth)])]
  | .toolCallStart step name tcId => [("tako.tool_call_start",
      .object [("id", .string tcId), ("name", .string name), ("step", .ofU64 step)])]
  | .toolCallResult step tcId result isError => [("tako.tool_call_result",
      .object [("id", .string tcId), ("is_error", .bool isError), ("result", result),
        ("step", .ofU64 step)])]
  | .stepStart _ | .assistantText _ _ | .final _ => []

/-! ## Frames -/

/-- One server-sent event: a chunk, an extension under its name, an error or `[DONE]`. -/
inductive SseEvent where
  | chunk (chunk : OaChunk)
  | extension (name : String) (payload : Json)
  | error (body : Json)
  | done

/-- The content that a client finds in a delta. -/
def deltaContent : Json → Option String
  | .object members =>
    match members.lookup "content" with
    | some (.string s) => some s
    | _ => none
  | _ => none

/-- The content deltas of a server-sent event. -/
def SseEvent.deltas : SseEvent → List String
  | .chunk c => c.choices.filterMap fun choice => deltaContent choice.delta
  | _ => []

/-- The frames of an orchestrator's event: extensions come first. -/
def eventFrames (f32ToJson : Rat → Json) (id model : String) (event : OrchEvent) : List SseEvent :=
  (eventToTakoExtensions f32ToJson event).map (fun e => .extension e.1 e.2) ++
    (eventToPayloads event id model).map .chunk

/-- The content of an event's frames is its text. -/
theorem eventFrames_deltas (f32ToJson : Rat → Json) (id model : String) (event : OrchEvent) :
    String.join ((eventFrames f32ToJson id model event).flatMap SseEvent.deltas) =
      event.delta.getD "" := by
  unfold eventFrames
  rw [List.flatMap_append, List.flatMap_map, List.flatMap_map]
  cases event with
  | assistantText step delta =>
    unfold eventToPayloads
    dsimp only
    split
    · next h => exact h.symm
    · exact String.empty_append
  | _ => rfl

/-- The content of the frames of events is their text. -/
theorem flatMap_eventFrames_deltas (f32ToJson : Rat → Json) (id model : String)
    (evs : List OrchEvent) :
    String.join ((evs.flatMap (eventFrames f32ToJson id model)).flatMap SseEvent.deltas) =
      textOf evs := by
  induction evs with
  | nil => rfl
  | cons e evs ih =>
    rw [List.flatMap_cons, List.flatMap_append, String.join_append, ih, eventFrames_deltas, textOf,
      textOf]
    cases he : e.delta with
    | none =>
      rw [List.filterMap_cons_none he]
      exact String.empty_append
    | some s =>
      rw [List.filterMap_cons_some he, String.join_cons]
      rfl

end Tako.Compat
