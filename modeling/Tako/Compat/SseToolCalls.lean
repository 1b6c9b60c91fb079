import Tako.Compat.Sse
import Tako.Orchestrator.Sample

/-!
# Tool calls of a stream

A client puts the tool calls of a stream together by the index of their deltas. All deltas that the
server sends have the index 0 and no arguments, so a client finds one call at most.
-/

namespace Tako.Compat

open Orchestrator

/-! ## The client -/

def member (key : String) : Json → Option Json
  | .object members => members.lookup key
  | _ => none

def asText : Json → Option String
  | .string s => some s
  | _ => none

def asIndex : Json → Option UInt32
  | .number (.posInt n) => if n < UInt32.size then some n.toUInt32 else none
  | _ => none

/-- An entry of `tool_calls`. -/
def readToolCall (entry : Json) : Option ToolCallDelta := do
  let index ← (member "index" entry).bind asIndex
  let function := member "function" entry
  some {
    index
    id := (member "id" entry).bind asText
    name := (function.bind (member "name")).bind asText
    argumentsFragment := (function.bind (member "arguments")).bind asText }

/-- The tool calls that a client finds in a delta. -/
def deltaToolCalls (delta : Json) : List ToolCallDelta :=
  match member "tool_calls" delta with
  | some (.array entries) => entries.filterMap readToolCall
  | _ => []

def SseEvent.toolCalls : SseEvent → List ToolCallDelta
  | .chunk c => c.choices.flatMap fun choice => deltaToolCalls choice.delta
  | _ => []

/-! ## The server -/

/-- An event, and the arguments of the call that it starts. -/
inductive Emitted where
  | start (step : Nat) (name id : String) (args : Json)
  | other (event : OrchEvent) (notStart : ∀ step name id, event ≠ .toolCallStart step name id)

namespace Emitted

def event : Emitted → OrchEvent
  | start step name id _ => .toolCallStart step name id
  | other event _ => event

def started? : Emitted → Option (String × String × Json)
  | start _ name id args => some (id, name, args)
  | other _ _ => none

end Emitted

/-- The calls that the events start. -/
def started (evs : List Emitted) : List (String × String × Json) := evs.filterMap Emitted.started?

/-- The frames of the events. -/
def frames (f32ToJson : Rat → Json) (id model : String) (evs : List Emitted) : List SseEvent :=
  evs.flatMap fun e => eventFrames f32ToJson id model e.event

/-- The delta that a client finds of a started call. -/
def startDelta (call : String × String × Json) : ToolCallDelta where
  index := 0
  id := some call.1
  name := some call.2.1
  argumentsFragment := some ""

variable {f32ToJson : Rat → Json} {id model : String} {codec : Codec}

theorem eventFrames_toolCalls (e : Emitted) :
    (eventFrames f32ToJson id model e.event).flatMap SseEvent.toolCalls =
      e.started?.toList.map startDelta := by
  unfold eventFrames
  rw [List.flatMap_append, List.flatMap_map, List.flatMap_map]
  cases e with
  | start step name tcId args => rfl
  | other event notStart =>
    cases event with
    | toolCallStart step name tcId => exact absurd rfl (notStart step name tcId)
    | assistantText step delta =>
      change (if delta = "" then [] else _).flatMap _ = []
      split <;> rfl
    | _ => rfl

theorem frames_toolCalls (evs : List Emitted) :
    (frames f32ToJson id model evs).flatMap SseEvent.toolCalls =
      (started evs).map startDelta := by
  unfold frames started
  induction evs with
  | nil => rfl
  | cons e evs ih =>
    rw [List.flatMap_cons, List.flatMap_append, eventFrames_toolCalls, ih]
    cases e <;> rfl

/-- Of started calls the client finds the last one, without its arguments. -/
theorem assemble_startDeltas (calls : List (String × String × Json))
    (call : String × String × Json) :
    assembleToolCalls codec ((calls ++ [call]).map startDelta) =
      [.toolCall call.1 call.2.1 (.object [])] := by
  have hargs : (((calls ++ [call]).map startDelta).filterMap (·.argumentsFragment)) =
      (calls ++ [call]).map fun _ => "" := by
    rw [List.filterMap_map]
    exact congrFun (List.filterMap_eq_map (f := fun _ => "")) _
  have hjoin : String.join ((calls ++ [call]).map fun _ => "") = "" :=
    Str.join_eq_empty_iff.2 fun s hs => by
      obtain ⟨_, -, rfl⟩ := List.mem_map.1 hs
      rfl
  have hindex : ((calls ++ [call]).map startDelta).filter (·.index = 0) =
      (calls ++ [call]).map startDelta := by
    rw [List.filter_eq_self]
    intro d hd
    obtain ⟨_, -, rfl⟩ := List.mem_map.1 hd
    rfl
  have hfinish : ((((calls ++ [call]).map startDelta).filter (·.index = 0)).foldl
      PartialCall.receive {}).finish codec = some (.toolCall call.1 call.2.1 (.object [])) := by
    rw [hindex, PartialCall.foldl_receive, hargs, hjoin, List.map_append, List.reverse_append]
    rfl
  have hcalls : List.Forall₂ (fun i part =>
        (∃ d, d ∈ ((calls ++ [call]).map startDelta).filter (·.index = i)) ∧
        ((((calls ++ [call]).map startDelta).filter (·.index = i)).foldl
          PartialCall.receive {}).finish codec = some part)
      [0] [.toolCall call.1 call.2.1 (.object [])] := by
    refine .cons ⟨?_, hfinish⟩ .nil
    rw [hindex]
    exact ⟨startDelta call, List.mem_map_of_mem (List.mem_append_right _ List.mem_cons_self)⟩
  refine (assembleToolCalls_of_forall₂ (R := fun ds part => (∃ d, d ∈ ds) ∧
    (ds.foldl PartialCall.receive {}).finish codec = some part)
    (List.pairwise_singleton _ _) (fun d hd => ?_) (fun _ _ h => h.1) (fun _ _ h => h.2)
    hcalls).trans (List.map_id' _)
  obtain ⟨_, -, rfl⟩ := List.mem_map.1 hd
  exact List.mem_cons_self

/-- A client finds the started calls exactly if there is one at most, and it has no arguments. -/
theorem tool_calls_recovered_iff (f32ToJson : Rat → Json) (id model : String) (codec : Codec)
    (evs : List Emitted) :
    assembleToolCalls codec ((frames f32ToJson id model evs).flatMap SseEvent.toolCalls) =
        (started evs).map toolCallPart ↔
      (started evs).length ≤ 1 ∧ ∀ call ∈ started evs, call.2.2 = .object [] := by
  rw [frames_toolCalls]
  obtain hnil | ⟨calls, call, hcalls⟩ := List.eq_nil_or_concat (started evs)
  · rw [hnil]
    exact iff_of_true rfl ⟨Nat.zero_le _, List.forall_mem_nil _⟩
  · rw [List.concat_eq_append] at hcalls
    rw [hcalls, assemble_startDeltas]
    cases calls with
    | nil =>
      constructor
      · intro h
        have hpart := (List.cons.inj h).1
        refine ⟨Nat.le_refl _, List.forall_mem_singleton.2 ?_⟩
        exact (ContentPart.toolCall.inj hpart).2.2.symm
      · rintro ⟨-, h⟩
        have hargs := h call List.mem_cons_self
        change _ = [ContentPart.toolCall call.1 call.2.1 call.2.2]
        rw [hargs]
    | cons call' calls =>
      refine iff_of_false (fun h => ?_) fun h => ?_
      · have := congrArg List.length h
        simp at this
      · have := h.1
        simp at this

/-- Two calls that start become one. -/
theorem two_tool_calls_not_recovered :
    ¬∀ evs : List Emitted, assembleToolCalls Sample.codec
        ((frames (fun _ => .null) "id" "model" evs).flatMap SseEvent.toolCalls) =
      (started evs).map toolCallPart := by
  intro h
  have hlength := congrArg List.length
    (h [.start 0 "search" "c1" (.object []), .start 0 "fetch" "c2" (.object [])])
  exact absurd hlength (by decide)

end Tako.Compat
