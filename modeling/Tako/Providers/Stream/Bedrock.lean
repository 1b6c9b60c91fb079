import Tako.Providers.Stream.Basic

/-!
# The stream of Bedrock

`tako-providers/bedrock/src/stream.rs`: the events of the SDK's receiver, mapped one by one by
`map_event`. There is no frame to parse, so nothing to complain of.
-/

namespace Tako.Providers.Bedrock

open Transducer

/-- `types::StopReason`; `unknown` has the names that a later SDK knows. -/
inductive StopReason where
  | contentFiltered
  | endTurn
  | guardrailIntervened
  | malformedModelOutput
  | malformedToolUse
  | maxTokens
  | modelContextWindowExceeded
  | stopSequence
  | toolUse
  | unknown (name : String)

inductive ContentBlockStart where
  | toolUse (toolUseId name : String)
  | other

inductive ContentBlockDelta where
  | text (text : String)
  | toolUse (input : String)
  | other

structure TokenUsage where
  inputTokens : Int32
  outputTokens : Int32

/-- `types::ConverseStreamOutput`. -/
inductive Event where
  | messageStart
  | contentBlockStart (contentBlockIndex : Int32) (start : Option ContentBlockStart)
  | contentBlockDelta (contentBlockIndex : Int32) (delta : Option ContentBlockDelta)
  | contentBlockStop
  | messageStop (stopReason : StopReason)
  | metadata (usage : Option TokenUsage)
  | unknown

/-- The map from block indices to those of the tool calls, with distinct keys. -/
abbrev ToolCallState := List (Int32 × UInt32)

/-- `u32::try_from(map.len()).unwrap_or(u32::MAX)`. -/
def nextIndex (state : ToolCallState) : UInt32 :=
  if state.length < UInt32.size then UInt32.ofNat state.length else 0xffffffff

/-- `HashMap::insert`. -/
def insert (state : ToolCallState) (block : Int32) (index : UInt32) : ToolCallState :=
  if state.any (·.1 = block) then state.map fun e => if e.1 = block then (block, index) else e
  else state ++ [(block, index)]

/-- `u32::try_from(n).unwrap_or(0)`. -/
def toU32 (n : Int32) : UInt32 := if 0 ≤ n then n.toUInt32 else 0

def finishReason : StopReason → FinishReason
  | .endTurn | .stopSequence => .stop
  | .maxTokens | .modelContextWindowExceeded => .length
  | .toolUse => .toolCalls
  | .contentFiltered | .guardrailIntervened => .contentFilter
  | .malformedModelOutput | .malformedToolUse => .error
  | .unknown _ => .other

/-- The chunks of an event, and what it says of the end. -/
structure Mapped where
  chunks : List ChatChunk := []
  finish : Option FinishReason := none
  usage : Option Usage := none
  state : ToolCallState

def mapEvent (state : ToolCallState) : Event → Mapped
  | .messageStart | .contentBlockStop | .unknown => { state }
  | .contentBlockStart block start =>
    let index := nextIndex state
    let state := insert state block index
    match start with
    | some (.toolUse toolUseId name) =>
      { chunks := [.delta none [{ index, id := some toolUseId, name := some name }]], state }
    | _ => { state }
  | .contentBlockDelta block delta =>
    match delta with
    | some (.text text) =>
      { chunks := if text = "" then [] else [.delta (some text) []], state }
    | some (.toolUse input) =>
      let known := state.lookup block
      let index := known.getD (nextIndex state)
      { chunks := [.delta none [{ index, argumentsFragment := some input }]]
        state := if known.isSome then state else insert state block index }
    | _ => { state }
  | .messageStop stopReason => { finish := some (finishReason stopReason), state }
  | .metadata usage =>
    { usage := usage.map fun u => ⟨toU32 u.inputTokens, toU32 u.outputTokens⟩, state }

/-- `finish_reason`, `usage` and `tool_call_state`. -/
structure Memory extends Providers.Memory where
  toolCallState : ToolCallState := []

/-- An iteration of the loop, on what `recv` returns. -/
def streamStep (m : Memory) : Except String Event → Step Memory ChatChunk
  | .ok event =>
    let mapped := mapEvent m.toolCallState event
    { out := mapped.chunks
      state :=
        { lastFinish := mapped.finish.or m.lastFinish
          lastUsage := mapped.usage.getD m.lastUsage
          toolCallState := mapped.state } }
  | .error e =>
    { out := [.error e], state := { m with lastFinish := some .error }, goesOn := false }

def intoChatStream : StreamAdapter where
  Item := Except String Event
  Memory := Memory
  start := {}
  step := streamStep
  finishReason m := m.lastFinish.getD .other
  usage m := m.lastUsage

/-! ## What an item yields -/

def Event.speaks : Event → Bool
  | .contentBlockStart _ (some (.toolUse _ _)) => true
  | .contentBlockDelta _ (some (.text text)) => text ≠ ""
  | .contentBlockDelta _ (some (.toolUse _)) => true
  | _ => false

def kind : Except String Event → Kind
  | .error _ => .fails
  | .ok event => if event.speaks then .speaks else .quiet

/-- The item is the end of the message. -/
def marks : Except String Event → Bool
  | .ok (.messageStop _) => true
  | _ => false

/-- At most one delta comes of an event. -/
theorem mapEvent_chunks (state : ToolCallState) (event : Event) :
    (mapEvent state event).chunks = [] ∧ event.speaks = false ∨
      (∃ text toolCalls, (mapEvent state event).chunks = [.delta text toolCalls]) ∧
        event.speaks = true := by
  cases event with
  | messageStart | contentBlockStop | unknown | messageStop | metadata => exact .inl ⟨rfl, rfl⟩
  | contentBlockStart block start =>
    match start with
    | none | some .other => exact .inl ⟨rfl, rfl⟩
    | some (.toolUse toolUseId name) => exact .inr ⟨⟨_, _, rfl⟩, rfl⟩
  | contentBlockDelta block delta =>
    match delta with
    | none | some .other => exact .inl ⟨rfl, rfl⟩
    | some (.toolUse input) => exact .inr ⟨⟨_, _, rfl⟩, rfl⟩
    | some (.text text) =>
      by_cases h : text = ""
      · exact .inl ⟨if_pos h, decide_eq_false fun hne => hne h⟩
      · exact .inr ⟨⟨_, _, if_neg h⟩, decide_eq_true h⟩

theorem streamStep_fits (m : Memory) (i : Except String Event) :
    Fits (streamStep m i) (kind i) := by
  cases i with
  | error e => exact ⟨⟨.error _, trivial, rfl⟩, rfl⟩
  | ok event =>
    rw [kind]
    rcases mapEvent_chunks m.toolCallState event with ⟨hout, hspeaks⟩ | ⟨⟨_, _, hout⟩, hspeaks⟩
    · rw [hspeaks]
      exact ⟨hout, rfl⟩
    · rw [hspeaks]
      refine ⟨fun hnil => ?_, fun c hc => ?_, rfl⟩
      · cases hout.symm.trans hnil
      · rw [streamStep, hout] at hc
        rw [List.mem_singleton.1 hc]
        trivial

/-- Bedrock's adapter keeps the contract. -/
theorem orderly_kinds (items : List (Except String Event)) : Orderly (items.map kind) := by
  induction items with
  | nil => trivial
  | cons i items ih =>
    cases i with
    | error e => trivial
    | ok event =>
      rw [List.map_cons, kind]
      split <;> exact ih

theorem mapEvent_finish (state : ToolCallState) (event : Event) (h : marks (.ok event) = false) :
    (mapEvent state event).finish = none := by
  cases event with
  | messageStart | contentBlockStop | unknown | metadata => rfl
  | messageStop => cases h
  | contentBlockStart block start =>
    match start with
    | none | some .other | some (.toolUse _ _) => rfl
  | contentBlockDelta block delta =>
    match delta with
    | none | some .other | some (.text _) | some (.toolUse _) => rfl

theorem streamStep_cut {m : Memory} {i : Except String Event} (hm : m.Cut) (hi : marks i = false) :
    (streamStep m i).state.Cut := by
  cases i with
  | error e => exact .inr rfl
  | ok event =>
    unfold Providers.Memory.Cut streamStep
    dsimp only
    rw [mapEvent_finish _ event hi]
    exact hm

end Tako.Providers.Bedrock
