import Tako.Providers.Stream.Basic

/-!
# The stream of Anthropic

`tako-providers/anthropic/src/stream.rs`: typed SSE events. The adapter also keeps the tool blocks
it has opened, which nothing reads.
-/

namespace Tako.Providers.Anthropic

open Transducer

structure AnUsage where
  inputTokens : UInt32 := 0
  outputTokens : UInt32 := 0

inductive AnBlockStart where
  | text (text : String)
  | toolUse (id name : String)

inductive AnBlockDelta where
  | textDelta (text : String)
  | inputJsonDelta (partialJson : String)

/-- A `message_start` has its usage here, a `message_delta` its stop reason. -/
inductive AnEvent where
  | messageStart (usage : AnUsage)
  | contentBlockStart (index : UInt32) (contentBlock : AnBlockStart)
  | contentBlockDelta (index : UInt32) (delta : AnBlockDelta)
  | contentBlockStop (index : UInt32)
  | messageDelta (stopReason : Option String) (usage : AnUsage)
  | messageStop
  | ping
  | error (message : String)

def finishReason : String → FinishReason
  | "end_turn" | "stop_sequence" => .stop
  | "max_tokens" => .length
  | "tool_use" => .toolCalls
  | _ => .other

/-- What an event makes of the stream. -/
def frameStep (m : Memory) : AnEvent → Step Memory ChatChunk
  | .ping | .contentBlockStop _ | .contentBlockStart _ (.text _) => { state := m }
  | .messageStart usage =>
    { state := { m with lastUsage := ⟨usage.inputTokens, usage.outputTokens⟩ } }
  | .contentBlockStart index (.toolUse id name) =>
    { out := [.delta none [{ index, id := some id, name := some name }]], state := m }
  | .contentBlockDelta _ (.textDelta text) => { out := [.delta (some text) []], state := m }
  | .contentBlockDelta index (.inputJsonDelta partialJson) =>
    { out := [.delta none [{ index, argumentsFragment := some partialJson }]], state := m }
  | .messageDelta stopReason usage =>
    { state :=
        { lastFinish := (stopReason.map finishReason).or m.lastFinish
          lastUsage :=
            if 0 < usage.outputTokens then { m.lastUsage with outputTokens := usage.outputTokens }
            else m.lastUsage } }
  | .messageStop => { state := m, goesOn := false }
  | .error message =>
    { out := [.error message], state := { m with lastFinish := some .error }, goesOn := false }

def reading (parse : String → Except String AnEvent) (data : String) : Reading AnEvent :=
  .parsed (parse data)

def intoChatStream (parse : String → Except String AnEvent) : StreamAdapter where
  Item := Except String String
  Memory := Memory
  start := {}
  step := loopStep Memory.fail (reading parse) frameStep
  finishReason m := m.lastFinish.getD .other
  usage m := m.lastUsage

/-! ## What an item yields -/

def AnEvent.kind : AnEvent → Kind
  | .contentBlockStart _ (.toolUse _ _) | .contentBlockDelta _ _ => .speaks
  | .messageStop => .ends false
  | .error _ => .fails
  | _ => .quiet

/-- The event has a stop reason. -/
def AnEvent.marks : AnEvent → Bool
  | .messageDelta stopReason _ => stopReason.isSome
  | _ => false

theorem fits_delta {m : Memory} (text : Option String) (toolCalls : List ToolCallDelta) :
    Fits { out := [.delta text toolCalls], state := m } .speaks :=
  ⟨(nomatch ·), fun _ hc => List.mem_singleton.1 hc ▸ trivial, rfl⟩

theorem frameStep_fits (m : Memory) (event : AnEvent) : Fits (frameStep m event) event.kind := by
  cases event with
  | messageStart | contentBlockStop | messageDelta | ping => exact ⟨rfl, rfl⟩
  | contentBlockStart index contentBlock =>
    cases contentBlock with
    | text => exact ⟨rfl, rfl⟩
    | toolUse => exact fits_delta _ _
  | contentBlockDelta index delta => cases delta <;> exact fits_delta _ _
  | messageStop =>
    exact ⟨fun _ => (nomatch ·), iff_of_false (fun hne => hne rfl) Bool.false_ne_true, rfl⟩
  | error => exact ⟨⟨.error _, trivial, rfl⟩, rfl⟩

theorem frameStep_cut {m : Memory} {event : AnEvent} (hm : m.Cut) (h : event.marks = false) :
    (frameStep m event).state.Cut := by
  cases event with
  | messageStart | contentBlockStop | ping | messageStop => exact hm
  | contentBlockStart index contentBlock => cases contentBlock <;> exact hm
  | contentBlockDelta index delta => cases delta <;> exact hm
  | messageDelta stopReason usage =>
    rw [AnEvent.marks] at h
    rw [Option.not_isSome_iff_eq_none.1 (Bool.eq_false_iff.1 h)]
    exact hm
  | error => exact .inr rfl

end Tako.Providers.Anthropic
