import Tako.Providers.Stream.Basic

/-!
# The streams of OpenAI and Mistral

`tako-providers/openai/src/stream.rs` and `mistral/src/stream.rs`: SSE frames of one form, `[DONE]`
after the last. They differ in one name of a finish reason.
-/

namespace Tako.Providers

open Transducer

namespace OpenAi

structure StreamFnDelta where
  name : Option String := none
  arguments : Option String := none

structure StreamToolCallDelta where
  index : UInt32
  id : Option String := none
  function : Option StreamFnDelta := none

structure StreamDelta where
  content : Option String := none
  toolCalls : List StreamToolCallDelta := []

structure StreamChoice where
  delta : StreamDelta := {}
  finishReason : Option String := none

structure StreamUsage where
  promptTokens : UInt32 := 0
  completionTokens : UInt32 := 0

structure StreamFrame where
  choices : List StreamChoice := []
  usage : Option StreamUsage := none

def finishReason : String → FinishReason
  | "stop" => .stop
  | "length" => .length
  | "tool_calls" => .toolCalls
  | "content_filter" => .contentFilter
  | _ => .other

def toolCallDelta (tc : StreamToolCallDelta) : ToolCallDelta where
  index := tc.index
  id := tc.id
  name := tc.function.bind (·.name)
  argumentsFragment := tc.function.bind (·.arguments)

/-- What a choice yields. -/
def choiceChunks (choice : StreamChoice) : List ChatChunk :=
  deltaChunks (choice.delta.content.filter (· ≠ "")) (choice.delta.toolCalls.map toolCallDelta)

/-- The last finish reason after a frame. -/
def frameFinish (finishOf : String → FinishReason) (last : Option FinishReason)
    (choices : List StreamChoice) : Option FinishReason :=
  choices.foldl (fun last choice => (choice.finishReason.map finishOf).or last) last

def frameUsage (last : Usage) : Option StreamUsage → Usage
  | some u => ⟨u.promptTokens, u.completionTokens⟩
  | none => last

/-- What a frame makes of the stream. -/
def frameStep (finishOf : String → FinishReason) (m : Memory) (frame : StreamFrame) :
    Step Memory ChatChunk where
  out := frame.choices.flatMap choiceChunks
  state :=
    { lastFinish := frameFinish finishOf m.lastFinish frame.choices
      lastUsage := frameUsage m.lastUsage frame.usage }

def reading (parse : String → Except String StreamFrame) (data : String) : Reading StreamFrame :=
  if data = "[DONE]" then .finished else .parsed (parse data)

/-- The adapter, for a table of finish reasons. -/
def adapter (finishOf : String → FinishReason) (parse : String → Except String StreamFrame) :
    StreamAdapter where
  Item := Except String String
  Memory := Memory
  start := {}
  step := loopStep Memory.fail (reading parse) (frameStep finishOf)
  finishReason m := m.lastFinish.getD .other
  usage m := m.lastUsage

def intoChatStream (parse : String → Except String StreamFrame) : StreamAdapter :=
  adapter finishReason parse

/-! ## What an item yields -/

/-- A choice has something to yield. -/
def StreamChoice.speaks (choice : StreamChoice) : Bool :=
  choice.delta.content.any (· ≠ "") || !choice.delta.toolCalls.isEmpty

def StreamFrame.kind (frame : StreamFrame) : Kind :=
  if frame.choices.any StreamChoice.speaks then .speaks else .quiet

/-- The frame has a finish reason. -/
def StreamFrame.marks (frame : StreamFrame) : Bool := frame.choices.any (·.finishReason.isSome)

variable {finishOf : String → FinishReason} {parse : String → Except String StreamFrame}

theorem choiceChunks_ne_nil_iff (choice : StreamChoice) :
    choiceChunks choice ≠ [] ↔ choice.speaks = true := by
  unfold choiceChunks StreamChoice.speaks
  rw [deltaChunks_ne_nil_iff, List.isEmpty_map, Option.isSome_filter]

theorem frameStep_fits (m : Memory) (frame : StreamFrame) :
    Fits (frameStep finishOf m frame) frame.kind := by
  refine hasKind_of_good (fun c hc => ?_) (flatMap_ne_nil_iff choiceChunks_ne_nil_iff _) rfl
  obtain ⟨choice, -, hc⟩ := List.mem_flatMap.1 hc
  exact deltaChunks_delta _ _ c hc

theorem frameFinish_of_unmarked {choices : List StreamChoice}
    (h : choices.any (·.finishReason.isSome) = false) (last : Option FinishReason) :
    frameFinish finishOf last choices = last := by
  unfold frameFinish
  induction choices with
  | nil => rfl
  | cons choice choices ih =>
    rw [List.any_cons, Bool.or_eq_false_iff] at h
    rw [List.foldl_cons, Option.not_isSome_iff_eq_none.1 (Bool.eq_false_iff.1 h.1)]
    exact ih h.2

theorem frameStep_cut {m : Memory} {frame : StreamFrame} (hm : m.Cut)
    (h : frame.marks = false) : (frameStep finishOf m frame).state.Cut := by
  unfold Memory.Cut frameStep
  dsimp only
  rw [frameFinish_of_unmarked h]
  exact hm

end OpenAi

namespace Mistral

def finishReason : String → FinishReason
  | "stop" => .stop
  | "length" | "model_length" => .length
  | "tool_calls" => .toolCalls
  | "content_filter" => .contentFilter
  | _ => .other

def intoChatStream (parse : String → Except String OpenAi.StreamFrame) : StreamAdapter :=
  OpenAi.adapter finishReason parse

end Mistral

end Tako.Providers
