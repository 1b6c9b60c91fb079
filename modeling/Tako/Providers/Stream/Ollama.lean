import Tako.Core.Error
import Tako.Providers.Stream.Basic
import Tako.Rust.Str

/-!
# The stream of Ollama

`tako-providers/ollama/src/stream.rs`, with `from_ollama_response` of `convert.rs`: one JSON object
a line, the last one with `done`.
-/

namespace Tako.Providers.Ollama

open Transducer

structure OlResponseToolCallFunction where
  name : String
  arguments : Json

structure OlResponseToolCall where
  function : OlResponseToolCallFunction

structure OlResponseMessage where
  content : String := ""
  toolCalls : List OlResponseToolCall := []

structure OlResponse where
  message : OlResponseMessage := {}
  done : Bool := false
  doneReason : Option String := none
  promptEvalCount : UInt32 := 0
  evalCount : UInt32 := 0

/-- `serde_json`. -/
structure Env where
  parse : String → Except String OlResponse
  text : Json → String

/-- The parts of a message. Ollama gives its tool calls no ids. -/
def content (message : OlResponseMessage) : List ContentPart :=
  (if message.content = "" then [] else [.text message.content]) ++
    message.toolCalls.zipIdx.map fun e =>
      .toolCall s!"ol_call_{e.2}" e.1.function.name e.1.function.arguments

def fromOllamaResponse (resp : OlResponse) : Result ChatResponse :=
  let finishReason : FinishReason :=
    if resp.message.toolCalls.isEmpty then
      match resp.doneReason with
      | some "length" => .length
      | _ => .stop
    else .toolCalls
  .ok
    { message := ⟨.assistant, content resp.message⟩
      finishReason
      usage := ⟨resp.promptEvalCount, resp.evalCount⟩ }

variable (E : Env)

/-- The tool calls among the parts of a message, each with the number of its part. -/
def toolCallDelta (e : ContentPart × Nat) : Option ToolCallDelta :=
  match e.1 with
  | .toolCall id name args =>
    some
      { index := UInt32.ofNat e.2
        id := some id
        name := some name
        argumentsFragment := some (E.text args) }
  | _ => none

def toolCallDeltas (parts : List ContentPart) : List ToolCallDelta :=
  parts.zipIdx.filterMap (toolCallDelta E)

def nonEmpty (s : String) : Option String := if s = "" then none else some s

/-- The terminating frame. -/
def doneStep (m : Memory) (frame : OlResponse) : Step Memory ChatChunk :=
  let m := { m with lastUsage := ⟨frame.promptEvalCount, frame.evalCount⟩ }
  match fromOllamaResponse { frame with done := true } with
  | .ok resp =>
    { out := deltaChunks (nonEmpty frame.message.content) (toolCallDeltas E resp.message.content)
      state := { m with lastFinish := some resp.finishReason }
      goesOn := false }
  | .error _ => { state := m, goesOn := false }

/-- What a frame makes of the stream. -/
def frameStep (m : Memory) (frame : OlResponse) : Step Memory ChatChunk :=
  if frame.done then doneStep E m frame
  else { out := deltaChunks (nonEmpty frame.message.content) [], state := m }

def reading (line : String) : Reading OlResponse :=
  let line := Str.trim line
  if line = "" then .skipped else .parsed (E.parse line)

def streamStep : Memory → Except String String → Step Memory ChatChunk :=
  loopStep Memory.fail (reading E) (frameStep E)

def intoChatStream : StreamAdapter where
  Item := Except String String
  Memory := Memory
  start := {}
  step := streamStep E
  finishReason m := m.lastFinish.getD .stop
  usage m := m.lastUsage

/-! ## What an item yields -/

def OlResponse.kind (frame : OlResponse) : Kind :=
  if frame.done then .ends (frame.message.content ≠ "" || !frame.message.toolCalls.isEmpty)
  else if frame.message.content ≠ "" then .speaks else .quiet

variable {E}

theorem nonEmpty_isSome (s : String) : (nonEmpty s).isSome = decide (s ≠ "") := by
  unfold nonEmpty
  split
  · next h => exact (decide_eq_false fun hne => hne h).symm
  · next h => exact (decide_eq_true h).symm

theorem filterMap_zipIdx_isEmpty (parts : List ContentPart) (k : Nat) :
    ((parts.zipIdx k).filterMap (toolCallDelta E)).isEmpty =
      !parts.any fun part => (toolCallDelta E (part, 0)).isSome := by
  induction parts generalizing k with
  | nil => rfl
  | cons part parts ih =>
    rw [List.zipIdx_cons, List.filterMap_cons, List.any_cons, Bool.not_or, ← ih (k + 1)]
    cases part <;> rfl

theorem toolCallDeltas_isEmpty (message : OlResponseMessage) :
    (toolCallDeltas E (content message)).isEmpty = message.toolCalls.isEmpty := by
  have htext : (if message.content = "" then [] else [ContentPart.text message.content]).any
      (fun part => (toolCallDelta E (part, 0)).isSome) = false := by
    split <;> rfl
  rw [toolCallDeltas, filterMap_zipIdx_isEmpty, content, List.any_append, htext, Bool.false_or]
  cases message.toolCalls <;> rfl

theorem doneStep_fits (m : Memory) (frame : OlResponse) : Fits (doneStep E m frame)
    (.ends (frame.message.content ≠ "" || !frame.message.toolCalls.isEmpty)) := by
  refine ⟨deltaChunks_delta _ _, ?_, rfl⟩
  refine (deltaChunks_ne_nil_iff _ _).trans ?_
  rw [nonEmpty_isSome, ← toolCallDeltas_isEmpty (E := E)]

theorem frameStep_fits (m : Memory) (frame : OlResponse) :
    Fits (frameStep E m frame) frame.kind := by
  unfold frameStep OlResponse.kind
  split
  · exact doneStep_fits m frame
  · have hspeaks : deltaChunks (nonEmpty frame.message.content) [] ≠ [] ↔
        decide (frame.message.content ≠ "") = true := by
      rw [deltaChunks_ne_nil_iff, nonEmpty_isSome, List.isEmpty_nil, Bool.not_true, Bool.or_false]
    have hfits : Fits { out := deltaChunks (nonEmpty frame.message.content) [], state := m }
        (if decide (frame.message.content ≠ "") = true then .speaks else .quiet) :=
      hasKind_of_good (deltaChunks_delta _ _) hspeaks rfl
    simpa using hfits

theorem streamStep_fits (m : Memory) (i : Except String String) :
    Fits (streamStep E m i) (loopKind (reading E) OlResponse.kind i) :=
  loopStep_fits (frameStep_fits m) i

/-! ## Where the stream ends -/

theorem frameStep_of_not_done (m : Memory) {frame : OlResponse} (h : frame.done = false) :
    frameStep E m frame = { out := deltaChunks (nonEmpty frame.message.content) [], state := m } := by
  rw [frameStep, h]
  rfl

theorem reading_ne_finished (line : String) : reading E line ≠ .finished := by
  unfold reading
  dsimp only
  split <;> exact (nomatch ·)

theorem streamStep_goesOn (m : Memory) {i : Except String String}
    (h : loopMarks (reading E) OlResponse.done i = false) :
    (streamStep E m i).goesOn = !isError i :=
  loopStep_goesOn reading_ne_finished fun _ hframe => by
    rw [frameStep_of_not_done m (unmarked_of_heard h hframe)]

theorem streamStep_finish (m : Memory) {line : String}
    (h : loopMarks (reading E) OlResponse.done (.ok line) = false) :
    (streamStep E m (.ok line)).state.lastFinish = m.lastFinish :=
  loopStep_ok (P := fun m' : Memory => m'.lastFinish = m.lastFinish) rfl fun _ hframe => by
    rw [frameStep_of_not_done m (unmarked_of_heard h hframe)]

/-- The finish reason where the upstream has sent no terminating frame. -/
theorem reason_of_cut {items : List (Except String String)}
    (hcut : ∀ i ∈ items, loopMarks (reading E) OlResponse.done i = false) :
    (intoChatStream E).reason items = if items.any isError then .error else .stop := by
  change (final (streamStep E) {} items).lastFinish.getD .stop = _
  split
  · next herror =>
    have hfinish : (final (streamStep E) {} items).lastFinish = some .error := by
      refine final_of_stop (I := fun m : Memory => m.lastFinish = some .error)
        (fun m i hi => streamStep_goesOn m (hcut i hi)) (fun m i hi => ?_)
        (List.any_eq_true.1 herror)
      cases i with
      | error e => rfl
      | ok line => cases hi
    rw [hfinish]
    rfl
  · next herror =>
    have hfinish : (final (streamStep E) {} items).lastFinish = none := by
      refine final_invariant (I := fun m : Memory => m.lastFinish = none) (fun m i hi hm => ?_) rfl
      cases i with
      | error e => exact absurd (List.any_eq_true.2 ⟨_, hi, rfl⟩) herror
      | ok line => exact (streamStep_finish m (hcut _ hi)).trans hm
    rw [hfinish]
    rfl

end Tako.Providers.Ollama
