import Tako.Core.Types
import Tako.Providers.Stream.Basic
import Tako.Rust.Str

/-!
# The streams of a generic HTTP endpoint

`tako-providers/http-generic/src/lib.rs`: JSON frames, as SSE events or one a line. The operator's
JSON pointers say where in a frame things are.
-/

namespace Tako.Providers.HttpGeneric

open Transducer

/-- `serde_json`: the parser, and `Value::pointer`. -/
structure Env where
  parse : String → Except String Json
  pointer : Json → String → Option Json

structure Pointers where
  contentPointer : String
  finishReasonPointer : String
  usagePointer : Option String

inductive StreamConfig where
  | openAiSse (pointers : Pointers)
  | ndJson (pointers : Pointers)

/-- `Value::get` of a name. -/
def get (key : String) : Json → Option Json
  | .object members => members.lookup key
  | _ => none

/-- `Value::as_str`. -/
def asStr : Json → Option String
  | .string s => some s
  | _ => none

/-- `Value::as_u64`, and `as u32`. -/
def asU32 : Json → Option UInt32
  | .number (.posInt n) => some (UInt32.ofNat n)
  | _ => none

variable (E : Env)

def resolveStr (value : Json) (pointer : String) : Option String :=
  ((E.pointer value pointer).bind asStr).filter (· ≠ "")

def resolveFinish (value : Json) (pointer : String) : Option FinishReason := do
  let s ← (E.pointer value pointer).bind asStr
  return match s with
    | "stop" => .stop
    | "length" => .length
    | "tool_calls" => .toolCalls
    | "content_filter" => .contentFilter
    | _ => .other

def resolveUsage (value : Json) (pointer : String) : Option Usage := do
  let usage ← E.pointer value pointer
  let input ← ((get "input_tokens" usage).or (get "prompt_tokens" usage)).bind asU32
  let output ← ((get "output_tokens" usage).or (get "completion_tokens" usage)).bind asU32
  return ⟨input, output⟩

variable (P : Pointers)

/-- What a frame makes of the stream. -/
def frameStep (m : Memory) (frame : Json) : Step Memory ChatChunk where
  out := deltaChunks (resolveStr E frame P.contentPointer) []
  state :=
    { lastFinish := (resolveFinish E frame P.finishReasonPointer).or m.lastFinish
      lastUsage := (P.usagePointer.bind (resolveUsage E frame)).getD m.lastUsage }

def sseReading (data : String) : Reading Json :=
  if data = "[DONE]" then .finished else .parsed (E.parse data)

/-- There is no `[DONE]` among lines: the loop ends with a finish reason. -/
def lineFrameStep (m : Memory) (frame : Json) : Step Memory ChatChunk :=
  let next := frameStep E P m frame
  { next with goesOn := next.state.lastFinish.isNone }

def lineReading (line : String) : Reading Json :=
  if Str.trim line = "" then .skipped else .parsed (E.parse line)

def streamOpenAiSse : StreamAdapter where
  Item := Except String String
  Memory := Memory
  start := {}
  step := loopStep Memory.fail (sseReading E) (frameStep E P)
  finishReason m := m.lastFinish.getD .other
  usage m := m.lastUsage

def streamNdjson : StreamAdapter where
  Item := Except String String
  Memory := Memory
  start := {}
  step := loopStep Memory.fail (lineReading E) (lineFrameStep E P)
  finishReason m := m.lastFinish.getD .other
  usage m := m.lastUsage

/-! ## What an item yields -/

/-- A frame has text. -/
def speaks (frame : Json) : Bool := (resolveStr E frame P.contentPointer).isSome

def frameKind (frame : Json) : Kind := if speaks E P frame then .speaks else .quiet

/-- A frame has a finish reason. -/
def marks (frame : Json) : Bool := (resolveFinish E frame P.finishReasonPointer).isSome

def lineFrameKind (frame : Json) : Kind :=
  if marks E P frame then .ends (speaks E P frame) else frameKind E P frame

variable {E P}

theorem frameStep_ne_nil_iff (m : Memory) (frame : Json) :
    (frameStep E P m frame).out ≠ [] ↔ speaks E P frame = true := by
  unfold frameStep speaks
  rw [deltaChunks_ne_nil_iff, List.isEmpty_nil, Bool.not_true, Bool.or_false]

theorem frameStep_fits (m : Memory) (frame : Json) :
    Fits (frameStep E P m frame) (frameKind E P frame) :=
  hasKind_of_good (deltaChunks_delta _ _) (frameStep_ne_nil_iff m frame) rfl

theorem lineFrameStep_fits {m : Memory} (hm : m.lastFinish = none) (frame : Json) :
    Fits (lineFrameStep E P m frame) (lineFrameKind E P frame) := by
  have hfinish : (frameStep E P m frame).state.lastFinish =
      resolveFinish E frame P.finishReasonPointer := by
    rw [frameStep, hm, Option.or_none]
  unfold lineFrameStep lineFrameKind marks
  dsimp only
  rw [hfinish]
  split
  · next hsome =>
    refine ⟨deltaChunks_delta _ _, frameStep_ne_nil_iff m frame, ?_⟩
    exact Option.isNone_eq_false_iff.2 hsome
  · next hnone =>
    refine hasKind_of_good (deltaChunks_delta _ _) (frameStep_ne_nil_iff m frame) ?_
    exact Option.isNone_iff_eq_none.2 (Option.not_isSome_iff_eq_none.1 hnone)

/-- While the loop over lines goes on, it has no finish reason. -/
theorem lineStep_finish {m : Memory} (hm : m.lastFinish = none) {i : Except String String}
    (hgo : (loopStep Memory.fail (lineReading E) (lineFrameStep E P) m i).goesOn = true) :
    (loopStep Memory.fail (lineReading E) (lineFrameStep E P) m i).state.lastFinish = none := by
  cases i with
  | error e => cases hgo
  | ok line =>
    dsimp only [loopStep] at hgo ⊢
    cases hread : lineReading E line with
    | skipped | finished => exact hm
    | parsed frame =>
      cases frame with
      | error e => exact hm
      | ok frame =>
        rw [hread] at hgo
        exact Option.isNone_iff_eq_none.1 hgo

/-! ## Where the stream ends -/

theorem frameStep_cut {m : Memory} {frame : Json} (hm : m.Cut) (h : marks E P frame = false) :
    (frameStep E P m frame).state.Cut := by
  unfold Memory.Cut frameStep
  dsimp only
  rw [Option.not_isSome_iff_eq_none.1 (Bool.eq_false_iff.1 h)]
  exact hm

end Tako.Providers.HttpGeneric
