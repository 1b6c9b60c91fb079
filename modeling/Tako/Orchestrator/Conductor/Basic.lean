import Tako.Orchestrator.Single
import Tako.Rust.Str

/-!
# `Conductor`: plans and results

A coordinator plans in rounds, workers carry the plans out
(`tako-orchestrator/src/conductor.rs`). Here is what they write to each other.
-/

namespace Tako.Orchestrator

/-! ## Dispatch plans -/

structure WorkerDispatch where
  worker : String
  task : String
  deriving DecidableEq

structure DispatchPlan where
  thought : Option String := none
  dispatch : List WorkerDispatch := []
  halt : Bool := false
  finalAnswer : Option String := none

/-- The libraries that print and parse: how a duration and a string are printed by `{:?}`, the text
of a join error by branch, and `serde_json::from_str` of a plan. -/
structure PlanCodec where
  debugDuration : Nat → String
  debugStr : String → String
  joinError : Nat → String
  planFromStr : String → Except String DispatchPlan

/-- The outermost fence pair is stripped. -/
def parseDispatchPlan (codec : PlanCodec) (raw : String) : Except String DispatchPlan :=
  let trimmed := Str.trim raw
  codec.planFromStr <|
    match Str.stripPrefix trimmed "```json", Str.stripPrefix trimmed "```" with
    | some rest, _ | none, some rest => Str.trim (Str.trimEndMatchesStr rest "```")
    | none, none => trimmed

/-! ## Results -/

structure WorkerResult where
  name : String
  task : String
  outcome : Except String String

/-- The first 57 bytes of a long text. The slice panics inside a character. -/
def short (s : String) : Option String :=
  let s := Str.trim s
  if s.utf8ByteSize ≤ 60 then some s
  else do
    let part ← Str.sliceTo s 57
    some s!"{part}..."

def renderWorkerResult (codec : PlanCodec) (r : WorkerResult) : Option String := do
  let task ← short r.task
  match r.outcome with
  | .ok text => some s!"- {r.name} (task: {codec.debugStr task}): {text}\n"
  | .error err => some s!"- {r.name} (task: {codec.debugStr task}): ERROR: {err}\n"

/-- The report to the coordinator, `none` where it panics. -/
def renderWorkerResults (codec : PlanCodec) (results : List WorkerResult) : Option String := do
  let lines ← results.mapM (renderWorkerResult codec)
  some (String.join ("Worker results:\n" :: lines))

/-- What a worker's answer counts as. -/
def workerOutcome (finishReason : FinishReason) (text : String) : Except String String :=
  match finishReason with
  | .stop | .toolCalls => .ok text
  | reason => .error s!"worker finished with unexpected reason: {reason.debug}"

/-! ## The conductor -/

/-- A worker's provider, and whether its calls may outlast the time limit or panic. -/
structure Worker (W : Type) where
  provider : LlmProvider W
  mayTimeOut : Bool := false
  mayPanic : Bool := false

/-- `workers` lists the entries of the map, with distinct keys. -/
structure Conductor (W : Type) where
  codec : PlanCodec
  coordinator : LlmProvider W
  workers : List (String × Worker W) := []
  maxSteps : StepLimit := ⟨6, by decide⟩
  maxFanout : StepLimit := ⟨4, by decide⟩
  workerTimeout : Nat := 120000000000
  failFast : Bool := false
  budget : Option (BudgetTracker W) := none
  verifier : Option (Verifier W) := none

namespace Conductor

variable {W : Type} (C : Conductor W)

/-- `workers.get(&name)`. -/
def worker? (name : String) : Option (Worker W) :=
  (C.workers.find? (·.1 = name)).map (·.2)

/-- `system_prompt`: the dispatch schema and the workers in the order of their lines. -/
def systemPrompt : String :=
  let roles := (C.workers.map fun e => s!"  - `{e.1}` (provider: `{e.2.provider.id}`)").mergeSort
  let roles := if roles.isEmpty then "  (no workers registered)" else "\n".intercalate roles
  "You are the COORDINATOR in a multi-agent system. At each turn you MUST emit " ++
  "a single JSON object (no prose, no markdown) matching this schema:\n\n" ++
  "\x7b\n  \"thought\": \"<internal monologue>\",\n  \"dispatch\": [\n    " ++
  "\x7b\"worker\": \"<role>\", \"task\": \"<task>\"\x7d, ...\n  ],\n  " ++
  "\"halt\": <bool>,\n  \"final_answer\": \"<answer when halt is true>\"\n\x7d\n\n" ++
  "Available worker roles:\n" ++ roles ++ "\n\n" ++
  "Set `halt: true` and provide `final_answer` only when the user's request is fully " ++
  "addressed. Otherwise dispatch one or more workers in parallel; their results will " ++
  "come back as a single user-role message before your next turn."

/-- `coordinator.id().split(':').nth(1).unwrap_or("")`. -/
def model : String := modelOf C.coordinator.id

/-- The conversation that a run starts with. -/
def conversation (input : OrchInput) : List Message := .system C.systemPrompt :: input.conversation

/-- The error of a run that a failed worker stops. -/
def failFastError (err : String) : TakoError :=
  .provider s!"Conductor worker failed (fail_fast): {err}"
    { providerId := C.coordinator.id, model := C.model }

end Conductor

end Tako.Orchestrator
