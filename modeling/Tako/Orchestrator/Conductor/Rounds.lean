import Tako.Orchestrator.Conductor.Fanout

/-!
# `Conductor::run` and `Conductor::stream`

In each round the coordinator is asked for a plan, and the plan is carried out by a fan-out whose
results are the next message to the coordinator.
-/

namespace Tako.Orchestrator

variable {W : Type}

/-! ## What a run carries from round to round -/

structure RunState where
  messages : List Message
  usage : Usage := {}
  steps : Nat := 0

namespace RunState

/-- The coordinator has answered. -/
def answered (s : RunState) (resp : ChatResponse) : RunState where
  messages := s.messages ++ [resp.message]
  usage := s.usage.add resp.usage
  steps := s.steps + 1

/-- The coordinator is told something. -/
def tell (s : RunState) (text : String) : RunState :=
  { s with messages := s.messages ++ [.user text] }

def output (s : RunState) (text : String) : OrchOutput where
  text
  message := .assistant text
  usage := s.usage
  steps := s.steps

/-- The first text part of the coordinator's last message. -/
def lastText (s : RunState) : String :=
  ((s.messages.reverse.find? (·.role = .assistant)).bind fun m =>
    m.content.findSome? ContentPart.asText).getD ""

end RunState

/-- What the coordinator is told of a plan that does not parse. -/
def parseRetry (e : String) : String :=
  s!"Your previous output did not match the dispatch JSON schema: {e}. " ++
  "Reply with a single valid JSON object."

def emptyDispatchNudge : String :=
  "You returned an empty dispatch with halt=false. " ++
  "Either dispatch a worker or halt with a final answer."

/-- A worker's error. -/
def WorkerResult.err? (r : WorkerResult) : Option String :=
  match r.outcome with
  | .ok _ => none
  | .error e => some e

/-- The `result` of a worker's `ToolCallResult`. -/
def WorkerResult.toJson (r : WorkerResult) : Json :=
  match r.outcome with
  | .ok text => .object [("result", .string text), ("worker", .string r.name)]
  | .error e => .object [("error", .string e), ("worker", .string r.name)]

namespace Conductor

variable (C : Conductor W) (p : Principal) (S : Schedule W)

/-- The coordinator's call in a round, with the budget's checks. -/
def ask (messages : List Message) : M W ChatResponse := do
  let req := ChatRequest.new C.model messages
  let est := C.coordinator.estimateCostUsd req
  preCheck C.budget p est (req.maxTokens.getD 0)
  let resp ← chat C.coordinator p req
  record C.budget p est resp.usage
  pure resp

/-- The end of a round: a failed worker may stop the run, else the coordinator is told of all
results. -/
def report (s : RunState) (results : List WorkerResult) : CM W RunState :=
  match if C.failFast then results.findSome? WorkerResult.err? else none with
  | some err => .throw (.error (C.failFastError err))
  | none =>
    match renderWorkerResults C.codec results with
    | some summary => pure (s.tell summary)
    | none => .throw .panic

/-- The rounds, until one halts. -/
def rounds (round : Nat → RunState → CM W (RunState ⊕ OrchOutput)) :
    Nat → Nat → RunState → CM W OrchOutput
  | 0, _, s => pure (s.output s.lastText)
  | n + 1, step, s => do
    match ← round step s with
    | .inl s => rounds round n (step + 1) s
    | .inr output => pure output

/-! ## `run` -/

def round (step : Nat) (s : RunState) : CM W (RunState ⊕ OrchOutput) := do
  let resp ← byConductor (C.ask p s.messages)
  let s := s.answered resp
  let rawText := resp.message.text
  match parseDispatchPlan C.codec rawText with
  | .error e => pure (.inl (s.tell (parseRetry e)))
  | .ok plan =>
    if plan.halt then pure (.inr (s.output (plan.finalAnswer.getD rawText)))
    else if plan.dispatch.isEmpty then pure (.inl (s.tell emptyDispatchNudge))
    else do
      let results ← C.dispatchWorkersStatic p S step plan.dispatch
      let s ← C.report s results
      pure (.inl s)

def run (input : OrchInput) : CM W OrchOutput :=
  rounds (C.round p S) C.maxSteps 0 { messages := C.conversation input }

/-! ## `stream` -/

/-- The events of a result, with its score. -/
def yieldResult (prompt : String) (step idx : Nat) (r : WorkerResult) : M W Unit := do
  yield (.toolCallResult step s!"step{step}-{idx}" r.toJson r.err?.isSome)
  match C.verifier, r.outcome with
  | some v, .ok text => do
    let score ← score v p prompt text
    yield (.verifierScore step (idx + 1) (clampUnit score))
  | _, _ => pure ()

def roundStreaming (prompt : String) (step : Nat) (s : RunState) :
    CM W (RunState ⊕ OrchOutput) := do
  byConductor (yield (.stepStart step))
  let resp ← byConductor (C.ask p s.messages)
  let rawText := resp.message.text
  byConductor (if rawText = "" then pure () else yield (.assistantText step rawText))
  let s := s.answered resp
  match parseDispatchPlan C.codec rawText with
  | .error e => pure (.inl (s.tell (parseRetry e)))
  | .ok plan =>
    if plan.halt then pure (.inr (s.output (plan.finalAnswer.getD rawText)))
    else if plan.dispatch.isEmpty then pure (.inl (s.tell emptyDispatchNudge))
    else do
      byConductor (plan.dispatch.zipIdx.forM fun (d, idx) =>
        yield (.toolCallStart step s!"worker:{d.worker}" s!"step{step}-{idx}"))
      let results ← C.dispatchWorkersStreaming p S step plan.dispatch
      byConductor (results.zipIdx.forM fun (r, idx) => C.yieldResult p prompt step idx r)
      let s ← C.report s results
      pure (.inl s)

def stream (input : OrchInput) : CM W Unit := do
  let output ← rounds (C.roundStreaming p S input.promptText) C.maxSteps 0
    { messages := C.conversation input }
  byConductor (yield (.final output))

end Conductor

end Tako.Orchestrator
