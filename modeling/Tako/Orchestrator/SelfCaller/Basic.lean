import Tako.Orchestrator.Basic
import Tako.Rust.Num
import Tako.Theory.Generator
import Tako.Theory.SortedMap

/-!
# `SelfCaller`

A wrapper that runs another orchestrator again, with a corrective prompt, as long as a guard is not
confident of the answer (`tako-orchestrator/src/self_caller.rs`). The orchestrator that it wraps may
be a `SelfCaller` itself; they see each other's depth in the principal's metadata.

An orchestrator's stream is a generator: what it wraps goes on only when it is polled, and no more
once it is dropped.
-/

namespace Tako.Orchestrator

variable {W τ : Type}

/-! ## The traits -/

set_option linter.dupNamespace false in
/-- `Orchestrator`. A run yields nothing. -/
structure Orchestrator (W τ : Type) where
  run : Principal → OrchInput → Generator W τ TakoError Empty OrchOutput
  stream : Principal → OrchInput → Generator W τ TakoError OrchEvent Unit

structure ConfidenceGuard (W : Type) where
  evaluate : Principal → String → W → Result Rat × W
  evaluateStreaming : Principal → String → W → Result (Option Rat) × W

namespace SelfCaller

/-- What a `SelfCaller` does: it calls what it wraps, which then acts within, and its guard. -/
inductive Act (τ : Type) where
  | inner (p : Principal) (input : OrchInput)
  | evaluate (p : Principal) (text : String) (r : Result Rat)
  | evaluateStreaming (p : Principal) (text : String) (r : Result (Option Rat))
  | within (a : Act τ)
  | other (t : τ)

end SelfCaller

/-- `SelfCallerBuilder` without the orchestrator to wrap, with its defaults. The default confidence
is the `f32` nearest to 0.7. -/
structure SelfCallerBuilder (W : Type) where
  maxDepth : UInt8 := 3
  minConfidence : Rat := 11744051 / 16777216
  confidence : ConfidenceGuard W
  revisionPrompt : String :=
    "Your previous answer scored low on the " ++
    "confidence guard. Read it carefully, identify any gaps or errors, and " ++
    "produce a corrected response."

structure SelfCaller (W τ : Type) extends SelfCallerBuilder W where
  inner : Orchestrator W (SelfCaller.Act τ)

/-! ## The depth -/

def depthKey : String := "tako.recursion.depth"

def readDepth (p : Principal) : Nat := ((p.metadata.lookup depthKey).bind Num.parseU8).getD 0

def bumpedPrincipal (p : Principal) (depth : Nat) : Principal :=
  { p with metadata := SortedMap.upsert depthKey depth.repr (fun _ => depth.repr) p.metadata }

/-- `u8::saturating_add`. -/
def saturatingAdd (m n : Nat) : Nat := min 255 (m + n)

namespace SelfCaller

variable (C : SelfCaller W τ)

/-- The input with an answer and the corrective prompt. -/
def revise (input : OrchInput) (text : String) : OrchInput :=
  { input with messages := input.messages ++ [.assistant text, .user C.revisionPrompt] }

/-- The guard scores an answer. -/
def evaluate (p : Principal) (text : String) : Generator W (Act τ) TakoError ι Rat :=
  .call (C.confidence.evaluate p text) fun r => .evaluate p text r

/-- The guard's hook for a part of an answer. -/
def evaluateStreaming (p : Principal) (text : String) :
    Generator W (Act τ) TakoError ι (Option Rat) :=
  .call (C.confidence.evaluateStreaming p text) fun r => .evaluateStreaming p text r

/-! ## `run` -/

/-- The iterations from `offset` on, `n` of them. -/
def runFrom (p : Principal) (start : Nat) :
    Nat → Nat → OrchInput → Option OrchOutput → Generator W (Act τ) TakoError Empty OrchOutput
  | 0, _, _, some out => pure out
  | 0, _, _, none => .fail (.invalid "SelfCaller: no output produced")
  | n + 1, offset, input, _ => do
    let q := bumpedPrincipal p (saturatingAdd start offset)
    .emit (.inner q input)
    let out ← (C.inner.run q input).relabel .within
    let conf ← C.evaluate q out.text
    if C.minConfidence ≤ conf || C.maxDepth.toNat ≤ offset then pure out
    else runFrom p start n (offset + 1) (C.revise input out.text) (some out)

def run (p : Principal) (input : OrchInput) : Generator W (Act τ) TakoError Empty OrchOutput :=
  C.runFrom p (readDepth p) (C.maxDepth.toNat + 1) 0 input none

/-! ## `stream` -/

/-- How the loop over the inner stream ends: the guard is confident early, or the stream is over and
had this `Final`. -/
inductive Consumed where
  | early (score : Rat) (accumulated : String)
  | ended (captured : Option OrchOutput)

/-- The loop over the inner stream. A `Final` is withheld. -/
def consume (p : Principal) :
    Generator W (Act τ) TakoError OrchEvent Unit → String → Option OrchOutput →
      Generator W (Act τ) TakoError OrchEvent Consumed
  | .done (), _, captured => pure (.ended captured)
  | .fail e, _, _ => .fail e
  | .act step rest, accumulated, captured =>
    .act (fun w => (.within (step w).1, (step w).2)) fun w => consume p (rest w) accumulated captured
  | .item (.final output) rest, accumulated, _ => consume p rest accumulated (some output)
  | .item (.assistantText step delta) rest, accumulated, captured =>
    .item (.assistantText step delta) do
      match ← C.evaluateStreaming p (accumulated ++ delta) with
      | some score =>
        if C.minConfidence ≤ score then pure (.early score (accumulated ++ delta))
        else consume p rest (accumulated ++ delta) captured
      | none => consume p rest (accumulated ++ delta) captured
  | .item e rest, accumulated, captured => .item e (consume p rest accumulated captured)

/-- The iterations from `offset` on, `n` of them. -/
def streamFrom (p : Principal) (start : Nat) :
    Nat → Nat → OrchInput → Option OrchOutput → Generator W (Act τ) TakoError OrchEvent Unit
  | 0, _, _, some out => .yield (.final out)
  | 0, _, _, none => .fail (.invalid "SelfCaller: stream produced no output")
  | n + 1, offset, input, _ => do
    let depth := saturatingAdd start offset
    let q := bumpedPrincipal p depth
    .emit (.inner q input)
    match ← C.consume q (C.inner.stream q input) "" none with
    | .early score accumulated =>
      .yield (.recursion depth score)
      .yield (.final ⟨accumulated, .assistant accumulated, {}, 1⟩)
    | .ended none => .fail (.invalid "SelfCaller: inner stream ended without Final event")
    | .ended (some out) =>
      let conf ← C.evaluate q out.text
      .yield (.recursion depth conf)
      if C.minConfidence ≤ conf || C.maxDepth.toNat ≤ offset then .yield (.final out)
      else streamFrom p start n (offset + 1) (C.revise input out.text) (some out)

def stream (p : Principal) (input : OrchInput) : Generator W (Act τ) TakoError OrchEvent Unit :=
  C.streamFrom p (readDepth p) (C.maxDepth.toNat + 1) 0 input none

def toOrchestrator : Orchestrator W (Act τ) where
  run := C.run
  stream := C.stream

end SelfCaller

end Tako.Orchestrator
