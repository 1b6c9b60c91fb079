import Tako.Orchestrator.Trinity

/-!
# `AbMcts`

A tree search whose rollouts are agent loops (`tako-orchestrator/src/ab_mcts.rs`). The nodes live in
a vector and refer to their children by index. Each iteration descends from the root by sampling,
expands the node where it stops by one rollout and adds the rollout's score to every node on the
path.

Scores and the Beta parameters are exact rationals. The sampler is a parameter over the generator's
state `G`, and its samples are finite. In `stream` a rollout's events pass through a channel in
order; here they are yielded at once.
-/

namespace Tako.Orchestrator

variable {W G : Type}

/-! ## Nodes -/

/-- The prior is `Beta(1, 1)`. -/
structure Node where
  messages : List Message
  alpha : Rat := 1
  beta : Rat := 1
  children : List Nat := []
  outputText : Option String := none
  outputMessage : Option Message := none
  rolloutSteps : Nat := 0

/-- `nodes[i]`. No index that the search uses is out of bounds. -/
def nodeAt (nodes : List Node) (i : Nat) : Node := nodes[i]?.getD { messages := [] }

/-- The leaf is pushed, then its index to its parent's children. -/
def insertLeaf (nodes : List Node) (parent : Nat) (leaf : Node) : List Node :=
  (nodes ++ [leaf]).modify parent fun node =>
    { node with children := node.children ++ [nodes.length] }

def backPropagate (score : Rat) (path : List Nat) (nodes : List Node) : List Node :=
  path.foldl (fun nodes n => nodes.modify n fun node =>
    { node with alpha := node.alpha + score, beta := node.beta + (1 - score) }) nodes

/-- What the search keeps between iterations. -/
structure Search (G : Type) where
  nodes : List Node
  rng : G
  bestLeaf : Option Nat := none
  bestScore : Rat := -1
  usage : Usage := {}

namespace Search

/-- The search before its first iteration: the root holds the prompt. -/
def start (input : OrchInput) (rng : G) : Search G :=
  { nodes := [{ messages := input.conversation }], rng }

/-- A rollout from `parent`, found on `path`, has ended with the output and the score. -/
def update (s : Search G) (rng : G) (parent : Nat) (path : List Nat) (output : OrchOutput)
    (score : Rat) : Search G where
  nodes :=
    let leaf : Node :=
      { messages := (nodeAt s.nodes parent).messages ++ [output.message]
        outputText := some output.text
        outputMessage := some output.message
        rolloutSteps := output.steps }
    backPropagate score (path ++ [s.nodes.length]) (insertLeaf s.nodes parent leaf)
  rng
  bestLeaf := if s.bestScore < score then some s.nodes.length else s.bestLeaf
  bestScore := if s.bestScore < score then score else s.bestScore
  usage := s.usage.add output.usage

/-- The output of a search is that of its best leaf. -/
def output (s : Search G) : Result OrchOutput :=
  match s.bestLeaf with
  | none =>
    .error (.invalid "AbMcts: no rollout completed (try increasing max_iterations)")
  | some leaf =>
    let node := nodeAt s.nodes leaf
    .ok {
      text := node.outputText.getD ""
      message := node.outputMessage.getD (.assistant "")
      usage := s.usage
      steps := node.rolloutSteps }

end Search

/-! ## The search -/

structure AbMcts (W G : Type) where
  codec : Codec
  provider : LlmProvider W
  candidates : List (LlmProvider W) := []
  router : Option (Router W) := none
  verifier : Verifier W
  tools : ToolRegistry W
  policy : Option (PolicyEngine W) := none
  maxTokens : Option UInt32 := none
  maxIterations : StepLimit
  branchingFactor : UInt32
  maxStepsPerRollout : StepLimit
  temperature : Rat
  minConfidence : Rat
  sampleBeta : Rat → Rat → G → Rat × G

namespace AbMcts

variable (A : AbMcts W G)

/-- `if s > best_child_sample`, which starts below every sample. -/
def keepBest (c : Nat) (sample : Rat) : Option (Nat × Rat) → Option (Nat × Rat)
  | none => some (c, sample)
  | some (b, bestSample) => if bestSample < sample then some (c, sample) else some (b, bestSample)

/-- The children's samples, in order: the best child so far with its sample. -/
def sampleChildren (nodes : List Node) :
    List Nat → Option (Nat × Rat) → G → Option (Nat × Rat) × G
  | [], best, g => (best, g)
  | c :: children, best, g =>
    let node := nodeAt nodes c
    let (sample, g) := A.sampleBeta node.alpha node.beta g
    sampleChildren nodes children (keepBest c sample best) g

/-- A node is expanded if it has no children, or may have more and a new child samples better. -/
def shouldExpand (node : Node) (newChildSample : Rat) : Option (Nat × Rat) → Bool
  | none => true
  | some (_, bestSample) =>
    node.children.length.toUInt32 < A.branchingFactor && bestSample < newChildSample

/-- One step of the descent: the next node, or `none` where a child is added. -/
def choose (nodes : List Node) (current : Nat) (g : G) : Option Nat × G :=
  let node := nodeAt nodes current
  let (newChildSample, g) := A.sampleBeta 1 1 g
  let (best, g) := A.sampleChildren nodes node.children none g
  (if A.shouldExpand node newChildSample best then none else best.map (·.1), g)

/-- The descent from `current`, which is the end of `path`. It is over within as many steps as there
are nodes. -/
def select (nodes : List Node) : Nat → Nat → List Nat → G → Nat × List Nat × G
  | 0, current, path, g => (current, path, g)
  | fuel + 1, current, path, g =>
    match A.choose nodes current g with
    | (none, g) => (current, path, g)
    | (some next, g) => select nodes fuel next (path ++ [next]) g

/-- The descent from the root. -/
def descend (s : Search G) : Nat × List Nat × G := A.select s.nodes s.nodes.length 0 [0] s.rng

variable (p : Principal)

/-- One iteration: selection, a rollout, its verification, back-propagation. -/
def iterateWith (prompt : String) (rollout : Nat → List Message → M W OrchOutput)
    (scored : Nat → Rat → M W Unit) (s : Search G) : M W (Search G) := do
  let (parent, path, rng) := A.descend s
  let output ← rollout s.nodes.length (nodeAt s.nodes parent).messages
  let score ← score A.verifier p prompt output.text
  scored s.nodes.length (clampUnit score)
  pure (s.update rng parent path output (clampUnit score))

/-- The iterations from `i` on, until one reaches the wanted confidence. -/
def iterations (iterate : Nat → Search G → M W (Search G)) : Nat → Nat → Search G → M W (Search G)
  | 0, _, s => pure s
  | n + 1, i, s => do
    let s ← iterate i s
    if A.minConfidence ≤ s.bestScore then pure s else iterations iterate n (i + 1) s

/-! ## Rollouts -/

/-- `pick_rollout_provider`: a router is asked also if there are no candidates. -/
def pickRolloutProvider (messages : List Message) : M W (LlmProvider W) :=
  match A.router with
  | none => pure A.provider
  | some router => do
    let pool := A.provider :: A.candidates
    let decision ← route router p (.new "router" messages) (pool.map (·.id))
    match pool.find? (·.id = decision.providerId) with
    | some provider => pure provider
    | none => .throw (.invalid
        s!"AbMcts router returned unknown provider id: {decision.providerId}")

/-- A rollout is an agent loop with one provider and no budget. -/
def rolloutLoop (picked : LlmProvider W) : Loop W Unit where
  codec := A.codec
  principal := p
  pick _ := pure ((), picked)
  tools := A.tools
  policy := A.policy
  budget := none
  defaults := { temperature := some A.temperature, maxTokens := A.maxTokens }
  maxSteps := A.maxStepsPerRollout

def rollout (messages : List Message) : M W OrchOutput := do
  let picked ← A.pickRolloutProvider p messages
  (A.rolloutLoop p picked).run messages

/-- What `rollout_static_streaming` sends. The verifier sees the text of the whole rollout so
far. -/
def rolloutHooks (iteration branch : Nat) : Hooks W Unit String where
  streams _ := true
  turnStart _ := pure ()
  onText _ _ cumulative delta _ := do
    yield (.assistantText iteration delta)
    match ← evaluateStreaming A.verifier p (cumulative ++ delta) with
    | some score => yield (.verifierScore iteration branch (clampUnit score))
    | none => pure ()
    pure (cumulative ++ delta)
  onChat _ _ cumulative text := do
    yield (.assistantText iteration text)
    pure (cumulative ++ text)
  onTurn _ _ _ := pure ()
  toolEvent _ := pure ()

/-- The rollout of `stream`: streamed if the provider can. -/
def rolloutStreaming (iteration branch : Nat) (messages : List Message) : M W OrchOutput := do
  let picked ← A.pickRolloutProvider p messages
  if picked.capabilities.supportsStreaming then
    (A.rolloutLoop p picked).runStreaming (A.rolloutHooks p iteration branch) messages ""
  else do
    let output ← (A.rolloutLoop p picked).run messages
    if output.text ≠ "" then yield (.assistantText iteration output.text)
    pure output

/-! ## `run` and `stream` -/

def iterate (prompt : String) (_iteration : Nat) (s : Search G) : M W (Search G) :=
  A.iterateWith p prompt (fun _ messages => A.rollout p messages) (fun _ _ => pure ()) s

def iterateStreaming (prompt : String) (iteration : Nat) (s : Search G) : M W (Search G) := do
  yield (.stepStart iteration)
  A.iterateWith p prompt (A.rolloutStreaming p iteration)
    (fun branch score => yield (.verifierScore iteration branch score)) s

def search (input : OrchInput) (rng : G) : M W (Search G) :=
  A.iterations (A.iterate p input.promptText) A.maxIterations 0 (.start input rng)

def searchStreaming (input : OrchInput) (rng : G) : M W (Search G) :=
  A.iterations (A.iterateStreaming p input.promptText) A.maxIterations 0 (.start input rng)

def run (input : OrchInput) (rng : G) : M W OrchOutput := do
  let s ← A.search p input rng
  .ofExcept s.output

def stream (input : OrchInput) (rng : G) : M W Unit := do
  let s ← A.searchStreaming p input rng
  let output ← Traced.ofExcept s.output
  yield (.final output)

end AbMcts

end Tako.Orchestrator
