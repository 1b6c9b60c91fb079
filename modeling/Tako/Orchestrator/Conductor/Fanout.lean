import Tako.Orchestrator.Trinity
import Tako.Orchestrator.Conductor.Basic

/-!
# The fan-out of `Conductor`

The tasks that carry out one plan run concurrently, up to a number of them at a time. A task goes
from one point where it waits to the next, `Task.step`. In `run` the results are joined in dispatch
order. In `stream` the tasks send what they receive, and at last their result, through one channel;
the conductor takes one message after the other and puts the results into slots. `Fanout.move` lets
one task, or the conductor, do one step, so that a list of moves is an order in which all of this
happens.

The channel's capacity is left out: a full channel delays a task, which may time out before it has
sent what it took (`Move.timeOutSending`).
-/

namespace Tako.Orchestrator

open Traced

variable {W : Type}

/-- Who acts. -/
inductive Party where
  | conductor
  | worker (branch : Nat)
  deriving DecidableEq

/-- A run fails with an error, or panics. -/
inductive Failure where
  | error (e : TakoError)
  | panic

/-- The computations of a conductor. -/
abbrev CM (W : Type) := Traced W (Party × Act W) Failure

/-- What the conductor itself does. -/
def byConductor (x : M W α) : CM W α := x.embed (Party.conductor, ·) .error

/-! ## Tasks -/

inductive WorkerStreamEvent where
  | delta (branch : Nat) (cumulative : String)
  | done (branch : Nat) (result : WorkerResult)

/-- Where a worker's task waits: for its permit, for the budget's check, for its stream to start,
for the next chunk, for the answer of `chat`, for the budget's record, to send its result. -/
inductive Task where
  | waiting
  | checking
  | opening
  | receiving (chunks : List (Result ChatChunk)) (text : String)
  | calling
  | recording (usage : Usage) (outcome : Except String String)
  | ended (outcome : Except String String)
  | reported (outcome : Except String String)
  | panicked

namespace Task

/-- The task is over. -/
def isOver : Task → Bool
  | .reported _ | .panicked => true
  | _ => false

/-- The task has a permit of the semaphore. -/
def holdsPermit : Task → Bool
  | .checking | .opening | .receiving _ _ | .calling | .recording _ _ => true
  | _ => false

/-- The task is inside a provider's call. -/
def inCall : Task → Bool
  | .opening | .receiving _ _ | .calling => true
  | _ => false

/-- The time limit is on. It does not cover the start of a stream. -/
def isTimed : Task → Bool
  | .receiving _ _ | .calling => true
  | _ => false

end Task

/-- One fan-out: `stream` has the streaming one. -/
structure Fanout (W : Type) where
  conductor : Conductor W
  principal : Principal
  streaming : Bool
  step : Nat
  plan : List WorkerDispatch

namespace Fanout

variable (F : Fanout W)

def workerRequest (provider : LlmProvider W) (task : String) : ChatRequest :=
  .new (modelOf provider.id) [.user task]

/-- The text of an error in a worker's outcome. -/
def failure (e : TakoError) : Except String String :=
  .error (e.display F.conductor.codec.debugDuration)

/-- After the budget's check: a stream is tried only in `stream`. -/
def call (provider : LlmProvider W) : Task :=
  if F.streaming && provider.capabilities.supportsStreaming then .opening else .calling

/-- The next step of the task for `d`, with what it sends. A worker's request that does not start to
stream is sent again to `chat`. -/
def taskStep (branch : Nat) (d : WorkerDispatch) :
    Option (Worker W) → Task → M W (Task × List WorkerStreamEvent)
  | none, .waiting => pure (.ended (.error s!"unknown worker `{d.worker}`"), [])
  | some _, .waiting => pure (.checking, [])
  | some worker, .checking => do
    let req := workerRequest worker.provider d.task
    match ← (preCheck F.conductor.budget F.principal (worker.provider.estimateCostUsd req)
      (req.maxTokens.getD 0)).attempt with
    | .ok () => pure (F.call worker.provider, [])
    | .error e => pure (.ended (F.failure e), [])
  | some worker, .opening => do
    let req := { workerRequest worker.provider d.task with stream := true }
    match ← (stream worker.provider F.principal req).attempt with
    | .ok chunks => pure (.receiving chunks "", [])
    | .error _ => pure (.calling, [])
  | some _, .receiving [] text => do
    .emit (.next none)
    pure (.recording {} (workerOutcome .stop text), [])
  | some _, .receiving (chunk :: chunks) text => do
    .emit (.next (some chunk))
    match chunk with
    | .ok (.delta (some t) _) =>
      if t = "" then pure (.receiving chunks text, [])
      else pure (.receiving chunks (text ++ t), [.delta branch (text ++ t)])
    | .ok (.delta none _) => pure (.receiving chunks text, [])
    | .ok (.end finishReason usage) =>
      pure (.recording usage (workerOutcome finishReason text), [])
    | .ok (.error message) => pure (.ended (.error s!"stream error: {message}"), [])
    | .error e => pure (.ended (F.failure e), [])
  | some worker, .calling => do
    match ← (chat worker.provider F.principal (workerRequest worker.provider d.task)).attempt with
    | .ok resp =>
      pure (.recording resp.usage (workerOutcome resp.finishReason resp.message.text), [])
    | .error e => pure (.ended (F.failure e), [])
  | some worker, .recording usage outcome => do
    let req := workerRequest worker.provider d.task
    match ← (record F.conductor.budget F.principal (worker.provider.estimateCostUsd req)
      usage).attempt with
    | .ok () => pure (.ended outcome, [])
    | .error e => pure (.ended (F.failure e), [])
  | _, .ended outcome =>
    pure (.reported outcome,
      if F.streaming then [.done branch ⟨d.worker, d.task, outcome⟩] else [])
  | _, task => pure (task, [])

/-! ## The fan-out -/

/-- A fan-out under way: the tasks in dispatch order, the messages sent and not yet taken, the
results taken, and the error of a verifier that ended the stream. -/
structure State (W : Type) where
  world : W
  trace : List (Party × Act W) := []
  tasks : List Task
  channel : List WorkerStreamEvent := []
  slots : List (Option WorkerResult)
  received : Nat := 0
  failed : Option TakoError := none

inductive Move where
  | run (i : Nat)
  | timeOut (i : Nat)
  | timeOutSending (i : Nat)
  | panic (i : Nat)
  | receive

def start (w : W) : State W where
  world := w
  tasks := F.plan.map fun _ => .waiting
  slots := F.plan.map fun _ => none

/-- Fewer tasks than allowed hold a permit. -/
def permitFree (f : State W) : Bool := f.tasks.countP Task.holdsPermit < F.conductor.maxFanout

/-- Task `i` takes a step. Without a permit it waits, unless its worker is unknown. -/
def runTask (i : Nat) (f : State W) : Option (State W) := do
  let task ← f.tasks[i]?
  let d ← F.plan[i]?
  let worker := F.conductor.worker? d.worker
  match task, worker with
  | .reported _, _ | .panicked, _ => none
  | .waiting, some _ => if F.permitFree f then some (after task d worker) else none
  | _, _ => some (after task d worker)
where
  after (task : Task) (d : WorkerDispatch) (worker : Option (Worker W)) : State W :=
    let o := (F.taskStep (i + 1) d worker task).run f.world
    match o.result with
    | .ok (task, sent) =>
      { f with
        world := o.world
        trace := f.trace ++ o.trace.map (Party.worker (i + 1), ·)
        tasks := f.tasks.set i task
        channel := f.channel ++ sent }
    | .error _ => f

/-- Task `i` is cut off in a call. -/
def interrupt (mayInterrupt : Worker W → Task → Bool) (next : Task) (i : Nat) (f : State W) :
    Option (State W) := do
  let task ← f.tasks[i]?
  let d ← F.plan[i]?
  let worker ← F.conductor.worker? d.worker
  if mayInterrupt worker task then some { f with tasks := f.tasks.set i next } else none

/-- Task `i` has taken a text and is cut off before it has sent it. -/
def interruptSending (next : Task) (i : Nat) (f : State W) : Option (State W) := do
  let task ← f.tasks[i]?
  let d ← F.plan[i]?
  let worker ← F.conductor.worker? d.worker
  match task with
  | .receiving (.ok (.delta (some t) calls) :: _) _ =>
    if worker.mayTimeOut && t != "" then
      some { f with
        trace := f.trace ++ [(.worker (i + 1), .next (some (.ok (.delta (some t) calls))))]
        tasks := f.tasks.set i next }
    else none
  | _ => none

/-- The verifier's hook for what a worker has received. -/
def scoreDelta (branch : Nat) (cumulative : String) : M W Unit :=
  match F.conductor.verifier with
  | none => pure ()
  | some v => do
    match ← evaluateStreaming v F.principal cumulative with
    | some score => yield (.verifierScore F.step branch (clampUnit score))
    | none => pure ()

/-- The conductor takes a message, until it has all results. -/
def receive (f : State W) : Option (State W) :=
  if f.failed.isSome || f.received = F.plan.length then none
  else
    match f.channel with
    | [] => none
    | .delta branch cumulative :: channel =>
      let o := (F.scoreDelta branch cumulative).run f.world
      some { f with
        world := o.world
        trace := f.trace ++ o.trace.map (Party.conductor, ·)
        channel
        failed := match o.result with
          | .ok () => none
          | .error e => some e }
    | .done branch result :: channel =>
      some { f with
        channel, slots := f.slots.set (branch - 1) (some result), received := f.received + 1 }

def move (f : State W) : Move → Option (State W)
  | .run i => F.runTask i f
  | .timeOut i =>
    F.interrupt (fun worker task => worker.mayTimeOut && task.isTimed)
      (.ended (.error s!"worker timed out after {limit}")) i f
  | .timeOutSending i =>
    F.interruptSending (.ended (.error s!"worker timed out after {limit}")) i f
  | .panic i => F.interrupt (fun worker task => worker.mayPanic && task.inCall) .panicked i f
  | .receive => F.receive f
where
  limit := F.conductor.codec.debugDuration F.conductor.workerTimeout

/-- The moves in order; one that is not possible is passed over. -/
def play (f : State W) (moves : List Move) : State W :=
  moves.foldl (fun f m => (F.move f m).getD f) f

/-- The fan-out has come to its end: all tasks are over and the conductor waits for no message, or
its verifier has failed. -/
def Complete (f : State W) : Prop :=
  f.failed.isSome ∨
    (∀ task ∈ f.tasks, task.isOver) ∧ (f.received = F.plan.length ∨ f.channel = [])

/-- What the joined tasks are worth, in dispatch order. -/
def joined (f : State W) : List WorkerResult :=
  (f.tasks.zip F.plan).zipIdx.map fun ((task, d), i) =>
    match task with
    | .reported outcome => ⟨d.worker, d.task, outcome⟩
    | _ => ⟨"<join>", "", .error s!"join error: {F.conductor.codec.joinError (i + 1)}"⟩

/-- What the conductor has received, in dispatch order. -/
def collected (f : State W) : List WorkerResult := f.slots.filterMap id

end Fanout

/-! ## Schedules -/

/-- The order of each fan-out, as the runtime chooses it: by step, plan and world. -/
abbrev Schedule (W : Type) := Nat → List WorkerDispatch → W → List Fanout.Move

namespace Conductor

variable (C : Conductor W) (p : Principal) (S : Schedule W)

def fanout (streaming : Bool) (step : Nat) (plan : List WorkerDispatch) : Fanout W where
  conductor := C
  principal := p
  streaming
  step
  plan

/-- The fan-out of a plan in the order of the schedule. -/
def played (streaming : Bool) (step : Nat) (plan : List WorkerDispatch) (w : W) :
    Fanout.State W :=
  let F := C.fanout p streaming step plan
  F.play (F.start w) (S step plan w)

/-- The runtime brings every fan-out to its end. -/
def Fair (streaming : Bool) : Prop :=
  ∀ step plan w, (C.fanout p streaming step plan).Complete (C.played p S streaming step plan w)

/-- `dispatch_workers_static`. -/
def dispatchWorkersStatic (step : Nat) (plan : List WorkerDispatch) : CM W (List WorkerResult) :=
  ⟨fun w =>
    let f := C.played p S false step plan w
    ⟨.ok ((C.fanout p false step plan).joined f), f.world, f.trace⟩⟩

/-- `dispatch_workers_streaming`, with the loop that receives from it. -/
def dispatchWorkersStreaming (step : Nat) (plan : List WorkerDispatch) :
    CM W (List WorkerResult) :=
  ⟨fun w =>
    let f := C.played p S true step plan w
    let result := match f.failed with
      | none => .ok (Fanout.collected f)
      | some e => .error (.error e)
    ⟨result, f.world, f.trace⟩⟩

end Conductor

end Tako.Orchestrator
