import Tako.Orchestrator.RunStream
import Tako.Orchestrator.Conductor.Accounts
import Tako.Orchestrator.Conductor.Events

/-!
# `Conductor::stream` does what `Conductor::run` does

Workers that answer a request with one response, as a whole or in chunks, bring the same results to
the coordinator in any order in which they finish (`Fanout.Steady.complete`). So the rounds of the
two runs agree, and the runs with them.

As in the other orchestrators the two runs start in related worlds. What a worker's call leaves in
the world is not seen by anyone else.
-/

namespace Tako.Orchestrator

open Traced

variable {W : Type}

/-- The chunks of a response: its text in pieces, then its end. -/
def TextChunks (resp : ChatResponse) (chunks : List (Result ChatChunk)) : Prop :=
  ∃ ds rest, chunks = deltaChunks ds ++ .ok (.end resp.finishReason resp.usage) :: rest ∧
    deltaText ds = resp.message.text

/-- The requests to the coordinator. -/
def coordinatorRequest : Party × Act W → Option ChatRequest
  | (.conductor, .chat _ req _) => some req
  | _ => none

theorem filterMap_coordinatorRequest_worker (branch : Nat) (l : List (Act W)) :
    (l.map (Party.worker branch, ·)).filterMap coordinatorRequest = [] := by
  rw [List.filterMap_map, List.filterMap_eq_nil_iff]
  exact fun _ _ => rfl

/-! ## One fan-out -/

/-- A task is on its way to the outcome of a response. -/
def Task.Heads (streams : Prop) (resp : ChatResponse) (outcome : Except String String) :
    Task → Prop
  | .waiting | .checking | .calling => True
  | .opening => streams
  | .receiving chunks text => streams ∧ ∃ ds rest,
    chunks = deltaChunks ds ++ .ok (.end resp.finishReason resp.usage) :: rest ∧
      text ++ deltaText ds = resp.message.text
  | .recording _ o | .ended o | .reported o => o = outcome
  | .panicked => False

namespace Fanout

variable {F : Fanout W} {J : W → Prop} {reply : WorkerDispatch → ChatResponse}

/-- In the worlds `J`, which no call leaves, the workers of the plan give their replies, in full and
in chunks if a stream starts, and are not cut off. The verifier does not fail. -/
structure Steady (F : Fanout W) (J : W → Prop) (reply : WorkerDispatch → ChatResponse) : Prop where
  budget : F.conductor.budget = none
  mayTimeOut : ∀ d ∈ F.plan, ∀ worker ∈ F.conductor.worker? d.worker, worker.mayTimeOut = false
  mayPanic : ∀ d ∈ F.plan, ∀ worker ∈ F.conductor.worker? d.worker, worker.mayPanic = false
  chat : ∀ d ∈ F.plan, ∀ worker ∈ F.conductor.worker? d.worker, ∀ w, J w →
    (worker.provider.chat F.principal (workerRequest worker.provider d.task) w).1 = .ok (reply d) ∧
      J (worker.provider.chat F.principal (workerRequest worker.provider d.task) w).2
  stream : F.streaming = true → ∀ d ∈ F.plan, ∀ worker ∈ F.conductor.worker? d.worker,
    worker.provider.capabilities.supportsStreaming = true → ∀ w, J w →
    (∀ chunks, (worker.provider.stream F.principal
      { workerRequest worker.provider d.task with stream := true } w).1 = .ok chunks →
        TextChunks (reply d) chunks) ∧
      J (worker.provider.stream F.principal
        { workerRequest worker.provider d.task with stream := true } w).2
  verifier : F.streaming = true → ∀ v ∈ F.conductor.verifier, ∀ text w, J w →
    (∃ s, (v.evaluateStreaming F.principal text w).1 = .ok s) ∧
      J (v.evaluateStreaming F.principal text w).2

/-- The outcome that a dispatch comes to. -/
def outcome (F : Fanout W) (reply : WorkerDispatch → ChatResponse) (d : WorkerDispatch) :
    Except String String :=
  match F.conductor.worker? d.worker with
  | none => .error s!"unknown worker `{d.worker}`"
  | some _ => workerOutcome (reply d).finishReason (reply d).message.text

theorem outcome_of_worker (F : Fanout W) (reply : WorkerDispatch → ChatResponse)
    (hworker : F.conductor.worker? d.worker = some worker) :
    F.outcome reply d = workerOutcome (reply d).finishReason (reply d).message.text := by
  rw [outcome, hworker]

/-- The task for `d` is on its way. A stream is opened only in `stream`. -/
abbrev Heads (F : Fanout W) (reply : WorkerDispatch → ChatResponse) (d : WorkerDispatch)
    (task : Task) : Prop :=
  task.Heads
    (F.streaming = true ∧ ∀ worker ∈ F.conductor.worker? d.worker,
      worker.provider.capabilities.supportsStreaming = true)
    (reply d) (F.outcome reply d)

/-- A step of the task for `d` keeps it on its way, in a world of `J`. Only `stream` is told of
it. -/
abbrev StepHeads (F : Fanout W) (J : W → Prop) (reply : WorkerDispatch → ChatResponse)
    (d : WorkerDispatch) (x : M W (Task × List WorkerStreamEvent)) : Prop :=
  Silent (fun _ => J) (fun _ => (none : Option Unit))
    (fun a => F.Heads reply d a.1 ∧ (F.streaming = false → a.2 = [])) x

theorem receiving_heads (F : Fanout W) (branch : Nat) {d : WorkerDispatch} {worker : Worker W}
    (hworker : F.conductor.worker? d.worker = some worker)
    (h : F.Heads reply d (.receiving chunks text)) :
    F.StepHeads J reply d (F.taskStep branch d (some worker) (.receiving chunks text)) := by
  obtain ⟨hstreams, ds, rest, rfl, htext⟩ := h
  have hquiet (events : List WorkerStreamEvent) (hs : F.streaming = false) : events = [] := by
    rw [hstreams.1] at hs
    cases hs
  cases ds with
  | nil =>
    refine .bind (.emit rfl) fun _ _ => .pure ⟨?_, hquiet _⟩
    have htext : text = (reply d).message.text := by simpa [deltaText] using htext
    rw [Heads, Task.Heads, F.outcome_of_worker reply hworker, htext]
  | cons delta ds =>
    obtain ⟨t, calls⟩ := delta
    refine .bind (.emit rfl) fun _ _ => ?_
    cases t with
    | none =>
      exact .pure ⟨⟨hstreams, ds, rest, rfl, by simpa [deltaText] using htext⟩, hquiet _⟩
    | some t =>
      dsimp only
      split
      · next ht =>
        exact .pure ⟨⟨hstreams, ds, rest, rfl, by simpa [deltaText, ht] using htext⟩, hquiet _⟩
      · exact .pure ⟨⟨hstreams, ds, rest, rfl,
          by simpa [deltaText, String.append_assoc] using htext⟩, hquiet _⟩

theorem call_heads (F : Fanout W) (hworker : F.conductor.worker? d.worker = some worker) :
    F.Heads reply d (F.call worker.provider) := by
  unfold call
  split
  · next h =>
    obtain ⟨hs, hstreams⟩ := Bool.and_eq_true_iff.1 h
    refine ⟨hs, fun worker' hworker' => ?_⟩
    obtain rfl : worker = worker' := Option.some.inj (hworker.symm.trans hworker')
    exact hstreams
  · trivial

theorem taskStep_heads (hF : F.Steady J reply) (branch : Nat) (hd : d ∈ F.plan) {task : Task}
    (h : F.Heads reply d task) :
    F.StepHeads J reply d (F.taskStep branch d (F.conductor.worker? d.worker) task) := by
  have quiet (hs : F.streaming = false) (event : WorkerStreamEvent) :
      (if F.streaming then [event] else []) = [] := by
    rw [hs]
    rfl
  cases hworker : F.conductor.worker? d.worker with
  | none =>
    cases task with
    | waiting => exact .pure ⟨by rw [Heads, Task.Heads, outcome, hworker], fun _ => rfl⟩
    | ended o => exact .pure ⟨h, fun hs => quiet hs _⟩
    | _ => exact .pure ⟨h, fun _ => rfl⟩
  | some worker =>
    cases task with
    | waiting => exact .pure ⟨trivial, fun _ => rfl⟩
    | checking =>
      unfold taskStep
      rw [hF.budget]
      refine .bind (.attempt (P := fun _ => True) (.pure trivial)) ?_
      rintro r ⟨_, rfl, -⟩
      exact .pure ⟨call_heads F hworker, fun _ => rfl⟩
    | opening =>
      have hstream (w : W) (hw : J w) :=
        hF.stream h.1 d hd worker hworker (h.2 worker hworker) w hw
      refine .bind (P := fun r : Result (List (Result ChatChunk)) =>
        ∀ chunks, r = .ok chunks → TextChunks (reply d) chunks)
        (fun _ w hw => ⟨⟨_, rfl, (hstream w hw).1⟩, (hstream w hw).2, rfl⟩) fun r hr => ?_
      cases r with
      | ok chunks =>
        obtain ⟨ds, rest, hchunks, htext⟩ := hr chunks rfl
        exact .pure ⟨⟨h, ds, rest, hchunks, by rw [String.empty_append, htext]⟩, fun _ => rfl⟩
      | error e => exact .pure ⟨trivial, fun _ => rfl⟩
    | receiving chunks text => exact receiving_heads F branch hworker h
    | calling =>
      refine .bind (.attempt (P := (· = reply d)) (.call (fun _ w hw => ?_) fun _ _ => rfl)) ?_
      · obtain ⟨hr, hJ⟩ := hF.chat d hd worker hworker w hw
        exact ⟨⟨_, hr, rfl⟩, hJ⟩
      · rintro r ⟨_, rfl, rfl⟩
        refine .pure ⟨?_, fun _ => rfl⟩
        rw [Heads, Task.Heads, F.outcome_of_worker reply hworker]
    | recording usage outcome =>
      unfold taskStep
      rw [hF.budget]
      refine .bind (.attempt (P := fun _ => True) (.pure trivial)) ?_
      rintro r ⟨_, rfl, -⟩
      exact .pure ⟨h, fun _ => rfl⟩
    | ended o => exact .pure ⟨h, fun hs => quiet hs _⟩
    | reported o => exact .pure ⟨h, fun _ => rfl⟩
    | panicked => exact h.elim

theorem scoreDelta_silent (hF : F.Steady J reply) (hs : F.streaming = true) (branch : Nat) (text : String) :
    Silent (fun _ => J) (fun t => coordinatorRequest (.conductor, t)) (fun _ => True)
      (F.scoreDelta branch text) := by
  unfold scoreDelta
  split
  · exact .pure trivial
  · next v hv =>
    refine .bind (P := fun _ => True) (.call (fun _ w hw => ?_) fun _ _ => rfl) fun score _ => ?_
    · obtain ⟨⟨s, hs⟩, hJ⟩ := hF.verifier hs v hv text w hw
      exact ⟨⟨s, hs, trivial⟩, hJ⟩
    · split
      · exact .emit rfl
      · exact .pure trivial

/-- All tasks are on their way, and the coordinator was not asked. -/
structure OnTrack (F : Fanout W) (J : W → Prop) (reply : WorkerDispatch → ChatResponse)
    (f : State W) : Prop where
  world : J f.world
  trace : f.trace.filterMap coordinatorRequest = []
  heads : ∀ (i : Nat) (task : Task) (d : WorkerDispatch), f.tasks[i]? = some task →
    F.plan[i]? = some d → F.Heads reply d task
  channel : F.streaming = false → f.channel = []
  failed : f.failed = none

theorem onTrack_start (F : Fanout W) (reply : WorkerDispatch → ChatResponse) (hw : J w) :
    F.OnTrack J reply (F.start w) where
  world := hw
  trace := rfl
  heads i task d hi _ := by
    simp only [start, List.getElem?_map, Option.map_eq_some_iff] at hi
    obtain ⟨_, -, rfl⟩ := hi
    trivial
  channel _ := rfl
  failed := rfl

theorem streaming_of_channel (hf : F.OnTrack J reply f) (hchannel : f.channel = event :: rest) :
    F.streaming = true := by
  cases hs : F.streaming with
  | true => rfl
  | false =>
    rw [hf.channel hs] at hchannel
    cases hchannel

theorem OnTrack.moved (hF : F.Steady J reply) (hf : F.OnTrack J reply f) (h : Moved F f f') :
    F.OnTrack J reply f' := by
  cases h with
  | @ran i task d task' events w l hi hd hover _ hstep =>
    have hmem := List.mem_of_getElem? hd
    obtain ⟨⟨a, ha, hheads, hquiet⟩, hJ, -⟩ :=
      taskStep_heads hF (i + 1) hmem (hf.heads i task d hi hd) f.world f.world hf.world
    rw [hstep] at ha hJ
    cases ha
    refine ⟨hJ, ?_, fun j taskj dj hj hdj => ?_, fun hs => ?_, hf.failed⟩
    · rw [List.filterMap_append, hf.trace, filterMap_coordinatorRequest_worker, List.append_nil]
    · rw [List.getElem?_set] at hj
      split at hj
      · next hij =>
        subst hij
        split at hj
        · cases hj
          cases hd.symm.trans hdj
          exact hheads
        · cases hj
      · exact hf.heads j taskj dj hj hdj
    · rw [hf.channel hs]
      exact hquiet hs
  | timedOut hi hd hworker hmay _ | timedOutSending hi hd hworker hmay _ =>
    rw [hF.mayTimeOut _ (List.mem_of_getElem? hd) _ hworker] at hmay
    cases hmay
  | panicked hi hd hworker hmay _ =>
    rw [hF.mayPanic _ (List.mem_of_getElem? hd) _ hworker] at hmay
    cases hmay
  | delta _ _ hchannel hscore =>
    have hs : F.streaming = true := streaming_of_channel hf hchannel
    obtain ⟨⟨_, hr, -⟩, hJ, htrace⟩ := scoreDelta_silent hF hs _ _ f.world f.world hf.world
    rw [hscore] at hr hJ htrace
    cases hr
    refine ⟨hJ, ?_, hf.heads, fun h => (nomatch h.symm.trans hs), rfl⟩
    rw [List.filterMap_append, hf.trace, List.filterMap_map, List.nil_append]
    exact htrace
  | done _ _ hchannel =>
    have hs : F.streaming = true := streaming_of_channel hf hchannel
    exact ⟨hf.world, hf.trace, hf.heads, fun h => (nomatch h.symm.trans hs), hf.failed⟩

theorem onTrack_play (hF : F.Steady J reply) (hw : J w) (moves : List Move) :
    F.OnTrack J reply (F.play (F.start w) moves) :=
  play_induction (fun _ _ => OnTrack.moved hF) (onTrack_start F reply hw) moves

/-- The result that a dispatch comes to. -/
def result (F : Fanout W) (reply : WorkerDispatch → ChatResponse) (d : WorkerDispatch) :
    WorkerResult :=
  ⟨d.worker, d.task, F.outcome reply d⟩

/-- At the end of a fan-out every task has reported its outcome. -/
theorem OnTrack.reported {i : Nat} {d : WorkerDispatch} (hf : F.OnTrack J reply f) (hc : F.Complete f)
    (hi : f.tasks[i]? = some task) (hd : F.plan[i]? = some d) :
    task = Task.reported (F.outcome reply d) := by
  have hall : ∀ task ∈ f.tasks, task.isOver = true := by
    rcases hc with hc | ⟨hall, -⟩
    · rw [hf.failed] at hc
      cases hc
    · exact hall
  have hheads := hf.heads i task d hi hd
  rcases Task.isOver_cases (hall task (List.mem_of_getElem? hi)) with ⟨o, rfl⟩ | rfl
  · exact congrArg Task.reported hheads
  · exact hheads.elim

theorem joined_eq (hf : F.OnTrack J reply f) (ha : F.Accounted f) (hc : F.Complete f) :
    F.joined f = F.plan.map (F.result reply) := by
  have hlength : (F.joined f).length = F.plan.length := by simp [joined, ha.tasks]
  refine List.ext_getElem (by simp [hlength]) fun i hi hi' => ?_
  have hplan : i < F.plan.length := hlength ▸ hi
  have htask := hf.reported hc (List.getElem?_eq_getElem (ha.tasks.symm ▸ hplan))
    (List.getElem?_eq_getElem hplan)
  simp [joined, htask, result]

theorem collected_eq (hf : F.OnTrack J reply f) (ha : F.Accounted f) (hs : F.streaming = true)
    (hc : F.Complete f) : collected f = F.plan.map (F.result reply) := by
  have hslots : f.slots = F.plan.map fun d => some (F.result reply d) := by
    refine List.ext_getElem (by simp [ha.slots]) fun i hi hi' => ?_
    have hplan : i < F.plan.length := ha.slots ▸ hi
    have hslot := slots_eq_of_complete ha hs hf.failed hc hplan
    have hget := List.getElem?_eq_getElem (ha.tasks.symm ▸ hplan)
    have htask := hf.reported hc hget (List.getElem?_eq_getElem hplan)
    have hreported : F.reported f i = some (F.result reply F.plan[i]) := by
      rw [Fanout.reported, hget, List.getElem?_eq_getElem hplan, htask]
      rfl
    rw [hreported, List.getElem?_eq_getElem hi] at hslot
    rw [Option.some.inj hslot, List.getElem_map]
  rw [collected, hslots, List.filterMap_map]
  exact congrFun List.filterMap_eq_map F.plan

end Fanout

/-! ## The rounds -/

/-- A worker answers each request with one response, in full and in chunks if a stream starts. It is
not cut off, and what its calls leave in the world is not seen by anyone else. -/
structure Worker.Streamable (R : W → W → Prop) (p : Principal) (worker : Worker W) : Prop where
  mayTimeOut : worker.mayTimeOut = false
  mayPanic : worker.mayPanic = false
  chat : ∀ req w w', R w w' → ∃ resp, (worker.provider.chat p req w).1 = .ok resp ∧
    (worker.provider.chat p req w').1 = .ok resp
  unseen : ∀ req w w', R w w' → R (worker.provider.chat p req w).2 w' ∧
    R w (worker.provider.chat p req w').2
  stream : worker.provider.capabilities.supportsStreaming = true → ∀ (req : ChatRequest) w w',
    R w w' →
    (∀ resp chunks, (worker.provider.chat p req w').1 = .ok resp →
      (worker.provider.stream p { req with stream := true } w').1 = .ok chunks →
      TextChunks resp chunks) ∧
    R w (worker.provider.stream p { req with stream := true } w').2

namespace Conductor

/-- A conductor without a budget whose workers answer in chunks what they answer in full, and whose
verifier does not fail on a part of an answer. -/
structure Delegates (R : W → W → Prop) (C : Conductor W) (p : Principal) : Prop where
  budget : C.budget = none
  workers : ∀ entry ∈ C.workers, entry.2.Streamable R p
  evaluateStreaming : ∀ v ∈ C.verifier, ∀ text w w', R w w' →
    (∃ s, (v.evaluateStreaming p text w').1 = .ok s) ∧ R w (v.evaluateStreaming p text w').2

/-- The coordinator does the same in related worlds, and the verifier does not fail. -/
structure Streamable (R : W → W → Prop) (C : Conductor W) (p : Principal) : Prop extends
    C.Delegates R p where
  coordinator : ∀ req, Respects R (C.coordinator.chat p req)
  score : ∀ v ∈ C.verifier, ∀ prompt output w w', R w w' →
    (∃ s, (v.score p prompt output w').1 = .ok s) ∧ R w (v.score p prompt output w').2

variable {R : W → W → Prop} {C : Conductor W} {p : Principal}

theorem streamable_of_worker (hC : C.Delegates R p) (h : C.worker? name = some worker) :
    worker.Streamable R p := by
  obtain ⟨entry, hentry, rfl⟩ := Option.map_eq_some_iff.1 h
  exact hC.workers entry (List.mem_of_find?_eq_some hentry)

/-- What the worker of a dispatch answers in a world. -/
def replyIn (C : Conductor W) (p : Principal) (w : W) (d : WorkerDispatch) : ChatResponse :=
  match C.worker? d.worker with
  | none => ⟨.assistant "", .stop, {}, []⟩
  | some worker =>
    match (worker.provider.chat p (Fanout.workerRequest worker.provider d.task) w).1 with
    | .ok resp => resp
    | .error _ => ⟨.assistant "", .stop, {}, []⟩

theorem chat_replyIn (hC : C.Delegates R p) (hworker : C.worker? d.worker = some worker)
    (hR : R u w) :
    (worker.provider.chat p (Fanout.workerRequest worker.provider d.task) u).1 =
      .ok (C.replyIn p w d) := by
  obtain ⟨resp, hu, hw⟩ := (streamable_of_worker hC hworker).chat
    (Fanout.workerRequest worker.provider d.task) u w hR
  rw [hu, replyIn, hworker]
  simp only [hw]

theorem chat_eq_replyIn (hC : C.Delegates R p) (hworker : C.worker? d.worker = some worker)
    (hR : R u w) (hR' : R u w') :
    (worker.provider.chat p (Fanout.workerRequest worker.provider d.task) w').1 =
      .ok (C.replyIn p w d) := by
  obtain ⟨resp, hu, hw'⟩ := (streamable_of_worker hC hworker).chat
    (Fanout.workerRequest worker.provider d.task) u w' hR'
  rw [hw', ← hu, chat_replyIn hC hworker hR]

/-- The fan-out of `run`, from a world that is related to `w`. -/
theorem steady_static (hC : C.Delegates R p) (step : Nat) (plan : List WorkerDispatch) (w : W) :
    (C.fanout p false step plan).Steady (R · w) (C.replyIn p w) where
  budget := hC.budget
  mayTimeOut _ _ _ h := (streamable_of_worker hC h).mayTimeOut
  mayPanic _ _ _ h := (streamable_of_worker hC h).mayPanic
  chat _ _ _ h u hu :=
    ⟨chat_replyIn hC h hu, ((streamable_of_worker hC h).unseen _ u w hu).1⟩
  stream h := nomatch h
  verifier h := nomatch h

/-- The fan-out of `stream`, from a world that `u` is related to. -/
theorem steady_streaming (hC : C.Delegates R p) (step : Nat) (plan : List WorkerDispatch)
    (hR : R u w) : (C.fanout p true step plan).Steady (R u) (C.replyIn p w) where
  budget := hC.budget
  mayTimeOut _ _ _ h := (streamable_of_worker hC h).mayTimeOut
  mayPanic _ _ _ h := (streamable_of_worker hC h).mayPanic
  chat _ _ _ h w' hw' :=
    ⟨chat_eq_replyIn hC h hR hw', ((streamable_of_worker hC h).unseen _ u w' hw').2⟩
  stream _ _ _ _ h hstreams w' hw' :=
    have hstream := (streamable_of_worker hC h).stream hstreams _ u w' hw'
    ⟨fun chunks => hstream.1 _ chunks (chat_eq_replyIn hC h hR hw'), hstream.2⟩
  verifier _ v hv text w' hw' := hC.evaluateStreaming v hv text u w' hw'

/-- The results that a plan comes to. -/
def planResults (C : Conductor W) (p : Principal) (w : W) (plan : List WorkerDispatch) :
    List WorkerResult :=
  plan.map ((C.fanout p false 0 plan).result (C.replyIn p w))

theorem dispatchWorkersStatic_eq (hC : C.Delegates R p) {S : Schedule W} (hS : C.Fair p S false)
    (step : Nat) (plan : List WorkerDispatch) (hR : R w w') :
    let o := (C.dispatchWorkersStatic p S step plan).run w
    o.result = .ok (C.planResults p w' plan) ∧ R o.world w' ∧
      o.trace.filterMap coordinatorRequest = [] := by
  have hf := Fanout.onTrack_play (steady_static hC step plan w') hR (S step plan w)
  have hjoined := Fanout.joined_eq hf (Fanout.accounted_play _ w _) (hS step plan w)
  exact ⟨congrArg Except.ok hjoined, hf.world, hf.trace⟩

theorem dispatchWorkersStreaming_eq (hC : C.Delegates R p) {S : Schedule W} (hS : C.Fair p S true)
    (step : Nat) (plan : List WorkerDispatch) (hR : R u w) (hR' : R u w') :
    let o := (C.dispatchWorkersStreaming p S step plan).run w'
    o.result = .ok (C.planResults p w plan) ∧ R u o.world ∧
      o.trace.filterMap coordinatorRequest = [] := by
  have hf := Fanout.onTrack_play (steady_streaming hC step plan hR) hR' (S step plan w')
  have hcollected := Fanout.collected_eq hf (Fanout.accounted_play _ w' _) rfl (hS step plan w')
  refine ⟨?_, hf.world, hf.trace⟩
  have hfailed : (C.played p S true step plan w').failed = none := hf.failed
  unfold dispatchWorkersStreaming
  dsimp only
  rw [hfailed]
  exact congrArg Except.ok hcollected

/-- The two fan-outs of a plan have the same results. -/
theorem dispatchWorkers_sim (hC : C.Delegates R p) {S S' : Schedule W} (hS : C.Fair p S false)
    (hS' : C.Fair p S' true) (step : Nat) (plan : List WorkerDispatch) :
    Sim R coordinatorRequest Eq (C.dispatchWorkersStatic p S step plan)
      (C.dispatchWorkersStreaming p S' step plan) := by
  intro w w' hR
  obtain ⟨hresult, hworld, htrace⟩ := dispatchWorkersStatic_eq hC hS step plan hR
  obtain ⟨hresult', hworld', htrace'⟩ := dispatchWorkersStreaming_eq hC hS' step plan hworld hworld
  refine ⟨?_, hworld', htrace.trans htrace'.symm⟩
  rw [hresult, hresult']
  exact .refl _

theorem ask_sim (hC : C.Streamable R p) (messages : List Message) :
    Sim R coordinatorRequest Eq (byConductor (C.ask p messages))
      (byConductor (C.ask p messages)) := by
  refine .embed ?_
  unfold ask
  rw [hC.budget]
  refine .bind (Q := Eq) (.pure rfl) fun _ _ _ => ?_
  refine .bind (.call_of_respects (hC.coordinator _) fun _ _ _ => rfl) ?_
  rintro resp _ rfl
  exact .pure rfl

/-- An event is not seen. -/
theorem yield_silent (e : OrchEvent) :
    Silent R coordinatorRequest (fun _ => True) (byConductor (yield e : M W Unit)) :=
  .embed (.emit rfl)

theorem yieldResult_silent (hC : C.Streamable R p) (prompt : String) (step idx : Nat)
    (r : WorkerResult) :
    Silent R (fun t => coordinatorRequest (.conductor, t)) (fun _ => True)
      (C.yieldResult p prompt step idx r) := by
  refine .bind (.emit rfl) fun _ _ => ?_
  split
  · next v text hv _ =>
    refine .bind (P := fun _ => True) (.call (fun w w' hR => ?_) fun _ _ => rfl) fun score _ =>
      .emit rfl
    obtain ⟨⟨s, hs⟩, hw⟩ := hC.score v hv prompt text w w' hR
    exact ⟨⟨s, hs, trivial⟩, hw⟩
  · exact .pure trivial

theorem report_sim (C : Conductor W) (s : RunState) (results : List WorkerResult) :
    Sim R coordinatorRequest Eq (C.report s results) (C.report s results) := by
  unfold report
  split
  · exact .throw _
  · split
    · exact .pure rfl
    · exact .throw _

theorem round_sim (hC : C.Streamable R p) {S S' : Schedule W} (hS : C.Fair p S false)
    (hS' : C.Fair p S' true) (prompt : String) (step : Nat) (s : RunState) :
    Sim R coordinatorRequest Eq (C.round p S step s) (C.roundStreaming p S' prompt step s) := by
  refine .silent_bind (yield_silent _) fun _ _ => .bind (ask_sim hC _) ?_
  rintro resp _ rfl
  have htext : Silent R coordinatorRequest (fun _ => True) (byConductor
      (if resp.message.text = "" then (pure () : M W Unit)
        else yield (.assistantText step resp.message.text))) := by
    split
    · exact .embed (.pure trivial)
    · exact yield_silent _
  refine .silent_bind htext fun _ _ => ?_
  dsimp only
  cases parseDispatchPlan C.codec resp.message.text with
  | error e => exact .pure rfl
  | ok plan =>
    dsimp only
    split
    · exact .pure rfl
    · split
      · exact .pure rfl
      · refine .silent_bind (.embed (.forM (fun _ => .emit rfl) _)) fun _ _ => ?_
        refine .bind (dispatchWorkers_sim hC.toDelegates hS hS' step plan.dispatch) ?_
        rintro results _ rfl
        refine .silent_bind (.embed (.forM (fun _ => yieldResult_silent hC _ _ _ _) _))
          fun _ _ => .bind (report_sim C _ _) ?_
        rintro s' _ rfl
        exact .pure rfl

theorem rounds_sim {round round' : Nat → RunState → CM W (RunState ⊕ OrchOutput)}
    (h : ∀ step s, Sim R coordinatorRequest Eq (round step s) (round' step s)) (n step : Nat)
    (s : RunState) :
    Sim R coordinatorRequest Eq (rounds round n step s) (rounds round' n step s) := by
  induction n generalizing step s with
  | zero => exact .pure rfl
  | succ n ih =>
    refine .bind (h step s) ?_
    rintro next _ rfl
    cases next with
    | inl s => exact ih _ _
    | inr output => exact .pure rfl

/-! ## The `Final` event -/

/-- The output in the `Final` event of the conductor. -/
def finalOutput : Party × Act W → Option OrchOutput
  | (.conductor, .yielded (.final output)) => some output
  | _ => none

/-- The conductor does not end the stream. -/
abbrev GoesOn (x : CM W α) : Prop := x.Acts fun t => finalOutput t = none

theorem finalOutput_of_actsInRound {step : Nat} {t : Party × Act W} (h : ActsInRound step t) :
    finalOutput t = none := by
  unfold finalOutput
  split
  · exact h.elim
  · rfl

theorem roundStreaming_goesOn (C : Conductor W) (p : Principal) (S : Schedule W) (prompt : String)
    (step : Nat) (s : RunState) : GoesOn (C.roundStreaming p S prompt step s) :=
  Ensures.weaken (roundStreaming_acts C p S prompt step s) fun _ _ h t ht =>
    finalOutput_of_actsInRound (h t ht)

theorem rounds_goesOn {round : Nat → RunState → CM W (RunState ⊕ OrchOutput)}
    (h : ∀ step s, GoesOn (round step s)) (n step : Nat) (s : RunState) :
    GoesOn (rounds round n step s) := rounds_acts h n step s

/-! ## `run` and `stream` -/

/-- Two runs send the coordinator the same requests. The streamed one ends with its only `Final`
event, which carries the output of the other, or in the same error. -/
structure ConductsAlike (o : Outcome W (Party × Act W) Failure OrchOutput)
    (o' : Outcome W (Party × Act W) Failure Unit) : Prop where
  requests : o.trace.filterMap coordinatorRequest = o'.trace.filterMap coordinatorRequest
  output : ∀ output, o.result = .ok output →
    o'.result = .ok () ∧ o'.trace.getLast? = some (.conductor, .yielded (.final output)) ∧
      o'.trace.filterMap finalOutput = [output]
  error : ∀ e, o.result = .error (.error e) →
    o'.result = .error (.error e) ∧ o'.trace.filterMap finalOutput = []

/-- `stream` does what `run` does, whatever the order in which the workers finish in either. -/
theorem stream_conducts_as_run (R : W → W → Prop) (C : Conductor W) (p : Principal)
    (hC : C.Streamable R p) (S S' : Schedule W) (hS : C.Fair p S false) (hS' : C.Fair p S' true)
    (input : OrchInput) (w w' : W) (hR : R w w') :
    ConductsAlike ((C.run p S input).run w) ((C.stream p S' input).run w') := by
  have hgoes := rounds_goesOn (roundStreaming_goesOn C p S' input.promptText) C.maxSteps 0
    { messages := C.conversation input } w'
  obtain ⟨hresult, -, htrace⟩ := rounds_sim (round_sim hC hS hS' input.promptText) C.maxSteps 0
    { messages := C.conversation input } w w' hR
  have hresult := hresult.eq
  have hnone := List.filterMap_eq_nil_iff.2 hgoes
  have hlast (output : OrchOutput) : (byConductor (yield (.final output) : M W Unit)).run =
      fun w => ⟨.ok (), w, [(.conductor, .yielded (.final output))]⟩ := rfl
  unfold run stream
  cases hy : ((rounds (C.roundStreaming p S' input.promptText) C.maxSteps 0
      { messages := C.conversation input }).run w').result with
  | ok output =>
    rw [run_bind_ok _ hy, hlast]
    refine ⟨?_, fun output' hx => ⟨rfl, ?_, ?_⟩, fun e hx => ?_⟩
    · rw [List.filterMap_append, htrace]
      exact (List.append_nil _).symm
    · obtain rfl : output' = output := Except.ok.inj (hx.symm.trans (hresult.trans hy))
      exact List.getLast?_concat
    · obtain rfl : output' = output := Except.ok.inj (hx.symm.trans (hresult.trans hy))
      rw [List.filterMap_append, hnone]
      rfl
    · rw [hresult, hy] at hx
      cases hx
  | error failure =>
    rw [run_bind_error _ hy]
    refine ⟨htrace, fun output hx => ?_, fun e hx => ⟨?_, hnone⟩⟩
    · rw [hresult, hy] at hx
      cases hx
    · rw [hresult, hy] at hx
      exact congrArg Except.error (Except.error.inj hx)

/-! ## A sample -/

/-- Whatever the coordinator says is read as the one plan. -/
def onePlan : PlanCodec where
  debugDuration _ := ""
  debugStr s := s
  joinError _ := ""
  planFromStr _ := .ok { dispatch := [⟨"solver", "hi"⟩] }

/-- A worker that answers every request with `done`, also in chunks. -/
def doneWorker : Worker Nat where
  provider :=
    { id := "sample:worker"
      capabilities := { supportsStreaming := true }
      estimateCostUsd := fun _ => 1
      chat := fun _ _ n => (.ok Sample.done, n)
      stream := fun _ _ n => (.ok (Sample.chunks Sample.done), n) }

/-- One round with one worker, whose answer gets the score. -/
def scored (score : Result Rat) : Conductor Nat where
  codec := onePlan
  coordinator := Sample.scripted fun _ => some Sample.done
  workers := [("solver", doneWorker)]
  maxSteps := ⟨1, by decide⟩
  verifier := some (Sample.verifier score)

theorem doneWorker_streamable (p : Principal) : doneWorker.Streamable Eq p where
  mayTimeOut := rfl
  mayPanic := rfl
  chat _ _ _ _ := ⟨_, rfl, rfl⟩
  unseen _ _ _ h := ⟨h, h⟩
  stream _ _ _ _ h := by
    refine ⟨fun resp chunks hresp hchunks => ?_, h⟩
    cases hresp
    cases hchunks
    exact ⟨[(some "done", []), (none, [])], [], rfl, rfl⟩

theorem scored_delegates (score : Result Rat) (p : Principal) :
    (scored score).Delegates Eq p where
  budget := rfl
  workers := List.forall_mem_singleton.2 (doneWorker_streamable p)
  evaluateStreaming v h _ _ _ hR := by
    obtain rfl : Sample.verifier score = v := Option.some.inj h
    exact ⟨⟨none, rfl⟩, hR⟩

theorem scored_streamable (p : Principal) : (scored (.ok 1)).Streamable Eq p where
  toDelegates := scored_delegates _ p
  coordinator _ := respects_eq _
  score v h _ _ _ _ hR := by
    obtain rfl : Sample.verifier (.ok 1) = v := Option.some.inj h
    exact ⟨⟨1, rfl⟩, hR⟩

theorem stream_conducts_as_run_scored : ∃ S S',
    ConductsAlike (((scored (.ok 1)).run Sample.acme S Sample.input).run 0)
      (((scored (.ok 1)).stream Sample.acme S' Sample.input).run 0) := by
  obtain ⟨S, hS⟩ := (scored (.ok 1)).exists_fair Sample.acme false
  obtain ⟨S', hS'⟩ := (scored (.ok 1)).exists_fair Sample.acme true
  exact ⟨S, S', stream_conducts_as_run Eq _ _ (scored_streamable _) S S' hS hS' _ _ _ rfl⟩

/-- What the coordinator is told in the sample. -/
def scoredSummary : String := "Worker results:\n- solver (task: hi): done\n"

theorem report_scored (score : Result Rat) (s : RunState) :
    (scored score).report s [⟨"solver", "hi", .ok "done"⟩] = pure (s.tell scoredSummary) := by
  have hrender : renderWorkerResults (scored score).codec [⟨"solver", "hi", .ok "done"⟩] =
      some scoredSummary := by
    change renderWorkerResults onePlan _ = _
    decide
  unfold report
  rw [if_neg (by exact Bool.false_ne_true), hrender]

theorem planResults_scored (score : Result Rat) (w : Nat) :
    (scored score).planResults Sample.acme w [⟨"solver", "hi"⟩] = [⟨"solver", "hi", .ok "done"⟩] :=
  rfl

theorem round_scored (score : Result Rat) {S : Schedule Nat}
    (hS : (scored score).Fair Sample.acme S false) (s : RunState) :
    (((scored score).round Sample.acme S 0 s).run 0).result =
      .ok (.inl ((s.answered Sample.done).tell scoredSummary)) := by
  obtain ⟨hstatic, -⟩ := dispatchWorkersStatic_eq (scored_delegates score Sample.acme) hS 0
    [⟨"solver", "hi"⟩] (Eq.refl 1)
  rw [planResults_scored] at hstatic
  change (((scored score).dispatchWorkersStatic Sample.acme S 0 [⟨"solver", "hi"⟩] >>=
    fun results => (scored score).report (s.answered Sample.done) results >>= fun s' =>
      (pure (.inl s') : CM Nat (RunState ⊕ OrchOutput))).run 1).result = _
  rw [run_bind_ok _ hstatic, report_scored, Traced.pure_bind]
  rfl

theorem run_scored (score : Result Rat) {S : Schedule Nat}
    (hS : (scored score).Fair Sample.acme S false) :
    ∃ output, (((scored score).run Sample.acme S Sample.input).run 0).result = .ok output := by
  let s : RunState := { messages := (scored score).conversation Sample.input }
  let s' := (s.answered Sample.done).tell scoredSummary
  refine ⟨s'.output s'.lastText, ?_⟩
  change ((rounds ((scored score).round Sample.acme S) 1 0 s).run 0).result = _
  rw [rounds, run_bind_ok _ (round_scored score hS s)]
  rfl

theorem stream_scored (e : TakoError) {S : Schedule Nat}
    (hS : (scored (.error e)).Fair Sample.acme S true) :
    (((scored (.error e)).stream Sample.acme S Sample.input).run 0).result =
      .error (.error e) := by
  obtain ⟨hstreaming, -⟩ := dispatchWorkersStreaming_eq (scored_delegates (.error e) Sample.acme) hS 0
    [⟨"solver", "hi"⟩] (Eq.refl 1) (Eq.refl 1)
  rw [planResults_scored] at hstreaming
  have hround (prompt : String) (s : RunState) :
      (((scored (.error e)).roundStreaming Sample.acme S prompt 0 s).run 0).result =
        .error (.error e) := by
    change (((scored (.error e)).dispatchWorkersStreaming Sample.acme S 0 [⟨"solver", "hi"⟩] >>=
      fun results => byConductor (results.zipIdx.forM fun entry =>
        (scored (.error e)).yieldResult Sample.acme prompt 0 entry.2 entry.1) >>= fun _ =>
          (scored (.error e)).report (s.answered Sample.done) results >>= fun s' =>
            (pure (.inl s') : CM Nat (RunState ⊕ OrchOutput))).run 1).result = _
    rw [run_bind_ok _ hstreaming, run_bind_error (e := .error e) _ rfl]
  let s : RunState := { messages := (scored (.error e)).conversation Sample.input }
  let round := (scored (.error e)).roundStreaming Sample.acme S Sample.input.promptText
  have hrounds : ((rounds round 1 0 s).run 0).result = .error (.error e) := by
    rw [rounds, run_bind_error _ (hround _ s)]
  change ((rounds round 1 0 s >>= fun output => byConductor (yield (.final output))).run 0).result = _
  rw [run_bind_error _ hrounds]

/-- A verifier that fails ends the stream; `run` has none. -/
theorem failed_score_ends_stream : ¬∀ (C : Conductor Nat) (p : Principal) (S S' : Schedule Nat)
    (input : OrchInput) (w : Nat), C.budget = none →
    (∀ entry ∈ C.workers, entry.2.Streamable Eq p) → C.Fair p S false → C.Fair p S' true →
    ConductsAlike ((C.run p S input).run w) ((C.stream p S' input).run w) := by
  intro h
  let C := scored (.error (.transport "closed"))
  obtain ⟨S, hS⟩ := C.exists_fair Sample.acme false
  obtain ⟨S', hS'⟩ := C.exists_fair Sample.acme true
  obtain ⟨output, hrun⟩ := run_scored _ hS
  have halike := h C Sample.acme S S' Sample.input 0 rfl
    (scored_delegates (.error (.transport "closed")) Sample.acme).workers hS hS'
  have hstream := (halike.output output hrun).1
  rw [stream_scored _ hS'] at hstream
  cases hstream

end Conductor

end Tako.Orchestrator
