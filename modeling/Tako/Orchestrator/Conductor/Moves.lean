import Tako.Orchestrator.Conductor.Fanout

/-!
# The moves of a fan-out

`Fanout.Moved` lists what a move makes of a fan-out, so that an invariant is shown case by case
(`Fanout.play_induction`), and `Fanout.Edge` lists the steps of one task. As long as a fan-out is
not complete a move is possible, and the moves use it up (`Fanout.exists_complete`), so every
fan-out has an order that brings it to its end (`Conductor.exists_fair`).
-/

namespace Tako.Orchestrator

open Traced

variable {W : Type}

namespace Task

/-- How far a task is from its end. -/
def stage : Task → Nat
  | .waiting => 6
  | .checking => 5
  | .opening => 4
  | .receiving _ _ | .calling => 3
  | .recording _ _ => 2
  | .ended _ => 1
  | .reported _ | .panicked => 0

/-- The task has no stream. -/
def IsPlain : Task → Prop
  | .opening | .receiving _ _ => False
  | _ => True

/-- The chunks that a task has not taken yet. -/
def pending : Task → Nat
  | .receiving chunks _ => chunks.length
  | _ => 0

theorem isOver_cases {task : Task} (h : task.isOver = true) :
    (∃ outcome, task = .reported outcome) ∨ task = .panicked := by
  cases task with
  | reported outcome => exact .inl ⟨outcome, rfl⟩
  | panicked => exact .inr rfl
  | _ => cases h

theorem isOver_of_inCall {task : Task} (h : task.inCall = true) : task.isOver = false := by
  cases task with
  | reported | panicked => cases h
  | _ => rfl

theorem isOver_of_isTimed {task : Task} (h : task.isTimed = true) : task.isOver = false := by
  cases task with
  | reported | panicked => cases h
  | _ => rfl

theorem stage_of_isTimed {task : Task} (h : task.isTimed = true) : task.stage = 3 := by
  cases task with
  | receiving | calling => rfl
  | _ => cases h

theorem stage_of_holdsPermit {task : Task} (h : task.holdsPermit = true) : 2 ≤ task.stage := by
  cases task with
  | checking | opening | receiving | calling | recording => simp [Task.stage]
  | _ => cases h

theorem stage_of_inCall {task : Task} (h : task.inCall = true) : 3 ≤ task.stage := by
  cases task with
  | opening | receiving | calling => simp [Task.stage]
  | _ => cases h

/-- A task takes a step: to another stage, or within one by taking a chunk. -/
def Advances (task task' : Task) (sent : List WorkerStreamEvent) : Prop :=
  task'.stage < task.stage ∨
    task'.stage = task.stage ∧ 2 * task'.pending + sent.length < 2 * task.pending

end Task

/-- A task's result with its branch. -/
def WorkerStreamEvent.done? : WorkerStreamEvent → Option (Nat × WorkerResult)
  | .done branch result => some (branch, result)
  | .delta _ _ => none

namespace Fanout

variable {F : Fanout W}

/-! ## The steps of a task -/

/-- A task without a worker goes from `waiting` to `ended`. -/
def Known (worker : Option (Worker W)) (task : Task) : Prop :=
  task.holdsPermit = true → worker.isSome = true

/-- The message with the result of a task that is at its end. -/
def doneOf (F : Fanout W) (branch : Nat) (d : WorkerDispatch) : Task → List (Nat × WorkerResult)
  | .reported outcome => if F.streaming then [(branch, ⟨d.worker, d.task, outcome⟩)] else []
  | _ => []

theorem call_stage (F : Fanout W) (provider : LlmProvider W) :
    (F.call provider).stage < Task.checking.stage := by
  unfold call
  split <;> decide

theorem done_reported (F : Fanout W) (branch : Nat) (d : WorkerDispatch)
    (outcome : Except String String) :
    (if F.streaming then [.done branch ⟨d.worker, d.task, outcome⟩] else []).filterMap
      WorkerStreamEvent.done? = F.doneOf branch d (.reported outcome) := by
  unfold doneOf
  split <;> rfl

theorem call_plain (F : Fanout W) (provider : LlmProvider W) (h : F.streaming = false) :
    (F.call provider).IsPlain := by
  rw [call, h]
  trivial

theorem doneOf_call (F : Fanout W) (branch : Nat) (d : WorkerDispatch) (provider : LlmProvider W) :
    F.doneOf branch d (F.call provider) = [] := by
  unfold call
  split <;> rfl

/-- What is known of a step from `task` to `task'`. -/
structure Advanced (F : Fanout W) (branch : Nat) (d : WorkerDispatch) (worker : Option (Worker W))
    (task task' : Task) (sent : List WorkerStreamEvent) : Prop where
  done : sent.filterMap WorkerStreamEvent.done? = F.doneOf branch d task'
  known : Known worker task → Known worker task'
  advances : Known worker task → task.Advances task' sent
  plain : F.streaming = false → task.IsPlain → task'.IsPlain ∧ sent = []

/-- The steps of a task: where it goes, and what it sends. -/
inductive Edge (F : Fanout W) (branch : Nat) (d : WorkerDispatch) :
    Option (Worker W) → Task → Task → List WorkerStreamEvent → Prop
  | unknown : Edge F branch d none .waiting (.ended (.error s!"unknown worker `{d.worker}`")) []
  | entered : Edge F branch d (some worker) .waiting .checking []
  | allowed : Edge F branch d (some worker) .checking (F.call worker.provider) []
  | opened : Edge F branch d (some worker) .opening (.receiving chunks "") []
  | declined : Edge F branch d (some worker) .opening .calling []
  | muted : Edge F branch d (some worker)
    (.receiving (.ok (.delta t calls) :: chunks) text) (.receiving chunks text) []
  | heard : t ≠ "" → Edge F branch d (some worker)
    (.receiving (.ok (.delta (some t) calls) :: chunks) text) (.receiving chunks (text ++ t))
    [.delta branch (text ++ t)]
  | exhausted : Edge F branch d (some worker)
    (.receiving [] text) (.recording {} (workerOutcome .stop text)) []
  | finished : Edge F branch d (some worker)
    (.receiving (.ok (.end finishReason usage) :: chunks) text)
    (.recording usage (workerOutcome finishReason text)) []
  | answered : Edge F branch d (some worker)
    .calling (.recording usage (workerOutcome finishReason text)) []
  | recorded : Edge F branch d (some worker) (.recording usage outcome) (.ended outcome) []
  | failed : task.holdsPermit = true → Edge F branch d (some worker) task (.ended (.error e)) []
  | reported : Edge F branch d worker (.ended outcome) (.reported outcome)
    (if F.streaming then [.done branch ⟨d.worker, d.task, outcome⟩] else [])
  | stuck : task.holdsPermit = true → Edge F branch d none task task []
  | idle : task.isOver = true → Edge F branch d worker task task []

/-- A step does not fail. -/
theorem taskStep_edge (F : Fanout W) (branch : Nat) (d : WorkerDispatch)
    (worker : Option (Worker W)) (task : Task) :
    (F.taskStep branch d worker task).Ensures fun r _ =>
      ∃ task' sent, r = .ok (task', sent) ∧ F.Edge branch d worker task task' sent := by
  have next {worker : Option (Worker W)} {task task' : Task} {sent : List WorkerStreamEvent}
      (h : F.Edge branch d worker task task' sent) :
      (pure (task', sent) : M W _).Ensures fun r _ =>
        ∃ task' sent, r = .ok (task', sent) ∧ F.Edge branch d worker task task' sent :=
    .pure ⟨_, _, rfl, h⟩
  cases worker with
  | none =>
    cases task with
    | waiting => exact next .unknown
    | ended => exact next .reported
    | reported | panicked => exact next (.idle rfl)
    | _ => exact next (.stuck rfl)
  | some worker =>
    cases task with
    | waiting => exact next .entered
    | checking =>
      refine (Infallible.attempt _).ensures_bind fun r => ?_
      cases r with
      | ok => exact next .allowed
      | error => exact next (.failed rfl)
    | opening =>
      refine (Infallible.attempt _).ensures_bind fun r => ?_
      cases r with
      | ok => exact next .opened
      | error => exact next .declined
    | receiving chunks text =>
      cases chunks with
      | nil => exact (Infallible.emit _).ensures_bind fun _ => next .exhausted
      | cons chunk chunks =>
        refine (Infallible.emit _).ensures_bind fun _ => ?_
        rcases chunk with e | (⟨_ | t, calls⟩ | message | ⟨finishReason, usage⟩)
        · exact next (.failed rfl)
        · exact next .muted
        · dsimp only
          split
          · exact next .muted
          · next ht => exact next (.heard ht)
        · exact next (.failed rfl)
        · exact next .finished
    | calling =>
      refine (Infallible.attempt _).ensures_bind fun r => ?_
      cases r with
      | ok => exact next .answered
      | error => exact next (.failed rfl)
    | recording usage outcome =>
      refine (Infallible.attempt _).ensures_bind fun r => ?_
      cases r with
      | ok => exact next .recorded
      | error => exact next (.failed rfl)
    | ended => exact next .reported
    | reported | panicked => exact next (.idle rfl)

theorem doneOf_of_holdsPermit (F : Fanout W) (branch : Nat) (d : WorkerDispatch)
    (h : task.holdsPermit = true) : F.doneOf branch d task = [] := by
  cases task with
  | reported => cases h
  | _ => rfl

/-- A step brings a task forward that is not over. -/
theorem Edge.advanced (e : F.Edge branch d worker task task' sent) (hover : task.isOver = false) :
    F.Advanced branch d worker task task' sent where
  done := by
    cases e with
    | allowed => exact (F.doneOf_call _ _ _).symm
    | reported => exact F.done_reported _ _ _
    | stuck hpermit => exact (F.doneOf_of_holdsPermit _ _ hpermit).symm
    | idle hover' =>
      rw [hover] at hover'
      cases hover'
    | _ => rfl
  known hk := by
    cases e with
    | unknown | failed | recorded | reported =>
      intro h
      cases h
    | stuck | idle => exact hk
    | _ => exact fun _ => rfl
  advances hk := by
    cases e with
    | allowed => exact .inl (F.call_stage _)
    | muted => exact .inr ⟨rfl, by simp [Task.pending]⟩
    | heard =>
      refine .inr ⟨rfl, ?_⟩
      simp only [Task.pending, List.length]
      omega
    | failed hpermit => exact .inl (Task.stage_of_holdsPermit hpermit)
    | stuck hpermit => cases hk hpermit
    | idle hover' =>
      rw [hover] at hover'
      cases hover'
    | _ => exact .inl (by simp [Task.stage])
  plain hs h := by
    cases e with
    | allowed => exact ⟨F.call_plain _ hs, rfl⟩
    | opened | declined | muted | heard | exhausted | finished => exact h.elim
    | reported =>
      rw [hs]
      exact ⟨trivial, rfl⟩
    | stuck | idle => exact ⟨h, rfl⟩
    | _ => exact ⟨trivial, rfl⟩

/-- A step does not fail, and it brings the task forward. -/
theorem taskStep_advances (F : Fanout W) (branch : Nat) (d : WorkerDispatch)
    (worker : Option (Worker W)) (task : Task) :
    (F.taskStep branch d worker task).Ensures fun r _ => ∃ task' sent, r = .ok (task', sent) ∧
      (task.isOver = false → F.Advanced branch d worker task task' sent) := by
  refine Ensures.weaken (taskStep_edge F branch d worker task) ?_
  rintro r - ⟨task', sent, hr, e⟩
  exact ⟨task', sent, hr, e.advanced⟩

/-! ## The moves -/

/-- What a move makes of a fan-out. -/
inductive Moved (F : Fanout W) (f : State W) : State W → Prop
  | ran : f.tasks[i]? = some task → F.plan[i]? = some d → task.isOver = false →
    (task = .waiting → (F.conductor.worker? d.worker).isSome = true → F.permitFree f = true) →
    (F.taskStep (i + 1) d (F.conductor.worker? d.worker) task).run f.world =
      ⟨.ok (task', sent), w, l⟩ →
    Moved F f
      { f with
        world := w
        trace := f.trace ++ l.map (Party.worker (i + 1), ·)
        tasks := f.tasks.set i task'
        channel := f.channel ++ sent }
  | timedOut : f.tasks[i]? = some task → F.plan[i]? = some d →
    F.conductor.worker? d.worker = some worker → worker.mayTimeOut = true → task.isTimed = true →
    Moved F f
      { f with
        tasks := f.tasks.set i (.ended (.error s!"worker timed out after {move.limit F}")) }
  | timedOutSending : f.tasks[i]? = some task → F.plan[i]? = some d →
    F.conductor.worker? d.worker = some worker → worker.mayTimeOut = true → task.isTimed = true →
    Moved F f
      { f with
        trace := f.trace ++ [(.worker (i + 1), .next (some chunk))]
        tasks := f.tasks.set i (.ended (.error s!"worker timed out after {move.limit F}")) }
  | panicked : f.tasks[i]? = some task → F.plan[i]? = some d →
    F.conductor.worker? d.worker = some worker → worker.mayPanic = true → task.inCall = true →
    Moved F f { f with tasks := f.tasks.set i .panicked }
  | delta : f.failed = none → f.received ≠ F.plan.length →
    f.channel = .delta branch cumulative :: channel →
    (F.scoreDelta branch cumulative).run f.world = ⟨r, w, l⟩ →
    Moved F f
      { f with
        world := w
        trace := f.trace ++ l.map (Party.conductor, ·)
        channel
        failed := match r with
          | .ok () => none
          | .error e => some e }
  | done : f.failed = none → f.received ≠ F.plan.length →
    f.channel = .done branch result :: channel →
    Moved F f
      { f with
        channel
        slots := f.slots.set (branch - 1) (some result)
        received := f.received + 1 }

theorem moved_after (hi : f.tasks[i]? = some task) (hd : F.plan[i]? = some d)
    (hover : task.isOver = false)
    (hpermit : task = .waiting → (F.conductor.worker? d.worker).isSome = true →
      F.permitFree f = true) :
    Moved F f (runTask.after F i f task d (F.conductor.worker? d.worker)) := by
  obtain ⟨task', sent, hok, -⟩ :=
    taskStep_advances F (i + 1) d (F.conductor.worker? d.worker) task f.world
  rw [runTask.after, hok]
  exact .ran hi hd hover hpermit (by rw [← hok])

theorem runTask_moved (h : F.runTask i f = some f') : Moved F f f' := by
  rw [runTask] at h
  simp only [Option.bind_eq_bind, Option.bind_eq_some_iff] at h
  obtain ⟨task, hi, d, hd, h⟩ := h
  split at h
  · cases h
  · cases h
  · next worker _ hworker =>
    split at h
    · next hfree =>
      cases h
      exact moved_after hi hd rfl fun _ _ => hfree
    · cases h
  · next hreported hpanicked hwaiting =>
    cases h
    refine moved_after hi hd (Bool.eq_false_iff.2 fun hover => ?_) fun htask hsome => ?_
    · rcases Task.isOver_cases hover with ⟨outcome, h⟩ | h
      · exact hreported _ h
      · exact hpanicked h
    · obtain ⟨worker, hworker⟩ := Option.isSome_iff_exists.1 hsome
      exact absurd hworker (hwaiting _ htask)

theorem interrupt_moved {mayInterrupt : Worker W → Task → Bool}
    (h : F.interrupt mayInterrupt next i f = some f') :
    ∃ task d worker, f.tasks[i]? = some task ∧ F.plan[i]? = some d ∧
      F.conductor.worker? d.worker = some worker ∧ mayInterrupt worker task = true ∧
      f' = { f with tasks := f.tasks.set i next } := by
  rw [interrupt] at h
  simp only [Option.bind_eq_bind, Option.bind_eq_some_iff] at h
  obtain ⟨task, hi, d, hd, worker, hworker, h⟩ := h
  split at h
  · next hmay =>
    cases h
    exact ⟨task, d, worker, hi, hd, hworker, hmay, rfl⟩
  · cases h

theorem interruptSending_moved (h : F.interruptSending next i f = some f') :
    ∃ task d worker chunk, f.tasks[i]? = some task ∧ F.plan[i]? = some d ∧
      F.conductor.worker? d.worker = some worker ∧ worker.mayTimeOut = true ∧
      task.isTimed = true ∧
      f' = { f with
        trace := f.trace ++ [(.worker (i + 1), .next (some chunk))]
        tasks := f.tasks.set i next } := by
  rw [interruptSending] at h
  simp only [Option.bind_eq_bind, Option.bind_eq_some_iff] at h
  obtain ⟨task, hi, d, hd, worker, hworker, h⟩ := h
  split at h
  · split at h
    · next hmay =>
      cases h
      exact ⟨_, d, worker, _, hi, hd, hworker, (Bool.and_eq_true_iff.1 hmay).1, rfl, rfl⟩
    · cases h
  · cases h

theorem receive_moved (h : F.receive f = some f') : Moved F f f' := by
  rw [receive] at h
  split at h
  · cases h
  · next hgo =>
    simp only [Bool.or_eq_true, not_or, decide_eq_true_eq] at hgo
    have hfailed := Option.not_isSome_iff_eq_none.1 hgo.1
    split at h
    · cases h
    · next hchannel =>
      cases h
      exact .delta hfailed hgo.2 hchannel rfl
    · next hchannel =>
      cases h
      exact .done hfailed hgo.2 hchannel

theorem move_moved (h : F.move f m = some f') : Moved F f f' := by
  cases m with
  | run i => exact runTask_moved h
  | timeOut i =>
    obtain ⟨task, d, worker, hi, hd, hworker, hmay, rfl⟩ := interrupt_moved h
    rw [Bool.and_eq_true] at hmay
    exact .timedOut hi hd hworker hmay.1 hmay.2
  | timeOutSending i =>
    obtain ⟨task, d, worker, chunk, hi, hd, hworker, hmay, htimed, rfl⟩ := interruptSending_moved h
    exact .timedOutSending hi hd hworker hmay htimed
  | panic i =>
    obtain ⟨task, d, worker, hi, hd, hworker, hmay, rfl⟩ := interrupt_moved h
    rw [Bool.and_eq_true] at hmay
    exact .panicked hi hd hworker hmay.1 hmay.2
  | receive => exact receive_moved h

theorem play_induction {P : State W → Prop} (hP : ∀ f f', P f → Moved F f f' → P f') (hf : P f)
    (moves : List Move) : P (F.play f moves) := by
  induction moves generalizing f with
  | nil => exact hf
  | cons m moves ih =>
    cases hm : F.move f m with
    | none =>
      rw [play, List.foldl_cons, hm]
      exact ih hf
    | some f' =>
      rw [play, List.foldl_cons, hm]
      exact ih (hP f f' hf (move_moved hm))

/-! ## The end of a fan-out -/

/-- There is a task for each dispatch, and those with a permit have a worker. -/
structure Staffed (F : Fanout W) (f : State W) : Prop where
  length : f.tasks.length = F.plan.length
  known : ∀ (i : Nat) (task : Task) (d : WorkerDispatch), f.tasks[i]? = some task →
    F.plan[i]? = some d → Known (F.conductor.worker? d.worker) task

theorem staffed_start (F : Fanout W) (w : W) : F.Staffed (F.start w) where
  length := by simp [start]
  known i task d hi _ hpermit := by
    simp only [start, List.getElem?_map, Option.map_eq_some_iff] at hi
    obtain ⟨_, -, rfl⟩ := hi
    cases hpermit

/-- A number of each task, added up. -/
def total (g : Task → Nat) : List Task → Nat
  | [] => 0
  | task :: tasks => g task + total g tasks

theorem total_set (g : Task → Nat) {tasks : List Task} (h : tasks[i]? = some task) (task' : Task) :
    total g (tasks.set i task') + g task = total g tasks + g task' := by
  induction tasks generalizing i with
  | nil => cases h
  | cons first tasks ih =>
    cases i with
    | zero =>
      obtain rfl : first = task := Option.some.inj h
      rw [List.set_cons_zero, total, total]
      omega
    | succ i =>
      have ih := ih h
      rw [List.set_cons_succ, total, total]
      omega

/-- What is left to do: the stages of the tasks, then what is to be taken within them. -/
def work (f : State W) : Nat × Nat :=
  (total Task.stage f.tasks, 2 * total Task.pending f.tasks + f.channel.length)

theorem Staffed.set (hf : F.Staffed f) (hd : F.plan[i]? = some d)
    (hk : Known (F.conductor.worker? d.worker) task') (htasks : f'.tasks = f.tasks.set i task') :
    F.Staffed f' where
  length := by rw [htasks, List.length_set, hf.length]
  known j task dj hj hdj := by
    rw [htasks, List.getElem?_set] at hj
    split at hj
    · next hij =>
      subst hij
      split at hj
      · cases hj
        cases hd.symm.trans hdj
        exact hk
      · cases hj
    · exact hf.known j task dj hj hdj

theorem Staffed.moved (hf : F.Staffed f) (h : Moved F f f') : F.Staffed f' := by
  cases h with
  | ran hi hd hover _ hstep =>
    obtain ⟨task', sent, hok, hadv⟩ := taskStep_advances F _ _ _ _ f.world
    rw [hstep] at hok
    cases hok
    exact hf.set hd ((hadv hover).known (hf.known _ _ _ hi hd)) rfl
  | timedOut _ hd | timedOutSending _ hd | panicked _ hd =>
    exact hf.set hd (fun h => by cases h) rfl
  | delta | done => exact ⟨hf.length, hf.known⟩

theorem staffed_play (F : Fanout W) (w : W) (moves : List Move) :
    F.Staffed (F.play (F.start w) moves) :=
  play_induction (fun _ _ => Staffed.moved) (staffed_start F w) moves

/-- The measure that every move lowers. -/
abbrev Less (f f' : State W) : Prop := Prod.Lex (· < ·) (· < ·) (work f) (work f')

theorem less_of_stage (hi : f.tasks[i]? = some task) (hstage : task'.stage < task.stage)
    (htasks : f'.tasks = f.tasks.set i task') : Less f' f := by
  refine .left _ _ ?_
  have htotal := total_set Task.stage hi task'
  rw [← htasks] at htotal
  omega

theorem less_of_channel (htasks : f'.tasks = f.tasks)
    (hchannel : f'.channel.length < f.channel.length) : Less f' f := by
  unfold Less work
  rw [htasks]
  exact .right _ (by omega)

theorem less_of_moved (hf : F.Staffed f) (h : Moved F f f') : Less f' f := by
  cases h with
  | @ran i task d task' sent w l hi hd hover _ hstep =>
    obtain ⟨task'', sent', hok, hadv⟩ := taskStep_advances F _ _ _ _ f.world
    rw [hstep] at hok
    cases hok
    rcases (hadv hover).advances (hf.known _ _ _ hi hd) with hlt | ⟨heq, hlt⟩
    · exact less_of_stage hi hlt rfl
    · have hstage := total_set Task.stage hi task'
      have hpending := total_set Task.pending hi task'
      unfold Less work
      dsimp only
      rw [show total Task.stage (f.tasks.set i task') = total Task.stage f.tasks by omega,
        List.length_append]
      exact .right _ (by omega)
  | timedOut hi _ _ _ htimed | timedOutSending hi _ _ _ htimed =>
    exact less_of_stage hi (by rw [Task.stage_of_isTimed htimed]; simp [Task.stage]) rfl
  | panicked hi _ _ _ hcall =>
    refine less_of_stage hi (Nat.lt_of_lt_of_le ?_ (Task.stage_of_inCall hcall)) rfl
    simp [Task.stage]
  | delta _ _ hchannel | done _ _ hchannel =>
    refine less_of_channel rfl ?_
    rw [hchannel]
    exact Nat.lt_succ_self _

theorem runTask_eq_some (hi : f.tasks[i]? = some task) (hd : F.plan[i]? = some d)
    (hover : task.isOver = false)
    (hpermit : task = .waiting → (F.conductor.worker? d.worker).isSome = true →
      F.permitFree f = true) :
    F.runTask i f = some (runTask.after F i f task d (F.conductor.worker? d.worker)) := by
  rw [runTask, hi, hd]
  simp only [Option.bind_eq_bind, Option.bind_some]
  split
  · cases hover
  · cases hover
  · next hworker => rw [if_pos (hpermit rfl (by rw [hworker]; rfl)), hworker]
  · rfl

theorem exists_run (hf : F.Staffed f) (hi : f.tasks[i]? = some task) (hover : task.isOver = false)
    (hpermit : task = .waiting → F.permitFree f = true) : ∃ f', F.move f (.run i) = some f' := by
  obtain ⟨d, hd⟩ : ∃ d, F.plan[i]? = some d := by
    have hlt := (List.getElem?_eq_some_iff.1 hi).1
    rw [hf.length] at hlt
    exact ⟨_, List.getElem?_eq_getElem hlt⟩
  exact ⟨_, runTask_eq_some hi hd hover fun h _ => hpermit h⟩

/-- A task that is not over can go on, or it waits for a permit that is held by one that can. -/
theorem exists_run_of_not_over (hf : F.Staffed f) (hmem : task ∈ f.tasks)
    (hover : task.isOver = false) : ∃ i f', F.move f (.run i) = some f' := by
  obtain ⟨i, hi⟩ := List.mem_iff_getElem?.1 hmem
  by_cases hfree : F.permitFree f = true
  · exact ⟨i, exists_run hf hi hover fun _ => hfree⟩
  · have hpos : 0 < f.tasks.countP Task.holdsPermit := by
      have hlimit := F.conductor.maxFanout.2
      simp only [permitFree, decide_eq_true_eq] at hfree
      omega
    obtain ⟨holder, hholder, hpermit⟩ := List.countP_pos_iff.1 hpos
    obtain ⟨j, hj⟩ := List.mem_iff_getElem?.1 hholder
    refine ⟨j, exists_run hf hj ?_ fun hwaiting => ?_⟩
    · cases holder with
      | reported | panicked => cases hpermit
      | _ => rfl
    · subst hwaiting
      cases hpermit

theorem exists_receive (hfailed : f.failed = none) (hreceived : f.received ≠ F.plan.length)
    (hchannel : f.channel ≠ []) : ∃ f', F.move f .receive = some f' := by
  refine Option.isSome_iff_exists.1 ?_
  change (F.receive f).isSome = true
  rw [receive, if_neg (by simp [hfailed, hreceived])]
  split
  · contradiction
  · rfl
  · rfl

/-- As long as a fan-out is not complete it can be brought forward. -/
theorem exists_move (hf : F.Staffed f) (hc : ¬F.Complete f) : ∃ m f', F.move f m = some f' := by
  obtain ⟨hfailed, hrest⟩ := not_or.1 hc
  have hfailed := Option.not_isSome_iff_eq_none.1 hfailed
  by_cases hall : ∀ task ∈ f.tasks, task.isOver = true
  · obtain ⟨hreceived, hchannel⟩ := not_or.1 (not_and.1 hrest hall)
    exact ⟨_, exists_receive hfailed hreceived hchannel⟩
  · obtain ⟨task, hmem, hover⟩ : ∃ task ∈ f.tasks, task.isOver = false := by simpa using hall
    obtain ⟨i, f', hf'⟩ := exists_run_of_not_over hf hmem hover
    exact ⟨_, f', hf'⟩

theorem exists_complete {f : State W} (hf : F.Staffed f) :
    ∃ moves, F.Complete (F.play f moves) := by
  by_cases hc : F.Complete f
  · exact ⟨[], hc⟩
  · obtain ⟨m, f', hm⟩ := exists_move hf hc
    have hless := less_of_moved hf (move_moved hm)
    obtain ⟨moves, h⟩ := exists_complete (hf.moved (move_moved hm))
    refine ⟨m :: moves, ?_⟩
    rw [play, List.foldl_cons, hm]
    exact h
termination_by work f
decreasing_by exact hless

end Fanout

/-- Every fan-out has an order that brings it to its end. -/
theorem Conductor.exists_fair (C : Conductor W) (p : Principal) (streaming : Bool) :
    ∃ S : Schedule W, C.Fair p S streaming := by
  have h step plan w := Fanout.exists_complete
    (Fanout.staffed_start (C.fanout p streaming step plan) w)
  exact ⟨fun step plan w => (h step plan w).choose, fun step plan w => (h step plan w).choose_spec⟩

end Tako.Orchestrator
