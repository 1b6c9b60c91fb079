import Mathlib.Data.List.Chain
import Mathlib.Order.WellFounded
import Tako.Orchestrator.Conductor.Accounts

/-!
# The workers of a fan-out

No more workers than allowed are inside a provider's call, and each of them is heard of as it
should be: its texts grow, the last one is the completed text, and then comes its result, once.
-/

namespace Tako.Orchestrator

open Traced

variable {W : Type}

/-! ## What a worker sends -/

/-- The branch that a message is about. -/
def WorkerStreamEvent.branch : WorkerStreamEvent → Nat
  | .delta branch _ | .done branch _ => branch

/-- The second text goes on from the first. -/
def Grows (text text' : String) : Prop := ∃ t, t ≠ "" ∧ text' = text ++ t

/-- Texts that have grown up to one, if there are any. -/
def UpTo (texts : List String) (text : String) : Prop := texts = [] ∨ texts.getLast? = some text

/-- The texts that a task has sent before it comes to where it is. -/
def Task.Said (texts : List String) : Task → Prop
  | .waiting | .checking | .opening | .calling => texts = []
  | .receiving _ text => texts.getLast?.getD "" = text
  | .recording _ outcome | .ended outcome | .reported outcome =>
    ∀ text, outcome = .ok text → UpTo texts text
  | .panicked => True

theorem upTo_of_getD (h : texts.getLast?.getD "" = text) : UpTo texts text := by
  cases hlast : texts.getLast? with
  | none => exact .inl (List.getLast?_eq_none_iff.1 hlast)
  | some last =>
    rw [hlast] at h
    exact .inr (hlast.trans (congrArg some h))

theorem workerOutcome_ok (h : workerOutcome finishReason text = .ok text') : text' = text := by
  cases finishReason with
  | stop | toolCalls => exact (Except.ok.inj h).symm
  | _ => cases h

theorem Task.said_error (texts : List String) (e : String) :
    (Task.ended (.error e)).Said texts := fun _ h => nomatch h

theorem Task.said_outcome (h : UpTo texts text) :
    ∀ text', workerOutcome finishReason text = .ok text' → UpTo texts text' := by
  intro text' hok
  rw [workerOutcome_ok hok]
  exact h

namespace Fanout

variable {F : Fanout W}

/-- The last message of a task that has come to its end. -/
def doneEvents (F : Fanout W) (branch : Nat) (d : WorkerDispatch) : Task → List WorkerStreamEvent
  | .reported outcome => if F.streaming then [.done branch ⟨d.worker, d.task, outcome⟩] else []
  | _ => []

/-- What a step sends: texts that go on from those sent before, and then what `doneEvents` says. -/
def Speaks (F : Fanout W) (branch : Nat) (d : WorkerDispatch) (task task' : Task)
    (sent : List WorkerStreamEvent) : Prop :=
  ∀ texts, texts.IsChain Grows → task.Said texts → ∃ more, (texts ++ more).IsChain Grows ∧
    task'.Said (texts ++ more) ∧ sent = more.map (.delta branch) ++ F.doneEvents branch d task'

/-- A task gets its permit when it leaves `waiting`. -/
def Enters (worker : Option (Worker W)) (task task' : Task) : Prop :=
  task'.holdsPermit = true → task.holdsPermit = true ∨ task = .waiting ∧ worker.isSome = true

theorem Speaks.silent (hdone : F.doneEvents branch d task' = [])
    (h : ∀ texts, task.Said texts → task'.Said texts) : F.Speaks branch d task task' [] := by
  refine fun texts hchain hsaid => ⟨[], ?_, ?_, ?_⟩
  · rwa [List.append_nil]
  · rw [List.append_nil]
    exact h texts hsaid
  · rw [hdone]
    rfl

theorem call_said (F : Fanout W) (provider : LlmProvider W) :
    (F.call provider).Said texts ↔ texts = [] := by
  unfold call
  split <;> exact .rfl

theorem doneEvents_call (F : Fanout W) (branch : Nat) (d : WorkerDispatch)
    (provider : LlmProvider W) : F.doneEvents branch d (F.call provider) = [] := by
  unfold call
  split <;> rfl

theorem chain_snoc (hchain : texts.IsChain Grows) (hlast : texts.getLast?.getD "" = text)
    (ht : t ≠ "") : (texts ++ [text ++ t]).IsChain Grows := by
  refine List.isChain_append.2 ⟨hchain, .singleton _, fun x hx y hy => ?_⟩
  rw [Option.mem_def] at hx hy
  rw [hx] at hlast
  cases hy
  exact ⟨t, ht, by rw [← hlast]; rfl⟩

/-- A chunk with a text makes the text of the task grow. -/
theorem speaks_delta (F : Fanout W) (branch : Nat) (d : WorkerDispatch)
    (chunks chunks' : List (Result ChatChunk)) (text : String) (ht : t ≠ "") :
    F.Speaks branch d (.receiving chunks text) (.receiving chunks' (text ++ t))
      [.delta branch (text ++ t)] := by
  refine fun texts hchain hsaid => ⟨[text ++ t], chain_snoc hchain hsaid ht, ?_, rfl⟩
  simp [Task.Said]

theorem speaks_done (F : Fanout W) (branch : Nat) (d : WorkerDispatch)
    (outcome : Except String String) :
    F.Speaks branch d (.ended outcome) (.reported outcome)
      (if F.streaming then [.done branch ⟨d.worker, d.task, outcome⟩] else []) := by
  refine fun texts hchain hsaid => ⟨[], ?_, ?_, rfl⟩
  · rwa [List.append_nil]
  · rwa [List.append_nil]

theorem doneEvents_of_holdsPermit (F : Fanout W) (branch : Nat) (d : WorkerDispatch)
    (h : task.holdsPermit = true) : F.doneEvents branch d task = [] := by
  cases task with
  | reported => cases h
  | _ => rfl

theorem Edge.speaks (e : F.Edge branch d worker task task' events) (hover : task.isOver = false) :
    F.Speaks branch d task task' events := by
  cases e with
  | unknown | failed => exact .silent rfl fun _ _ => Task.said_error _ _
  | allowed => exact .silent (F.doneEvents_call _ _ _) fun _ h => (F.call_said _).2 h
  | opened =>
    refine .silent rfl fun texts h => ?_
    rw [Task.Said, show texts = [] from h]
    rfl
  | heard ht => exact F.speaks_delta _ _ _ _ _ ht
  | exhausted | finished => exact .silent rfl fun _ h => Task.said_outcome (upTo_of_getD h)
  | answered => exact .silent rfl fun _ h => Task.said_outcome (.inl h)
  | reported => exact F.speaks_done _ _ _
  | stuck hpermit => exact .silent (F.doneEvents_of_holdsPermit _ _ hpermit) fun _ h => h
  | idle hover' =>
    rw [hover] at hover'
    cases hover'
  | entered | declined | muted | recorded => exact .silent rfl fun _ h => h

theorem Edge.enters (e : F.Edge branch d worker task task' events) : Enters worker task task' := by
  cases e with
  | entered => exact fun _ => .inr ⟨rfl, rfl⟩
  | unknown | failed | recorded | reported =>
    intro h
    cases h
  | stuck | idle => exact .inl
  | _ => exact fun _ => .inl rfl

theorem taskStep_speaks (F : Fanout W) (branch : Nat) (d : WorkerDispatch)
    (worker : Option (Worker W)) (task : Task) :
    (F.taskStep branch d worker task).Ensures fun r _ => ∀ task' sent, r = .ok (task', sent) →
      task.isOver = false → F.Speaks branch d task task' sent ∧ Enters worker task task' := by
  refine Ensures.weaken (taskStep_edge F branch d worker task) ?_
  rintro r - ⟨task', sent, rfl, e⟩ _ _ hr hover
  cases hr
  exact ⟨e.speaks hover, e.enters⟩

/-! ## The history of a fan-out -/

/-- The messages that are sent in the course of the moves. -/
def messages (F : Fanout W) (f : State W) : List Move → List WorkerStreamEvent
  | [] => []
  | m :: moves =>
    match F.move f m with
    | none => messages F f moves
    | some f' => f'.channel.drop f.channel.length ++ messages F f' moves

/-- The messages of a branch. -/
def ofBranch (branch : Nat) (events : List WorkerStreamEvent) : List WorkerStreamEvent :=
  events.filter (·.branch = branch)

theorem ofBranch_append (branch : Nat) (events events' : List WorkerStreamEvent) :
    ofBranch branch (events ++ events') = ofBranch branch events ++ ofBranch branch events' :=
  List.filter_append ..

theorem ofBranch_self (h : ∀ event ∈ events, event.branch = branch) :
    ofBranch branch events = events :=
  List.filter_eq_self.2 fun event hevent => decide_eq_true (h event hevent)

theorem ofBranch_other (h : ∀ event ∈ events, event.branch = branch) (hne : branch ≠ branch') :
    ofBranch branch' events = [] :=
  List.filter_eq_nil_iff.2 fun event hevent => by simpa [h event hevent] using hne

theorem branch_doneEvents (F : Fanout W) (branch : Nat) (d : WorkerDispatch) (task : Task) :
    ∀ event ∈ F.doneEvents branch d task, event.branch = branch := by
  intro event h
  cases task with
  | reported outcome =>
    rw [doneEvents] at h
    split at h
    · rw [List.mem_singleton.1 h]
      rfl
    · cases h
  | _ => cases h

theorem doneEvents_eq_nil (F : Fanout W) (branch : Nat) (d : WorkerDispatch)
    (h : task.isOver = false) : F.doneEvents branch d task = [] := by
  cases task with
  | reported => cases h
  | _ => rfl

/-- The permits are kept to, and each task has sent what belongs to where it is. -/
structure Spoken (F : Fanout W) (f : State W) (history : List WorkerStreamEvent) : Prop where
  length : f.tasks.length = F.plan.length
  permits : f.tasks.countP Task.holdsPermit ≤ F.conductor.maxFanout
  channel : f.channel <:+ history
  said : ∀ (i : Nat) (task : Task) (d : WorkerDispatch), f.tasks[i]? = some task →
    F.plan[i]? = some d → ∃ texts, texts.IsChain Grows ∧ task.Said texts ∧
      ofBranch (i + 1) history = texts.map (.delta (i + 1)) ++ F.doneEvents (i + 1) d task

theorem spoken_start (F : Fanout W) (w : W) : F.Spoken (F.start w) [] where
  length := by simp [start]
  permits := by simp [start, List.countP_replicate, Task.holdsPermit]
  channel := List.suffix_rfl
  said i task d hi _ := by
    simp only [start, List.getElem?_map, Option.map_eq_some_iff] at hi
    obtain ⟨_, -, rfl⟩ := hi
    exact ⟨[], .nil, rfl, rfl⟩

/-- A task keeps its permit, or takes one that is free. -/
theorem permits_set {tasks : List Task} (hi : tasks[i]? = some task)
    (hle : tasks.countP Task.holdsPermit ≤ permits)
    (hpermit : task'.holdsPermit = true →
      task.holdsPermit = true ∨ tasks.countP Task.holdsPermit < permits) :
    (tasks.set i task').countP Task.holdsPermit ≤ permits := by
  obtain ⟨hlt, hget⟩ := List.getElem?_eq_some_iff.1 hi
  rw [List.countP_set hlt, hget]
  cases hnew : task'.holdsPermit with
  | false => exact Nat.le_trans (Nat.sub_le _ _) hle
  | true =>
    rcases hpermit hnew with hold | hfree
    · have hpos : 0 < tasks.countP Task.holdsPermit :=
        List.countP_pos_iff.2 ⟨task, List.mem_of_getElem? hi, hold⟩
      rw [if_pos hold, if_pos rfl, Nat.sub_add_cancel hpos]
      exact hle
    · rw [if_pos rfl]
      exact Nat.le_trans (Nat.add_le_add_right (Nat.sub_le _ _) 1) hfree

/-- Task `i` goes from `task` to `task'` and sends some messages. -/
theorem Spoken.set {events : List WorkerStreamEvent} (hf : F.Spoken f history)
    (hi : f.tasks[i]? = some task) (hd : F.plan[i]? = some d) (hover : task.isOver = false)
    (hspeaks : F.Speaks (i + 1) d task task' events)
    (hpermit : task'.holdsPermit = true → task.holdsPermit = true ∨ F.permitFree f = true)
    (htasks : f'.tasks = f.tasks.set i task') (hchannel : f'.channel = f.channel ++ events) :
    F.Spoken f' (history ++ events) := by
  obtain ⟨texts, hchain, hsaid, hhistory⟩ := hf.said i task d hi hd
  obtain ⟨more, hchain, hsaid, hevents⟩ := hspeaks texts hchain hsaid
  have hbranch : ∀ event ∈ events, event.branch = i + 1 := by
    rw [hevents]
    exact List.forall_mem_append.2
      ⟨List.forall_mem_map.2 fun _ _ => rfl, F.branch_doneEvents _ _ _⟩
  refine ⟨by rw [htasks, List.length_set, hf.length], ?_, ?_, fun j taskj dj hj hdj => ?_⟩
  · rw [htasks]
    refine permits_set hi hf.permits fun hnew => (hpermit hnew).imp_right fun hfree => ?_
    simpa [permitFree] using hfree
  · rw [hchannel]
    obtain ⟨before, hbefore⟩ := hf.channel
    exact ⟨before, by rw [← hbefore, List.append_assoc]⟩
  · have hlt : i < f.tasks.length := (List.getElem?_eq_some_iff.1 hi).1
    rw [htasks, List.getElem?_set, if_pos hlt] at hj
    rw [ofBranch_append]
    split at hj
    · next hij =>
      subst hij
      cases hj
      cases hd.symm.trans hdj
      refine ⟨texts ++ more, hchain, hsaid, ?_⟩
      rw [hhistory, F.doneEvents_eq_nil _ _ hover, List.append_nil, ofBranch_self hbranch, hevents,
        List.map_append, List.append_assoc]
    · next hij =>
      obtain ⟨texts, hchain, hsaid, hhistory⟩ := hf.said j taskj dj hj hdj
      refine ⟨texts, hchain, hsaid, ?_⟩
      rw [hhistory, ofBranch_other hbranch (by omega), List.append_nil]

theorem speaks_error (F : Fanout W) (branch : Nat) (d : WorkerDispatch) (task : Task)
    (e : String) : F.Speaks branch d task (.ended (.error e)) [] :=
  .silent rfl fun _ _ => Task.said_error _ _

theorem speaks_panicked (F : Fanout W) (branch : Nat) (d : WorkerDispatch) (task : Task) :
    F.Speaks branch d task .panicked [] := .silent rfl fun _ _ => trivial

theorem Spoken.moved (hf : F.Spoken f history) (h : Moved F f f') :
    F.Spoken f' (history ++ f'.channel.drop f.channel.length) := by
  have htake {event : WorkerStreamEvent} {channel : List WorkerStreamEvent}
      (hchannel : f.channel = event :: channel) :
      channel.drop f.channel.length = [] := by
    rw [hchannel]
    exact List.drop_eq_nil_of_le (Nat.le_succ _)
  have hrest {event : WorkerStreamEvent} {channel : List WorkerStreamEvent}
      (hchannel : f.channel = event :: channel) : channel <:+ history :=
    (hchannel ▸ List.suffix_cons event channel).trans hf.channel
  cases h with
  | ran hi hd hover hpermit hstep =>
    have hspeaks := taskStep_speaks F _ _ _ _ f.world _ _ (by rw [hstep])
    obtain ⟨hspeaks, henters⟩ := hspeaks hover
    rw [List.drop_left]
    refine hf.set hi hd hover hspeaks (fun h => ?_) rfl rfl
    exact (henters h).imp_right fun ⟨hwaiting, hsome⟩ => hpermit hwaiting hsome
  | timedOut hi hd _ _ htimed | timedOutSending hi hd _ _ htimed =>
    rw [List.drop_length]
    exact hf.set hi hd (Task.isOver_of_isTimed htimed) (F.speaks_error _ _ _ _)
      (fun h => by cases h) rfl (List.append_nil _).symm
  | panicked hi hd _ _ hcall =>
    rw [List.drop_length]
    exact hf.set hi hd (Task.isOver_of_inCall hcall) (F.speaks_panicked _ _ _)
      (fun h => by cases h) rfl (List.append_nil _).symm
  | delta _ _ hchannel | done _ _ hchannel =>
    rw [htake hchannel, List.append_nil]
    exact ⟨hf.length, hf.permits, hrest hchannel, hf.said⟩

theorem spoken_play (hf : F.Spoken f history) (moves : List Move) :
    F.Spoken (F.play f moves) (history ++ F.messages f moves) := by
  induction moves generalizing f history with
  | nil =>
    rw [messages, List.append_nil]
    exact hf
  | cons m moves ih =>
    rw [play, List.foldl_cons, messages]
    cases hm : F.move f m with
    | none => exact ih hf
    | some f' =>
      have h := ih (hf.moved (move_moved hm))
      rwa [List.append_assoc] at h

/-! ## All fan-outs -/

/-- Texts that grow, at last up to the completed text, and then the worker's result. -/
def Orderly (branch : Nat) (d : WorkerDispatch) (events : List WorkerStreamEvent) : Prop :=
  ∃ texts, texts.IsChain Grows ∧
    (events = texts.map (.delta branch) ∨
      ∃ outcome, events = texts.map (.delta branch) ++ [.done branch ⟨d.worker, d.task, outcome⟩] ∧
        ∀ text, outcome = .ok text → UpTo texts text)

/-- The task for `d` has come to its result: it has sent it once, or is joined with it. -/
def Finished (F : Fanout W) (f : State W) (history : List WorkerStreamEvent) (i : Nat)
    (d : WorkerDispatch) : Prop :=
  ∃ outcome, f.tasks[i]? = some (.reported outcome) ∧
    if F.streaming then
      (ofBranch (i + 1) history).filterMap WorkerStreamEvent.done? =
        [(i + 1, ⟨d.worker, d.task, outcome⟩)]
    else (F.joined f)[i]? = some ⟨d.worker, d.task, outcome⟩

theorem Spoken.orderly (hf : F.Spoken f history) (hd : F.plan[i]? = some d) :
    Orderly (i + 1) d (ofBranch (i + 1) history) := by
  have hlt := (List.getElem?_eq_some_iff.1 hd).1
  rw [← hf.length] at hlt
  obtain ⟨texts, hchain, hsaid, hhistory⟩ := hf.said i _ d (List.getElem?_eq_getElem hlt) hd
  refine ⟨texts, hchain, ?_⟩
  rw [hhistory]
  cases htask : f.tasks[i] with
  | reported outcome =>
    rw [htask] at hsaid
    rw [doneEvents]
    split
    · exact .inr ⟨outcome, rfl, hsaid⟩
    · exact .inl (List.append_nil _)
  | _ => exact .inl (List.append_nil _)

theorem Spoken.finished (hf : F.Spoken f history) (hd : F.plan[i]? = some d)
    (hi : f.tasks[i]? = some (.reported outcome)) : F.Finished f history i d := by
  refine ⟨outcome, hi, ?_⟩
  split
  · next hs =>
    obtain ⟨texts, -, -, hhistory⟩ := hf.said i _ d hi hd
    have htexts : (texts.map (.delta (i + 1))).filterMap WorkerStreamEvent.done? = [] :=
      List.filterMap_eq_nil_iff.2 (List.forall_mem_map.2 fun _ _ => rfl)
    rw [hhistory, doneEvents, if_pos hs, List.filterMap_append, htexts]
    rfl
  · exact joined_getElem? hi hd

theorem isOver_of_stuck (hf : F.Staffed f) (h : ∀ m, F.move f m = none) :
    ∀ task ∈ f.tasks, task.isOver = true := by
  intro task hmem
  by_contra hover
  obtain ⟨i, f', hf'⟩ := exists_run_of_not_over hf hmem (Bool.eq_false_iff.2 hover)
  rw [h] at hf'
  cases hf'

theorem not_forever (hf : F.Staffed f) (g : Nat → State W) (h0 : g 0 = f) :
    ¬∀ n, ∃ m, F.move (g n) m = some (g (n + 1)) := by
  intro h
  have hmoved (n : Nat) : Moved F (g n) (g (n + 1)) := (h n).elim fun _ => move_moved
  have hstaffed (n : Nat) : F.Staffed (g n) := by
    induction n with
    | zero => rwa [h0]
    | succ n ih => exact ih.moved (hmoved n)
  have hwf : WellFounded (Prod.Lex (· < · : Nat → Nat → Prop) (· < · : Nat → Nat → Prop)) :=
    (Prod.lex Nat.lt_wfRel Nat.lt_wfRel).wf
  exact (wellFounded_iff_isEmpty_descending_chain.1 hwf).false
    ⟨fun n => work (g n), fun n => less_of_moved (hstaffed n) (hmoved n)⟩

/-- Over every run of a fan-out: no more calls than allowed, each branch in order, and when nothing
can move any more, each worker that has not panicked has come to its one result. No run goes on
forever. -/
theorem workers_conform (F : Fanout W) (w : W) :
    (∀ moves : List Move,
      let f := F.play (F.start w) moves
      let history := F.messages (F.start w) moves
      f.tasks.countP Task.inCall ≤ F.conductor.maxFanout ∧
        (∀ i d, F.plan[i]? = some d → Orderly (i + 1) d (ofBranch (i + 1) history)) ∧
        ((∀ m, F.move f m = none) → ∀ i d, F.plan[i]? = some d →
          f.tasks[i]? ≠ some .panicked → F.Finished f history i d)) ∧
    ∀ g : Nat → State W, g 0 = F.start w → ¬∀ n, ∃ m, F.move (g n) m = some (g (n + 1)) := by
  refine ⟨fun moves => ?_, not_forever (staffed_start F w)⟩
  have hf := spoken_play (spoken_start F w) moves
  rw [List.nil_append] at hf
  refine ⟨?_, fun i d => hf.orderly, fun hstuck i d hd hpanicked => ?_⟩
  · refine Nat.le_trans (List.countP_mono_left fun task _ h => ?_) hf.permits
    cases task with
    | opening | receiving | calling => rfl
    | _ => cases h
  · have hlt := (List.getElem?_eq_some_iff.1 hd).1
    rw [← hf.length] at hlt
    have hi := List.getElem?_eq_getElem hlt
    have hover := isOver_of_stuck (staffed_play F w moves) hstuck _ (List.getElem_mem hlt)
    rcases Task.isOver_cases hover with ⟨outcome, htask⟩ | htask
    · exact hf.finished hd (hi.trans (congrArg some htask))
    · exact absurd (hi.trans (congrArg some htask)) hpanicked

end Fanout

end Tako.Orchestrator
