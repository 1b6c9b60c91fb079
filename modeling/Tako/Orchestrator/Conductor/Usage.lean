import Tako.Orchestrator.Usage
import Tako.Orchestrator.Conductor.RunStream

/-!
# The usage of a conductor's run

The output of a run has the usage of the coordinator's calls, also if workers were called
(`tako-orchestrator/src/conductor.rs`). That is the usage of all calls if and only if the workers'
calls add nothing to it (`Conductor.usage_complete_iff`).
-/

namespace Tako.Orchestrator

open Traced

variable {W : Type}

/-! ## Whose usage -/

def coordinatorUsage : Party × Act W → Option Usage
  | (.conductor, a) => a.usage
  | (.worker _, _) => none

def workerUsage : Party × Act W → Option Usage
  | (.conductor, _) => none
  | (.worker _, a) => a.usage

/-- The usage of all provider calls in a trace. -/
def totalUsage (l : List (Party × Act W)) : Usage := .sum (l.filterMap fun t => t.2.usage)

theorem totalUsage_eq (l : List (Party × Act W)) :
    totalUsage l = (Usage.sum (l.filterMap coordinatorUsage)).add
      (.sum (l.filterMap workerUsage)) := by
  refine Usage.sum_split (fun t => ?_) l
  obtain ⟨party, a⟩ := t
  cases party with
  | conductor => exact .inr ⟨rfl, rfl⟩
  | worker => exact .inl ⟨rfl, rfl⟩

/-- The output of one who counts the coordinator's calls has the usage of all calls exactly if the
workers' calls add nothing. -/
theorem usage_eq_totalUsage_iff {l : List (Party × Act W)} {usage : Usage}
    (h : usage = .sum (l.filterMap coordinatorUsage)) :
    usage = totalUsage l ↔
      (Usage.sum (l.filterMap coordinatorUsage)).Absorbs (.sum (l.filterMap workerUsage)) := by
  rw [h, totalUsage_eq, ← Usage.add_eq_left_iff]
  exact eq_comm

namespace RunState

@[simp] theorem answered_usage (s : RunState) (resp : ChatResponse) :
    (s.answered resp).usage = s.usage.add resp.usage := rfl

@[simp] theorem tell_usage (s : RunState) (text : String) : (s.tell text).usage = s.usage := rfl

@[simp] theorem output_usage (s : RunState) (text : String) : (s.output text).usage = s.usage := rfl

end RunState

/-! ## The coordinator's account -/

namespace Conductor

/-- The usage with which a run goes on, or ends. -/
def accountOf : RunState ⊕ OrchOutput → Usage
  | .inl s => s.usage
  | .inr output => output.usage

/-- A computation whose value carries the usage of the coordinator's calls. -/
abbrev Accounts (usage : Usage) (g : α → Usage) (x : CM W α) : Prop :=
  Tallied coordinatorUsage Usage.add usage g x

/-- A computation in which the coordinator is not called. -/
abbrev Idle (x : CM W α) : Prop := x.Acts fun t => coordinatorUsage t = none

variable (C : Conductor W) (p : Principal) (S : Schedule W)

theorem ask_accounts (messages : List Message) (usage : Usage) :
    Accounts usage (fun resp => usage.add resp.usage) (byConductor (C.ask p messages)) := by
  refine .embed (.silent_bind (Loop.preCheck_acts (fun _ _ _ => rfl) _ _ _ _) fun _ => ?_)
  refine .bind (g := fun resp : ChatResponse => usage.add resp.usage) (.call fun _ resp h => ?_)
    fun resp => ?_
  · rfl
  · exact .silent_bind (Loop.record_acts (fun _ _ _ => rfl) _ _ _ _) fun _ => .pure rfl

theorem played_idle (streaming : Bool) (step : Nat) (plan : List WorkerDispatch) (w : W) :
    ∀ t ∈ (C.played p S streaming step plan w).trace, coordinatorUsage t = none :=
  play_acts (fun _ _ => rfl) (fun _ _ => rfl) (C.fanout p streaming step plan) (fun _ _ => rfl) w _

theorem yield_idle (e : OrchEvent) : Idle (byConductor (yield e : M W Unit)) := .embed (.emit rfl)

theorem yieldResult_idle (prompt : String) (step idx : Nat) (r : WorkerResult) :
    (C.yieldResult p prompt step idx r).Acts fun t => coordinatorUsage (.conductor, t) = none :=
  yieldResult_acts C p prompt step idx r rfl (fun _ _ => rfl) fun _ _ => rfl

theorem report_accounts (s : RunState) (results : List WorkerResult) :
    Accounts s.usage RunState.usage (C.report s results) := by
  unfold report
  split
  · exact .throw _
  · split
    · exact .pure rfl
    · exact .throw _

theorem report_go_on_accounts (s : RunState) (results : List WorkerResult) :
    Accounts s.usage accountOf (C.report s results >>= fun s => pure (.inl s)) :=
  .bind (report_accounts C s results) fun _ => .pure rfl

theorem round_accounts (step : Nat) (s : RunState) :
    Accounts s.usage accountOf (C.round p S step s) := by
  refine .bind (ask_accounts C p _ _) fun resp => ?_
  dsimp only
  split
  · exact .pure rfl
  · split
    · exact .pure rfl
    · split
      · exact .pure rfl
      · exact .silent_bind (fun w => played_idle C p S false _ _ w) fun results =>
          report_go_on_accounts C (s.answered resp) results

theorem roundStreaming_accounts (prompt : String) (step : Nat) (s : RunState) :
    Accounts s.usage accountOf (C.roundStreaming p S prompt step s) := by
  refine .silent_bind (yield_idle _) fun _ => .bind (ask_accounts C p _ _) fun resp =>
    .silent_bind ?_ fun _ => ?_
  · split
    · exact .embed (.pure _)
    · exact yield_idle _
  · dsimp only
    split
    · exact .pure rfl
    · split
      · exact .pure rfl
      · split
        · exact .pure rfl
        · refine .silent_bind (.embed (.forM (fun _ => ?_) _)) fun _ =>
            .silent_bind (fun w => played_idle C p S true _ _ w) fun results =>
              .silent_bind (.embed (.forM (fun _ => yieldResult_idle C p _ _ _ _) _)) fun _ =>
                report_go_on_accounts C (s.answered resp) results
          exact .emit rfl

theorem rounds_accounts {round : Nat → RunState → CM W (RunState ⊕ OrchOutput)}
    (h : ∀ step s, Accounts s.usage accountOf (round step s)) (n step : Nat) (s : RunState) :
    Accounts s.usage OrchOutput.usage (rounds round n step s) := by
  induction n generalizing step s with
  | zero => exact .pure rfl
  | succ n ih =>
    refine .bind (h step s) fun next => ?_
    cases next with
    | inl s => exact ih _ _
    | inr output => exact .pure rfl

theorem run_usage (input : OrchInput) (w : W) (output : OrchOutput)
    (h : ((C.run p S input).run w).result = .ok output) :
    output.usage = .sum (((C.run p S input).run w).trace.filterMap coordinatorUsage) :=
  rounds_accounts (round_accounts C p S) C.maxSteps 0 { messages := C.conversation input } w output
    h

theorem stream_usage (input : OrchInput) (w : W) (output : OrchOutput)
    (h : (.conductor, .yielded (.final output)) ∈ ((C.stream p S input).run w).trace) :
    output.usage = .sum (((C.stream p S input).run w).trace.filterMap coordinatorUsage) := by
  have hgoes := rounds_goesOn (roundStreaming_goesOn C p S input.promptText) C.maxSteps 0
    { messages := C.conversation input } w
  have hacc := rounds_accounts (roundStreaming_accounts C p S input.promptText) C.maxSteps 0
    { messages := C.conversation input } w
  unfold stream at h ⊢
  cases hr : ((rounds (C.roundStreaming p S input.promptText) C.maxSteps 0
      { messages := C.conversation input }).run w).result with
  | ok out =>
    rw [run_bind_ok _ hr] at h ⊢
    rcases List.mem_append.1 h with h | h
    · exact nomatch hgoes _ h
    · cases List.mem_singleton.1 h
      rw [List.filterMap_append]
      exact (hacc _ hr).trans (congrArg Usage.sum (List.append_nil _).symm)
  | error failure =>
    rw [run_bind_error _ hr] at h
    exact nomatch hgoes _ h

/-! ## The usage of all calls -/

/-- The workers' calls add nothing to the usage of the coordinator's. -/
def WorkersAddNothing (l : List (Party × Act W)) : Prop :=
  (Usage.sum (l.filterMap coordinatorUsage)).Absorbs (.sum (l.filterMap workerUsage))

/-- The output of a run, and that of a stream's `Final` event, have the usage of all provider calls
exactly if the workers' calls add nothing to it. -/
theorem usage_complete_iff (input : OrchInput) (w : W) (output : OrchOutput) :
    (((C.run p S input).run w).result = .ok output →
      (output.usage = totalUsage ((C.run p S input).run w).trace ↔
        WorkersAddNothing ((C.run p S input).run w).trace)) ∧
    ((.conductor, .yielded (.final output)) ∈ ((C.stream p S input).run w).trace →
      (output.usage = totalUsage ((C.stream p S input).run w).trace ↔
        WorkersAddNothing ((C.stream p S input).run w).trace)) :=
  ⟨fun h => usage_eq_totalUsage_iff (run_usage C p S input w output h),
    fun h => usage_eq_totalUsage_iff (stream_usage C p S input w output h)⟩

/-- A stream that succeeds has a `Final` event. -/
theorem exists_final (input : OrchInput) (w : W)
    (h : ((C.stream p S input).run w).result.isOk = true) :
    ∃ output, (.conductor, .yielded (.final output)) ∈ ((C.stream p S input).run w).trace := by
  unfold stream at h ⊢
  cases hr : ((rounds (C.roundStreaming p S input.promptText) C.maxSteps 0
      { messages := C.conversation input }).run w).result with
  | ok out =>
    rw [run_bind_ok _ hr]
    exact ⟨out, List.mem_append_right _ (List.mem_singleton.2 rfl)⟩
  | error failure =>
    rw [run_bind_error _ hr] at h
    cases h

/-- One round with one worker, whose answer reports no tokens; the coordinator's reports seven. -/
def quiet : Conductor Nat :=
  { scored (.ok 1) with
    coordinator := Sample.scripted fun _ => some { Sample.done with usage := ⟨4, 3⟩ } }

/-- The first worker of a round is run to its end. -/
def firstAlone : Schedule Nat := fun _ _ _ => List.replicate 9 (.run 0)

theorem quiet_usage_complete :
    (∃ output, ((quiet.run Sample.acme firstAlone Sample.input).run 0).result = .ok output ∧
      output.usage = totalUsage ((quiet.run Sample.acme firstAlone Sample.input).run 0).trace ∧
      ((quiet.run Sample.acme firstAlone Sample.input).run 0).trace.filterMap workerUsage = [{}]) ∧
    ∃ output,
      (.conductor, .yielded (.final output)) ∈
        ((quiet.stream Sample.acme firstAlone Sample.input).run 0).trace ∧
      output.usage =
        totalUsage ((quiet.stream Sample.acme firstAlone Sample.input).run 0).trace ∧
      ((quiet.stream Sample.acme firstAlone Sample.input).run 0).trace.filterMap workerUsage =
        [{}] := by
  have hrun : ((quiet.run Sample.acme firstAlone Sample.input).run 0).trace.filterMap workerUsage =
      [{}] := by decide +kernel
  have hstream : ((quiet.stream Sample.acme firstAlone Sample.input).run 0).trace.filterMap
      workerUsage = [{}] := by decide +kernel
  have hadds {l : List (Party × Act Nat)} (h : l.filterMap workerUsage = [{}]) :
      WorkersAddNothing l := by
    rw [WorkersAddNothing, h]
    exact ⟨.inl rfl, .inl rfl⟩
  have hok : ((quiet.run Sample.acme firstAlone Sample.input).run 0).result.isOk = true := by
    decide +kernel
  constructor
  · cases hr : ((quiet.run Sample.acme firstAlone Sample.input).run 0).result with
    | error e =>
      rw [hr] at hok
      cases hok
    | ok output =>
      exact ⟨output, rfl, ((usage_complete_iff quiet Sample.acme firstAlone Sample.input 0
        output).1 hr).2 (hadds hrun), hrun⟩
  · obtain ⟨output, houtput⟩ := exists_final quiet Sample.acme firstAlone Sample.input 0
      (by decide +kernel)
    exact ⟨output, houtput, ((usage_complete_iff quiet Sample.acme firstAlone Sample.input 0
      output).2 houtput).2 (hadds hstream), hstream⟩

/-- One round with one worker, whose answer reports twelve tokens. -/
def delegating : Conductor Nat :=
  { scored (.ok 1) with
    workers := [("solver",
      { provider := Sample.scripted fun _ => some { Sample.done with usage := ⟨10, 2⟩ } })]
    verifier := none }

/-- The one worker does all of its steps. -/
theorem exists_fair_worker : ∃ S : Schedule Nat, delegating.Fair Sample.acme S false ∧
    ∀ w, S 0 [⟨"solver", "hi"⟩] w = List.replicate 5 (.run 0) := by
  obtain ⟨S, hS⟩ := delegating.exists_fair Sample.acme false
  let moves : List Fanout.Move := List.replicate 5 (.run 0)
  refine ⟨fun step plan w => if plan = [⟨"solver", "hi"⟩] then moves else S step plan w,
    fun step plan w => ?_, fun w => if_pos rfl⟩
  by_cases hplan : plan = [⟨"solver", "hi"⟩]
  · subst hplan
    rw [played, if_pos rfl]
    exact .inr ⟨List.forall_mem_singleton.2 rfl, .inr rfl⟩
  · rw [played, if_neg hplan]
    exact hS step plan w

theorem round_delegating {S : Schedule Nat}
    (hS : S 0 [⟨"solver", "hi"⟩] 1 = List.replicate 5 (.run 0)) (s : RunState) :
    ((delegating.round Sample.acme S 0 s).run 0).result =
        .ok (.inl ((s.answered Sample.done).tell scoredSummary)) ∧
      totalUsage ((delegating.round Sample.acme S 0 s).run 0).trace = ⟨10, 2⟩ := by
  let F := delegating.fanout Sample.acme false 0 [⟨"solver", "hi"⟩]
  let f := F.play (F.start 1) (List.replicate 5 (.run 0))
  have hdispatch : (delegating.dispatchWorkersStatic Sample.acme S 0 [⟨"solver", "hi"⟩]).run 1 =
      ⟨.ok [⟨"solver", "hi", .ok "done"⟩], f.world, f.trace⟩ := by
    unfold dispatchWorkersStatic played
    dsimp only
    rw [hS]
    rfl
  have hreport : delegating.report (s.answered Sample.done) [⟨"solver", "hi", .ok "done"⟩] =
      pure ((s.answered Sample.done).tell scoredSummary) := report_scored (.ok 1) _
  have hround : (delegating.round Sample.acme S 0 s).run 0 =
      andThen ⟨.ok Sample.done, 1, [(.conductor, .chat "sample:model"
        (ChatRequest.new "model" s.messages) (.ok Sample.done))]⟩ fun _ =>
        delegating.dispatchWorkersStatic Sample.acme S 0 [⟨"solver", "hi"⟩] >>= fun results =>
          delegating.report (s.answered Sample.done) results >>= fun s =>
            (pure (.inl s) : CM Nat (RunState ⊕ OrchOutput)) := rfl
  rw [hround, andThen]
  dsimp only
  rw [run_bind_ok _ (congrArg Outcome.result hdispatch), hdispatch, hreport]
  have husage : totalUsage f.trace = ⟨10, 2⟩ := by decide +kernel
  clear_value f
  refine ⟨rfl, ?_⟩
  have hfirst : totalUsage ([(.conductor, .chat "sample:model" (ChatRequest.new "model" s.messages)
      (.ok Sample.done))] ++ (f.trace ++ [])) = Usage.add {} (totalUsage f.trace) := by
    rw [List.append_nil]
    exact Usage.sum_cons _ _
  exact hfirst.trans (by rw [husage]; rfl)

/-- What a worker's answer reports is in no output. -/
theorem worker_usage_lost : ¬∀ (C : Conductor Nat) (p : Principal) (S : Schedule Nat)
    (input : OrchInput) (w : Nat) (output : OrchOutput), C.Fair p S false →
    ((C.run p S input).run w).result = .ok output →
      output.usage = totalUsage ((C.run p S input).run w).trace := by
  intro h
  obtain ⟨S, hS, hmoves⟩ := exists_fair_worker
  obtain ⟨hresult, htotal⟩ := round_delegating (hmoves 1)
    { messages := delegating.conversation Sample.input }
  have hrun : (delegating.run Sample.acme S Sample.input).run 0 =
      ((rounds (delegating.round Sample.acme S) 1 0
        { messages := delegating.conversation Sample.input }).run 0) := rfl
  rw [rounds, run_bind_ok _ hresult] at hrun
  have heq := h delegating Sample.acme S Sample.input 0 _ hS (congrArg Outcome.result hrun)
  rw [hrun] at heq
  simp only [rounds, run_pure, List.append_nil, htotal] at heq
  cases heq

end Conductor

end Tako.Orchestrator
