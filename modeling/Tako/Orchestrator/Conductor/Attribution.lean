import Tako.Orchestrator.Conductor.Results
import Tako.Orchestrator.Conductor.RoundTraces
import Tako.Orchestrator.Conductor.RunStream

/-!
# Whose result is whose

A worker's result is told to two readers: the stream, by an id that counts the results, and the
coordinator, by name and task. In `stream` both are right if and only if no worker's task panics
(`Conductor.attributes_iff`): a panicked task leaves no result, so that the results after it move
up. In `run` its result has another name and no task.
-/

namespace Tako.Orchestrator

open Traced

variable {W : Type}

namespace Conductor

variable {C : Conductor W} {p : Principal} {S : Schedule W}

/-! ## A round and its readers -/

/-- The coordinator is shown each dispatched task with its result, and fail-fast ends the run if a
worker has failed. -/
structure Attributes (C : Conductor W) (F : Fanout W) (f : Fanout.State W) (s : RunState)
    (dispatched : Except Failure (List WorkerResult))
    (ended : Except Failure (RunState ⊕ OrchOutput)) (result : Except Failure α) : Prop where
  shown : ∃ results, dispatched = .ok results ∧ F.Lists f results ∧
    ∀ s', ended = .ok (.inl s') → ∃ summary, renderWorkerResults C.codec results = some summary ∧
      s' = s.tell summary
  stops : C.failFast = true → (∃ task ∈ f.tasks, task.hasFailed = true) →
    ∃ err, result = .error (.error (C.failFastError err))

/-- Each task has a `ToolCallStart`, and one `ToolCallResult` of the same id, with its result. -/
def Pairs (F : Fanout W) (f : Fanout.State W) (trace : List (Party × Act W)) : Prop :=
  ∀ (i : Nat) (d : WorkerDispatch) (task : Task), F.plan[i]? = some d → f.tasks[i]? = some task →
    (.conductor, .yielded (.toolCallStart F.step s!"worker:{d.worker}" s!"step{F.step}-{i}")) ∈
      trace ∧
    ∃ r, Reports d task r ∧ trace.filterMap (toolCallResult? s!"step{F.step}-{i}") =
      [(F.step, r.toJson, r.err?.isSome)]

theorem report_run (C : Conductor W) (s : RunState) (results : List WorkerResult) (w : W) :
    (∀ s', ((C.report s results >>= fun s => pure (.inl s) :
        CM W (RunState ⊕ OrchOutput)).run w).result = .ok (.inl s') →
      ∃ summary, renderWorkerResults C.codec results = some summary ∧ s' = s.tell summary) ∧
    (C.failFast = true → (∃ r ∈ results, r.err?.isSome = true) →
      ∃ err, ((C.report s results >>= fun s => pure (.inl s) :
        CM W (RunState ⊕ OrchOutput)).run w).result = .error (.error (C.failFastError err))) := by
  unfold report
  split
  · next err _ => exact ⟨fun s' h => (nomatch h), fun _ _ => ⟨err, rfl⟩⟩
  · next hnone =>
    refine ⟨fun s' h => ?_, fun hfast ⟨r, hr, herr⟩ => ?_⟩
    · split at h
      · next summary hsummary =>
        cases h
        exact ⟨summary, hsummary, rfl⟩
      · cases h
    · rw [if_pos hfast, List.findSome?_eq_none_iff] at hnone
      rw [hnone r hr] at herr
      cases herr

theorem err?_of_reports (h : Reports d task r) (hfailed : task.hasFailed = true) :
    r.err?.isSome = true := by
  obtain ⟨-, -, h⟩ := h
  rw [WorkerResult.err?]
  cases task with
  | reported outcome =>
    rw [show r.outcome = outcome from h]
    cases outcome with
    | ok => cases hfailed
    | error => rfl
  | panicked =>
    obtain ⟨e, he⟩ := h
    rw [he]
    rfl
  | _ => cases hfailed

/-- A failed task is among the results if they list the tasks. -/
theorem exists_err_of_lists {F : Fanout W} {f : Fanout.State W} (h : F.Lists f results)
    (hlength : f.tasks.length = F.plan.length) (hmem : task ∈ f.tasks)
    (hfailed : task.hasFailed = true) : ∃ r ∈ results, r.err?.isSome = true := by
  obtain ⟨i, hi⟩ := List.mem_iff_getElem?.1 hmem
  have hlt := (List.getElem?_eq_some_iff.1 hi).1
  rw [hlength] at hlt
  have hr := List.getElem?_eq_getElem (h.1.symm ▸ hlt)
  have hreports := h.2 i _ task _ (List.getElem?_eq_getElem hlt) hi hr
  exact ⟨_, List.mem_of_getElem? hr, err?_of_reports hreports hfailed⟩

/-! ### In `run` -/

theorem round_attributes_iff {r : Round W} {result : Except Failure α} (hS : C.Fair p S false)
    (h : C.dispatched p r = some D)
    (hresult : ∀ e, ((C.round p S r.step r.state).run r.world).result = .error e →
      result = .error e) :
    Attributes C (C.fanout p false r.step D.plan) (fanoutOf C p S false r.step D) D.state
      ((C.dispatchWorkersStatic p S r.step D.plan).run D.world).result
      ((C.round p S r.step r.state).run r.world).result result ↔
    ∀ (i : Nat) (d : WorkerDispatch),
      (fanoutOf C p S false r.step D).tasks[i]? = some .panicked → D.plan[i]? = some d →
        d = Fanout.joinDispatch := by
  let F := C.fanout p false r.step D.plan
  let f := fanoutOf C p S false r.step D
  have ha : F.Accounted f := Fanout.accounted_play F D.world _
  have hquiet : Fanout.Quiet f := Fanout.quiet_play (F := F) rfl D.world _
  have hover : ∀ task ∈ f.tasks, task.isOver = true :=
    Fanout.isOver_of_complete hquiet.failed (hS r.step D.plan D.world)
  have hlists := Fanout.lists_joined_iff ha.tasks hover
  rw [round_run h, carryOut_run] at hresult ⊢
  obtain ⟨htold, hstops⟩ := report_run C D.state (F.joined f) f.world
  refine ⟨fun hattr => ?_, fun hjoin => ⟨?_, fun hfast ⟨task, hmem, hfailed⟩ => ?_⟩⟩
  · obtain ⟨results, hresults, hlisted, -⟩ := hattr.shown
    obtain rfl : F.joined f = results := Except.ok.inj hresults
    exact hlists.1 hlisted
  · exact ⟨F.joined f, rfl, hlists.2 hjoin, htold⟩
  · obtain ⟨err, herr⟩ :=
      hstops hfast (exists_err_of_lists (hlists.2 hjoin) ha.tasks hmem hfailed)
    exact ⟨err, hresult _ herr⟩

/-! ### In `stream` -/

theorem roundStreaming_attributes_iff {r : Round W} {result : Except Failure α}
    {trace : List (Party × Act W)} (hS : C.Fair p S true) (h : C.dispatched p r = some D)
    (hpass : C.GetsThrough p prompt r.step (fanoutOf C p S true r.step D))
    (hresult : ∀ e, ((C.roundStreaming p S prompt r.step r.state).run r.world).result = .error e →
      result = .error e)
    (hmem : ∀ t ∈ ((C.roundStreaming p S prompt r.step r.state).run r.world).trace, t ∈ trace)
    (htrace : ∀ i : Nat, trace.filterMap (toolCallResult? s!"step{r.step}-{i}") =
      ((C.roundStreaming p S prompt r.step r.state).run r.world).trace.filterMap
        (toolCallResult? s!"step{r.step}-{i}")) :
    Attributes C (C.fanout p true r.step D.plan) (fanoutOf C p S true r.step D) D.state
      ((C.dispatchWorkersStreaming p S r.step D.plan).run D.world).result
      ((C.roundStreaming p S prompt r.step r.state).run r.world).result result ∧
      Pairs (C.fanout p true r.step D.plan) (fanoutOf C p S true r.step D) trace ↔
    Fanout.NonePanicked (fanoutOf C p S true r.step D) := by
  let F := C.fanout p true r.step D.plan
  let f := fanoutOf C p S true r.step D
  have hf : F.Gathered f := Fanout.gathered_of_complete (Fanout.accounted_play F D.world _) rfl
    hpass.1 (hS r.step D.plan D.world)
  have hdispatch := congrArg Outcome.result (dispatchWorkersStreaming_run hpass.1)
  obtain ⟨hended, pre, hround, hpre⟩ := roundStreaming_run (S := S) h prompt
  obtain ⟨⟨w, hcarried⟩, hgiven, hstarts⟩ := carryOutStreaming_run hpass
  rw [hended, hcarried] at hresult ⊢
  obtain ⟨htold, hstops⟩ := report_run C D.state (Fanout.collected f) w
  have hresults (i : Nat) : trace.filterMap (toolCallResult? s!"step{r.step}-{i}") =
      ((Fanout.collected f)[i]?.map fun result =>
        (r.step, result.toJson, result.err?.isSome)).toList := by
    rw [htrace, hround, List.filterMap_append, hpre, List.nil_append, hgiven,
      ← filterMap_passedOn r.step _ i 0, Nat.zero_add]
  refine ⟨fun hattr => ?_, fun hnone => ⟨⟨?_, fun hfast ⟨task, hmem, hfailed⟩ => ?_⟩, ?_⟩⟩
  · obtain ⟨results, hresults, hlisted, -⟩ := hattr.1.shown
    obtain rfl : Fanout.collected f = results := Except.ok.inj (hdispatch.symm.trans hresults)
    exact hf.lists_iff.1 hlisted
  · exact ⟨_, hdispatch, hf.lists_iff.2 hnone, htold⟩
  · obtain ⟨err, herr⟩ :=
      hstops hfast (exists_err_of_lists (hf.lists_iff.2 hnone) hf.tasks hmem hfailed)
    exact ⟨err, hresult _ herr⟩
  · intro i d task hd hi
    refine ⟨hmem _ ?_, ?_⟩
    · rw [hround]
      refine List.mem_append_right _ (hstarts (d, i) ?_)
      exact List.mem_zipIdx_iff_getElem?.2 hd
    · obtain ⟨result, hget, hreports⟩ := hf.reported hnone hi hd
      refine ⟨result, hreports, ?_⟩
      rw [show (C.fanout p true r.step D.plan).step = r.step from rfl, hresults, hget]
      rfl

/-! ### In the whole run -/

theorem stream_attributes_iff (hS : C.Fair p S true)
    (hr : r ∈ C.roundsOfRun input (C.roundStreaming p S input.promptText) w)
    (hD : C.dispatched p r = some D)
    (hpass : C.GetsThrough p input.promptText r.step (fanoutOf C p S true r.step D)) :
    Attributes C (C.fanout p true r.step D.plan) (fanoutOf C p S true r.step D) D.state
      ((C.dispatchWorkersStreaming p S r.step D.plan).run D.world).result
      ((C.roundStreaming p S input.promptText r.step r.state).run r.world).result
      ((C.stream p S input).run w).result ∧
      Pairs (C.fanout p true r.step D.plan) (fanoutOf C p S true r.step D)
        ((C.stream p S input).run w).trace ↔
    Fanout.NonePanicked (fanoutOf C p S true r.step D) := by
  refine roundStreaming_attributes_iff hS hD hpass (fun e he => ?_) (fun t ht => ?_) fun i => ?_
  · exact congrArg Outcome.result (run_bind_error _ (rounds_error hr he))
  · exact mem_trace_bind _ (mem_rounds_trace hr ht)
  · rw [stream_trace]
    exact rounds_trace (roundStreaming_acts C p S _) hr i

/-- In every round of `stream` that no verifier cuts short, each result is given to whom it
belongs. -/
def AttributesInStream (C : Conductor W) (p : Principal) (S : Schedule W) (input : OrchInput)
    (w : W) : Prop :=
  ∀ r ∈ C.roundsOfRun input (C.roundStreaming p S input.promptText) w, ∀ D,
    C.dispatched p r = some D →
    C.GetsThrough p input.promptText r.step (fanoutOf C p S true r.step D) →
      Attributes C (C.fanout p true r.step D.plan) (fanoutOf C p S true r.step D) D.state
        ((C.dispatchWorkersStreaming p S r.step D.plan).run D.world).result
        ((C.roundStreaming p S input.promptText r.step r.state).run r.world).result
        ((C.stream p S input).run w).result ∧
      Pairs (C.fanout p true r.step D.plan) (fanoutOf C p S true r.step D)
        ((C.stream p S input).run w).trace

/-- In those rounds no worker's task panics. -/
def NonePanicsInStream (C : Conductor W) (p : Principal) (S : Schedule W) (input : OrchInput)
    (w : W) : Prop :=
  ∀ r ∈ C.roundsOfRun input (C.roundStreaming p S input.promptText) w, ∀ D,
    C.dispatched p r = some D →
    C.GetsThrough p input.promptText r.step (fanoutOf C p S true r.step D) →
      Fanout.NonePanicked (fanoutOf C p S true r.step D)

/-- In every round of `run`, each result is given to whom it belongs. -/
def AttributesInRun (C : Conductor W) (p : Principal) (S : Schedule W) (input : OrchInput)
    (w : W) : Prop :=
  ∀ r ∈ C.roundsOfRun input (C.round p S) w, ∀ D, C.dispatched p r = some D →
    Attributes C (C.fanout p false r.step D.plan) (fanoutOf C p S false r.step D) D.state
      ((C.dispatchWorkersStatic p S r.step D.plan).run D.world).result
      ((C.round p S r.step r.state).run r.world).result ((C.run p S input).run w).result

/-- No worker's task panics, but for one that a join error's result would fit. -/
def NonePanicsInRun (C : Conductor W) (p : Principal) (S : Schedule W) (input : OrchInput)
    (w : W) : Prop :=
  ∀ r ∈ C.roundsOfRun input (C.round p S) w, ∀ D, C.dispatched p r = some D →
    ∀ (i : Nat) (d : WorkerDispatch), (fanoutOf C p S false r.step D).tasks[i]? = some .panicked →
      D.plan[i]? = some d → d = Fanout.joinDispatch

/-- Every result is given to whom it belongs if and only if no worker's task panics. -/
theorem attributes_iff (C : Conductor W) (p : Principal) (S S' : Schedule W) (hS : C.Fair p S true)
    (hS' : C.Fair p S' false) (input : OrchInput) (w : W) :
    (AttributesInStream C p S input w ↔ NonePanicsInStream C p S input w) ∧
      (AttributesInRun C p S' input w ↔ NonePanicsInRun C p S' input w) :=
  ⟨forall₂_congr fun _ hr => forall₃_congr fun _ hD hpass => stream_attributes_iff hS hr hD hpass,
    forall₂_congr fun _ hr => forall₂_congr fun _ hD =>
      round_attributes_iff hS' hD fun _ he => rounds_error hr he⟩

/-! ## A sample -/

theorem getsThrough_of_no_verifier (hC : C.verifier = none) (prompt : String) (step : Nat)
    (D : Dispatch W) : C.GetsThrough p prompt step (fanoutOf C p S true step D) := by
  refine ⟨?_, ?_⟩
  · let F := C.fanout p true step D.plan
    refine Fanout.play_induction (F := F) (P := fun f => f.failed = none)
      (fun f f' hf h => ?_) rfl _
    cases h with
    | delta _ _ _ hrun =>
      rw [Fanout.scoreDelta, show F.conductor.verifier = none from hC] at hrun
      cases hrun
      rfl
    | _ => exact hf
  · generalize (fanoutOf C p S true step D).world = w
    generalize (Fanout.collected (fanoutOf C p S true step D)).zipIdx = entries
    induction entries generalizing w with
    | nil => rfl
    | cons entry entries ih =>
      change ((C.yieldResult p prompt step entry.2 entry.1 >>= fun _ => entries.forM fun entry =>
        C.yieldResult p prompt step entry.2 entry.1).run w).result = _
      have hentry : ((C.yieldResult p prompt step entry.2 entry.1).run w).result = .ok () := by
        rw [yieldResult, hC]
        rfl
      rw [run_bind_ok _ hentry]
      exact ih _

/-- Whatever the coordinator says is read as a plan for two workers. -/
def twoPlan : PlanCodec where
  debugDuration _ := ""
  debugStr s := s
  joinError _ := "task 1 panicked"
  planFromStr _ := .ok { dispatch := [⟨"solver", "first"⟩, ⟨"solver", "second"⟩] }

/-- One round with two tasks, which may panic. -/
def panicky : Conductor Nat :=
  { scored (.ok 1) with
    codec := twoPlan
    workers := [("solver", { doneWorker with mayPanic := true })]
    verifier := none }

/-- The first task panics in its call. -/
def firstPanics : List Fanout.Move := [.run 0, .run 0, .panic 0]

theorem panicked_play {F : Fanout W} {f : Fanout.State W} {i : Nat}
    (h : f.tasks[i]? = some .panicked) (moves : List Fanout.Move) :
    (F.play f moves).tasks[i]? = some .panicked := by
  refine Fanout.play_induction (P := fun f => f.tasks[i]? = some .panicked) (fun f f' hf h => ?_) h
    moves
  have hset {j : Nat} {task task' : Task} (hj : f.tasks[j]? = some task)
      (hover : task.isOver = false) : (f.tasks.set j task')[i]? = some .panicked := by
    by_cases hij : j = i
    · subst hij
      cases hj.symm.trans hf
      cases hover
    · rw [List.getElem?_set_ne hij, hf]
  cases h with
  | ran hi _ hover => exact hset hi hover
  | timedOut hi _ _ _ htimed | timedOutSending hi _ _ _ htimed =>
    exact hset hi (Task.isOver_of_isTimed htimed)
  | panicked hi _ _ _ hcall => exact hset hi (Task.isOver_of_inCall hcall)
  | delta | done => exact hf

theorem exists_fair_firstPanics (C : Conductor W) (p : Principal) (streaming : Bool) :
    ∃ S : Schedule W, C.Fair p S streaming ∧ ∀ step plan w, ∃ moves,
      C.played p S streaming step plan w = (C.fanout p streaming step plan).play
        ((C.fanout p streaming step plan).play ((C.fanout p streaming step plan).start w)
          firstPanics) moves := by
  have h step plan w := Fanout.exists_complete
    (Fanout.staffed_play (C.fanout p streaming step plan) w firstPanics)
  have hplay step plan w moves : (C.fanout p streaming step plan).play
      ((C.fanout p streaming step plan).start w) (firstPanics ++ moves) =
      (C.fanout p streaming step plan).play ((C.fanout p streaming step plan).play
        ((C.fanout p streaming step plan).start w) firstPanics) moves := List.foldl_append
  refine ⟨fun step plan w => firstPanics ++ (h step plan w).choose, fun step plan w => ?_,
    fun step plan w => ⟨_, hplay step plan w _⟩⟩
  rw [played, hplay]
  exact (h step plan w).choose_spec

theorem attributes_iff_panicky : ∃ S S',
    (AttributesInStream panicky Sample.acme S Sample.input 0 ↔
      NonePanicsInStream panicky Sample.acme S Sample.input 0) ∧
    (AttributesInRun panicky Sample.acme S' Sample.input 0 ↔
      NonePanicsInRun panicky Sample.acme S' Sample.input 0) := by
  obtain ⟨S, hS, -⟩ := panicky.exists_fair_firstPanics Sample.acme true
  obtain ⟨S', hS', -⟩ := panicky.exists_fair_firstPanics Sample.acme false
  exact ⟨S, S', attributes_iff panicky Sample.acme S S' hS hS' Sample.input 0⟩

/-- The first of two workers panics, and the stream takes the second's result for its own. -/
theorem panic_misattributes : ¬∀ (C : Conductor Nat) (p : Principal) (S : Schedule Nat)
    (input : OrchInput) (w : Nat), C.Fair p S true → AttributesInStream C p S input w := by
  intro h
  obtain ⟨S, hS, hfirst⟩ := panicky.exists_fair_firstPanics Sample.acme true
  let r : Round Nat := ⟨0, { messages := panicky.conversation Sample.input }, 0⟩
  let D : Dispatch Nat := ⟨r.state.answered Sample.done,
    [⟨"solver", "first"⟩, ⟨"solver", "second"⟩], 1⟩
  have hr : r ∈ panicky.roundsOfRun Sample.input
      (panicky.roundStreaming Sample.acme S Sample.input.promptText) 0 := List.mem_cons_self
  have hD : panicky.dispatched Sample.acme r = some D := rfl
  have hpass := getsThrough_of_no_verifier (C := panicky) (p := Sample.acme) (S := S) rfl
    Sample.input.promptText r.step D
  have hnone := (stream_attributes_iff hS hr hD hpass).1
    (h panicky Sample.acme S Sample.input 0 hS r hr D hD hpass)
  obtain ⟨moves, hplayed⟩ := hfirst r.step D.plan D.world
  have hpanicked : (fanoutOf panicky Sample.acme S true r.step D).tasks[0]? = some .panicked := by
    rw [fanoutOf, hplayed]
    exact panicked_play rfl moves
  exact hnone _ (List.mem_of_getElem? hpanicked) rfl

end Conductor

end Tako.Orchestrator
