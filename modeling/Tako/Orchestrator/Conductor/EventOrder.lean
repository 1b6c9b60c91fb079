import Tako.Orchestrator.EventOrder
import Tako.Orchestrator.Conductor.Attribution
import Tako.Orchestrator.Conductor.Texts

/-!
# The order of a conductor's events

`Conductor::stream` yields the calls of a whole plan before the first of their results. Whatever the
order in which its workers take their steps, the results are those of the first calls, in their
order, and none is missing unless a worker's task panics (`Conductor.stream_keeps_event_order`).
-/

namespace Tako.Orchestrator

open Traced

variable {W : Type}

/-- A step of its own does not make a task panic. -/
theorem Fanout.Edge.ne_panicked {F : Fanout W} {worker : Option (Worker W)} {task task' : Task}
    {sent : List WorkerStreamEvent} (e : F.Edge branch d worker task task' sent)
    (hover : task.isOver = false) :
    task' ≠ .panicked := by
  cases e with
  | allowed =>
    unfold Fanout.call
    split <;> exact fun h => nomatch h
  | stuck hpermit =>
    rintro rfl
    cases hpermit
  | idle hover' =>
    rw [hover] at hover'
    cases hover'
  | _ => exact fun h => nomatch h

namespace Conductor

/-- The automaton on what conductor and workers do. -/
def act (R : EventRules) (s : Progress) : Party × Act W → Option Progress
  | (.conductor, a) => s.act R a
  | (.worker _, _) => some s

theorem foldlM_act (R : EventRules) (trace : List (Party × Act W)) (s : Progress) :
    trace.foldlM (act R) s = (trace.filterMap conductorEvent).foldlM (Progress.next R) s := by
  rw [List.foldlM_filterMap]
  congr 1
  funext s t
  obtain ⟨party, a⟩ := t
  cases party with
  | conductor =>
    cases a with
    | yielded e => rfl
    | _ => rfl
  | worker branch => rfl

/-- From `s` on, the events of `x` are in order. -/
abbrev Conducts (R : EventRules) (s : Progress) (x : CM W α) (Q : α → Progress → Prop) : Prop :=
  Guided (act R) (·.closed = false) s x Q

namespace Conducts

variable {R : EventRules} {s s' : Progress}

/-- A first part of the conductor that yields no event. -/
theorem after {x : M W α} {f : α → CM W β} {P : β → Progress → Prop} (hs : s.closed = false)
    (h : x.Acts fun t => ¬t.IsYield) (hf : ∀ a, Conducts R s (f a) P) :
    Conducts R s (byConductor x >>= f) P :=
  Guided.seq (.embed (.of_acts (h.weaken fun _ _ hl t ht =>
    Progress.act_of_not_yield R s (hl t ht)) hs)) hf

theorem yield {e : OrchEvent} (h : s.next R e = some s') :
    Conducts (W := W) R s (byConductor (Orchestrator.yield e)) fun _ t => t = s' :=
  .embed (.emit h rfl)

end Conducts

/-! ## Calls and results -/

/-- The ids of `n` calls of a round. -/
def callIds (step k n : Nat) : List String := (List.range' k n).map fun idx => s!"step{step}-{idx}"

/-- In a round, with the calls from the `k`th on waiting for their results. -/
def awaiting (step k n : Nat) : Progress := { begun := step + 1, due := callIds step k n }

theorem callIds_succ (step k n : Nat) :
    callIds step k (n + 1) = s!"step{step}-{k}" :: callIds step (k + 1) n := rfl

variable {R : EventRules} {C : Conductor W} {p : Principal} {S : Schedule W}

theorem starts_orderly (hR : R.concurrent = true) (step k : Nat) (due : List String)
    (plan : List WorkerDispatch) :
    Guided (Progress.act R) (·.closed = false) { begun := step + 1, due }
      ((plan.zipIdx k).forM fun entry => (yield (startEvent step entry) : M W Unit))
      fun _ s => s = { begun := step + 1, due := due ++ callIds step k plan.length } := by
  induction plan generalizing k due with
  | nil => exact .pure (by simp [callIds])
  | cons d plan ih =>
    have hnext : Progress.next R { begun := step + 1, due } (startEvent step (d, k)) =
        some { begun := step + 1, due := due ++ [s!"step{step}-{k}"] } := by
      simp [Progress.next, startEvent, hR]
    refine Guided.seq (Guided.emit hnext rfl) fun _ => ?_
    refine (ih (k + 1) _).weaken fun _ s hs => ?_
    rw [hs, List.append_assoc]
    rfl

theorem yieldResult_orderly (prompt : String) (step k n : Nat) (r : WorkerResult) :
    Guided (Progress.act R) (·.closed = false) (awaiting step k (n + 1))
      (C.yieldResult p prompt step k r) fun _ s => s = awaiting step (k + 1) n := by
  have hnext : (awaiting step k (n + 1)).next R
      (.toolCallResult step s!"step{step}-{k}" r.toJson r.err?.isSome) =
      some (awaiting step (k + 1) n) := by
    simp [Progress.next, awaiting, callIds_succ]
  refine Guided.seq (Guided.emit hnext rfl) fun _ => ?_
  split
  · refine Guided.seq (.of_acts (.call fun _ => rfl) rfl) fun score => ?_
    have hscored : Progress.act R (awaiting step (k + 1) n)
        (.yielded (.verifierScore step (k + 1) (clampUnit score)) : Act W) =
        some (awaiting step (k + 1) n) := by
      simp [Progress.act, Progress.next, awaiting]
    exact Guided.emit hscored rfl
  · exact .pure rfl

/-- The results are given to the calls one after the other. -/
theorem results_orderly (prompt : String) (step k n : Nat) (results : List WorkerResult)
    (h : results.length ≤ n) :
    Guided (Progress.act R) (·.closed = false) (awaiting step k n)
      ((results.zipIdx k).forM fun entry => C.yieldResult p prompt step entry.2 entry.1)
      fun _ s => s = awaiting step (k + results.length) (n - results.length) := by
  induction results generalizing k n with
  | nil => exact .pure rfl
  | cons r results ih =>
    cases n with
    | zero => cases h
    | succ n =>
      refine Guided.seq (yieldResult_orderly prompt step k n r) fun _ => ?_
      refine (ih (k + 1) n (Nat.le_of_succ_le_succ h)).weaken fun _ s hs => ?_
      rw [hs, List.length_cons, Nat.add_sub_add_right, Nat.add_right_comm, Nat.add_assoc]

/-! ## The fan-out -/

/-- The runtime brings every fan-out to its end, and no worker's task may panic. -/
def Reliable (C : Conductor W) (p : Principal) (S : Schedule W) : Prop :=
  C.Fair p S true ∧ ∀ entry ∈ C.workers, entry.2.mayPanic = false

theorem nonePanicked_play (h : ∀ entry ∈ C.workers, entry.2.mayPanic = false) (step : Nat)
    (plan : List WorkerDispatch) (w : W) :
    Fanout.NonePanicked (C.played p S true step plan w) := by
  have hset {f : Fanout.State W} {t : Task} (i : Nat) (hf : Fanout.NonePanicked f)
      (ht : t ≠ .panicked) : ∀ task ∈ f.tasks.set i t, task ≠ .panicked := by
    intro task hmem
    rcases List.mem_or_eq_of_mem_set hmem with hmem | rfl
    · exact hf task hmem
    · exact ht
  refine Fanout.play_induction (P := fun f => Fanout.NonePanicked f) (fun f f' hf hmove => ?_) ?_ _
  · cases hmove with
    | ran hi _ hover _ hstep =>
      refine hset _ hf fun htask => ?_
      obtain ⟨task', sent, hr, e⟩ :=
        Fanout.taskStep_edge (C.fanout p true step plan) _ _ _ _ f.world
      rw [hstep] at hr
      obtain ⟨rfl, rfl⟩ := Prod.mk.inj (Except.ok.inj hr)
      exact e.ne_panicked hover htask
    | timedOut | timedOutSending => exact hset _ hf fun h => nomatch h
    | panicked _ _ hworker hmay _ =>
      obtain ⟨entry, hentry, rfl⟩ := Option.map_eq_some_iff.1 hworker
      rw [h entry (List.mem_of_find?_eq_some hentry)] at hmay
      cases hmay
    | delta | done => exact hf
  · intro task ht
    obtain ⟨-, -, rfl⟩ := List.mem_map.1 ht
    nofun

/-- The fan-out yields scores only. It has no more results than calls, and as many if it is
reliable. -/
theorem dispatchWorkersStreaming_conducts {s : Progress} {step : Nat} (plan : List WorkerDispatch)
    (hstep : s.begun = step + 1) (hs : s.closed = false) :
    Conducts R s (C.dispatchWorkersStreaming p S step plan) fun results s' =>
      s' = s ∧ results.length ≤ plan.length ∧
        (C.Reliable p S → results.length = plan.length) := by
  intro w
  let F := C.fanout p true step plan
  let f := C.played p S true step plan w
  have hacts : (C.dispatchWorkersStreaming p S step plan).Acts fun t => act R s t = some s := by
    intro w
    refine play_acts (fun _ _ => rfl) (fun _ _ => rfl) F (fun branch score => ?_) w _
    simp [act, Progress.act, Progress.next, hs, hstep, F, fanout]
  obtain ⟨s', hm, rfl⟩ := Monitored.of_acts hacts w
  refine ⟨s', hm, ?_⟩
  have ha : F.Accounted f := Fanout.accounted_play F w _
  have hle : (Fanout.collected f).length ≤ plan.length := ha.slots ▸ List.length_filterMap_le _ _
  unfold dispatchWorkersStreaming
  cases hfailed : f.failed with
  | some e =>
    simp only [show (C.played p S true step plan w).failed = some e from hfailed]
    exact hs
  | none =>
    simp only [show (C.played p S true step plan w).failed = none from hfailed]
    refine ⟨rfl, hle, fun hreliable => ?_⟩
    have hf := Fanout.gathered_of_complete ha rfl hfailed (hreliable.1 step plan w)
    exact (hf.lists_iff.2 (nonePanicked_play hreliable.2 step plan w)).1

/-! ## The rounds -/

/-- Between two rounds. -/
def Progress.Rests (R : EventRules) (n : Nat) (s : Progress) : Prop :=
  s.begun = n ∧ s.closed = false ∧ s.Settled R

theorem carryOutStreaming_conducts (hR : R.concurrent = true)
    (hlossy : R.lossy = true ∨ C.Reliable p S) (prompt : String) (step : Nat) (D : Dispatch W) :
    Conducts R (.during (step + 1)) (C.carryOutStreaming p S prompt step D)
      fun _ s => Progress.Rests R (step + 1) s := by
  refine Guided.seq (.embed (starts_orderly hR step 0 [] D.plan)) fun _ => ?_
  refine Guided.bind (dispatchWorkersStreaming_conducts D.plan rfl rfl) fun results s hs => ?_
  obtain ⟨rfl, hle, hall⟩ := hs
  refine Guided.seq (.embed (results_orderly prompt step 0 D.plan.length results hle)) fun _ => ?_
  have hrests : Progress.Rests R (step + 1)
      (awaiting step (0 + results.length) (D.plan.length - results.length)) := by
    refine ⟨rfl, rfl, hlossy.imp id fun hreliable => ?_⟩
    rw [hall hreliable, Nat.sub_self]
    rfl
  refine Guided.bind (.of_acts (report_acts C D.state results) rfl) fun s' t ht => ?_
  exact .pure (ht ▸ hrests)

theorem roundStreaming_conducts (hR : R.concurrent = true)
    (hlossy : R.lossy = true ∨ C.Reliable p S) (prompt : String) {step : Nat}
    (hstep : step < R.limit) (s : RunState) {t : Progress} (ht : Progress.Rests R step t) :
    Conducts R t (C.roundStreaming p S prompt step s)
      fun _ t' => Progress.Rests R (step + 1) t' := by
  have hrests : Progress.Rests R (step + 1) (.during (step + 1)) := ⟨rfl, rfl, .inr rfl⟩
  unfold roundStreaming
  have hnext : t.next R (.stepStart step) = some (.during (step + 1)) := by
    obtain ⟨hbegun, hopen, hsettled⟩ := ht
    simp [Progress.next, Progress.during, hbegun, hopen, hsettled, hstep]
  refine Guided.seq (Conducts.yield hnext) fun _ => ?_
  refine Conducts.after rfl (ask_acts (fun _ h => h) C p s.messages) fun resp => ?_
  dsimp only
  have htext : Conducts R (.during (step + 1)) (byConductor (W := W)
      (if resp.message.text = "" then pure () else yield (.assistantText step resp.message.text)))
      fun _ t => t = .during (step + 1) := by
    split
    · exact .embed (.pure rfl)
    · exact Conducts.yield (Progress.next_assistantText R step _)
  refine htext.seq fun _ => ?_
  split
  · exact .pure hrests
  next plan _ =>
    split
    · exact .pure hrests
    · split
      · exact .pure hrests
      · exact fun w => carryOutStreaming_conducts hR hlossy prompt step
          ⟨s.answered resp, plan.dispatch, w⟩ w

theorem rounds_conducts (hR : R.concurrent = true) (hlossy : R.lossy = true ∨ C.Reliable p S)
    (prompt : String) {n step : Nat} (hle : step + n ≤ R.limit) (s : RunState) {t : Progress}
    (ht : Progress.Rests R step t) :
    Conducts R t (rounds (C.roundStreaming p S prompt) n step s)
      fun _ t' => t'.closed = false ∧ t'.Settled R := by
  induction n generalizing step s t with
  | zero => exact .pure ht.2
  | succ n ih =>
    refine Guided.bind (roundStreaming_conducts hR hlossy prompt (by omega) s ht) fun r t' ht' => ?_
    cases r with
    | inl s' => exact ih (by omega) s' ht'
    | inr output => exact .pure ht'.2

theorem stream_inOrder (hR : R.concurrent = true) (hlimit : C.maxSteps ≤ R.limit)
    (hlossy : R.lossy = true ∨ C.Reliable p S) (input : OrchInput) (w : W) :
    InOrder R (((C.stream p S input).run w).trace.filterMap conductorEvent)
      ((C.stream p S input).run w).result.isOk := by
  have hle : 0 + C.maxSteps ≤ R.limit := by omega
  obtain ⟨s, hm, hends⟩ := rounds_conducts hR hlossy input.promptText hle
    { messages := C.conversation input } (t := {}) ⟨rfl, rfl, .inr rfl⟩ w
  have hconcurrent : s.Answered R := fun h => by simp [hR] at h
  unfold stream
  cases hr : ((rounds (C.roundStreaming p S input.promptText) C.maxSteps 0
      { messages := C.conversation input }).run w).result with
  | ok output =>
    rw [hr] at hends
    obtain ⟨hopen, hsettled⟩ : s.closed = false ∧ s.Settled R := hends
    rw [run_bind_ok _ hr]
    refine ⟨{ begun := s.begun, closed := true }, ?_, fun _ => rfl, rfl⟩
    have hnext : s.next R (.final output) = some { begun := s.begun, closed := true } := by
      simp [Progress.next, hopen, hsettled]
    rw [← foldlM_act, List.foldlM_append, hm]
    exact congrArg (· >>= pure) hnext
  | error e =>
    rw [hr] at hends
    rw [run_bind_error _ hr]
    exact ⟨s, by rw [← foldlM_act, hm], hconcurrent, hends⟩

/-- Every stream of a conductor keeps its events in order, in whatever order the workers take their
steps: the rounds are 0, 1, 2, …, the results of a round are those of its first calls, in their
order, and the final output comes last and only if the stream succeeds. If no worker's task may
panic and every fan-out comes to its end, then each call of a finished round has its result. -/
theorem stream_keeps_event_order (C : Conductor W) (p : Principal) (S : Schedule W)
    (input : OrchInput) (w : W) :
    InOrder { limit := C.maxSteps, concurrent := true, lossy := true }
        (((C.stream p S input).run w).trace.filterMap conductorEvent)
        ((C.stream p S input).run w).result.isOk ∧
      (C.Reliable p S → InOrder { limit := C.maxSteps, concurrent := true }
        (((C.stream p S input).run w).trace.filterMap conductorEvent)
        ((C.stream p S input).run w).result.isOk) :=
  ⟨stream_inOrder rfl (Nat.le_refl _) (.inl rfl) input w,
    fun h => stream_inOrder rfl (Nat.le_refl _) (.inr h) input w⟩

/-- `panicky`, whose worker does not panic after all. -/
def steady : Conductor Nat :=
  { panicky with workers := [("solver", { provider := Sample.scripted Sample.toolThenDone })] }

theorem stream_keeps_event_order_steady : ∃ S : Schedule Nat,
    InOrder { limit := steady.maxSteps, concurrent := true }
      (((steady.stream Sample.acme S Sample.input).run 0).trace.filterMap conductorEvent)
      ((steady.stream Sample.acme S Sample.input).run 0).result.isOk := by
  obtain ⟨S, hS⟩ := exists_fair steady Sample.acme true
  have hworkers : ∀ entry ∈ steady.workers, entry.2.mayPanic = false := by simp [steady]
  exact ⟨S, (stream_keeps_event_order steady Sample.acme S Sample.input 0).2 ⟨hS, hworkers⟩⟩

end Conductor

end Tako.Orchestrator
