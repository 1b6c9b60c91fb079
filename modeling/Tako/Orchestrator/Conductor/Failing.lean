import Tako.Orchestrator.Conductor.Moves

/-!
# Workers that cannot succeed

A worker whose stream has an error, or an end that does not count as a success, never comes to a
text, in whatever order things happen.
-/

namespace Tako.Orchestrator

open Traced

variable {W : Type}

/-- The stream comes to an error, or to an end that does not count as a success. -/
def EndsBadly : List (Result ChatChunk) → Prop
  | [] => False
  | .ok (.delta _ _) :: chunks => EndsBadly chunks
  | .ok (.end finishReason _) :: _ => finishReason ≠ .stop ∧ finishReason ≠ .toolCalls
  | .ok (.error _) :: _ | .error _ :: _ => True

namespace Task

/-- What the task has come to. -/
def outcome? : Task → Option (Except String String)
  | .recording _ outcome | .ended outcome | .reported outcome => some outcome
  | _ => none

/-- The task can come to nothing but an error. -/
def Fails : Task → Prop
  | .receiving chunks _ => EndsBadly chunks
  | .recording _ outcome | .ended outcome | .reported outcome => ∃ e, outcome = .error e
  | .panicked => True
  | _ => False

theorem Fails.isError {task : Task} (h : task.Fails) (ho : task.outcome? = some outcome) :
    ∃ e, outcome = .error e := by
  cases task with
  | recording | ended | reported =>
    cases ho
    exact h
  | _ => cases ho

end Task

theorem workerOutcome_error (h : finishReason ≠ .stop ∧ finishReason ≠ .toolCalls)
    (text : String) : ∃ e, workerOutcome finishReason text = .error e := by
  cases finishReason with
  | stop => exact absurd rfl h.1
  | toolCalls => exact absurd rfl h.2
  | _ => exact ⟨_, rfl⟩

namespace Fanout

variable {F : Fanout W} {f f' : State W}

theorem Edge.fails (e : F.Edge branch d worker task task' events) (h : task.Fails) :
    task'.Fails := by
  cases e with
  | unknown | entered | allowed | opened | declined | exhausted | answered => exact h.elim
  | finished => exact workerOutcome_error h _
  | failed => exact ⟨_, rfl⟩
  | muted | heard | recorded | reported | stuck | idle => exact h

theorem taskStep_fails (F : Fanout W) (branch : Nat) (d : WorkerDispatch)
    (worker : Option (Worker W)) {task : Task} (h : task.Fails) :
    (F.taskStep branch d worker task).Ensures fun r _ =>
      ∀ task' sent, r = .ok (task', sent) → task'.Fails := by
  refine Ensures.weaken (taskStep_edge F branch d worker task) ?_
  rintro r - ⟨task', sent, rfl, e⟩ _ _ hr
  cases hr
  exact e.fails h

/-- Task `i`, if there is one, can come to nothing but an error. -/
def FailsAt (i : Nat) (f : State W) : Prop := ∀ task, f.tasks[i]? = some task → task.Fails

theorem FailsAt.set (hf : FailsAt i f) (h : i = j → next.Fails) :
    ∀ task, (f.tasks.set j next)[i]? = some task → task.Fails := by
  intro task hi
  rw [List.getElem?_set] at hi
  split at hi
  · next heq =>
    split at hi
    · cases hi
      exact h heq.symm
    · cases hi
  · exact hf task hi

theorem FailsAt.moved (hf : FailsAt i f) (h : Moved F f f') : FailsAt i f' := by
  cases h with
  | ran hi _ _ _ hstep =>
    exact hf.set fun heq =>
      taskStep_fails F _ _ _ (hf _ (heq ▸ hi)) f.world _ _ (by rw [hstep])
  | timedOut | timedOutSending => exact hf.set fun _ => ⟨_, rfl⟩
  | panicked => exact hf.set fun _ => trivial
  | delta | done => exact hf

/-- Once it cannot succeed, a worker does not succeed. -/
theorem failsAt_play (hi : f.tasks[i]? = some task) (h : task.Fails) (moves : List Move) :
    FailsAt i (F.play f moves) := by
  refine play_induction (fun _ _ => FailsAt.moved) (fun task' hi' => ?_) moves
  rw [hi] at hi'
  cases hi'
  exact h

end Fanout

end Tako.Orchestrator
