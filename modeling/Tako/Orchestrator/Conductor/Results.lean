import Tako.Orchestrator.Conductor.Accounts

/-!
# The results of a fan-out

At the end of a fan-out the joined results of `run`, and those that `stream` has collected, list each
dispatched task with its own result, but for tasks that have panicked.
-/

namespace Tako.Orchestrator

variable {W : Type}

/-! ## Results and tasks -/

/-- The worker has not done its task. -/
def Task.hasFailed : Task → Bool
  | .reported (.error _) | .panicked => true
  | _ => false

/-- `r` says what has become of the task for `d`. The text for a panic is left open. -/
def Reports (d : WorkerDispatch) (task : Task) (r : WorkerResult) : Prop :=
  r.name = d.worker ∧ r.task = d.task ∧
    match task with
    | .reported outcome => r.outcome = outcome
    | .panicked => ∃ e, r.outcome = .error e
    | _ => False

namespace Fanout

variable {F : Fanout W} {f f' : State W} {i : Nat}

/-- The results list each dispatched task with its own. -/
def Lists (F : Fanout W) (f : State W) (results : List WorkerResult) : Prop :=
  results.length = F.plan.length ∧ ∀ (i : Nat) (d : WorkerDispatch) (task : Task)
    (r : WorkerResult), F.plan[i]? = some d → f.tasks[i]? = some task → results[i]? = some r →
      Reports d task r

/-- No worker's task has panicked. -/
def NonePanicked (f : State W) : Prop := ∀ task ∈ f.tasks, task ≠ .panicked

/-- Without a stream nothing is sent. -/
structure Quiet (f : State W) : Prop where
  tasks : ∀ task ∈ f.tasks, task.IsPlain
  channel : f.channel = []
  failed : f.failed = none

theorem Quiet.moved (hs : F.streaming = false) (hf : Quiet f) (h : Moved F f f') : Quiet f' := by
  have hset {i : Nat} {task : Task} (htask : task.IsPlain) :
      ∀ task' ∈ f.tasks.set i task, task'.IsPlain := fun task' hmem =>
    (List.mem_or_eq_of_mem_set hmem).elim (hf.tasks task') fun h => h ▸ htask
  cases h with
  | ran hi _ hover _ hstep =>
    obtain ⟨task', events, hok, hadv⟩ := taskStep_advances F _ _ _ _ f.world
    rw [hstep] at hok
    cases hok
    obtain ⟨hplain, rfl⟩ := (hadv hover).plain hs (hf.tasks _ (List.mem_of_getElem? hi))
    exact ⟨hset hplain, by rw [hf.channel]; rfl, hf.failed⟩
  | timedOut | timedOutSending | panicked => exact ⟨hset trivial, hf.channel, hf.failed⟩
  | delta _ _ hchannel | done _ _ hchannel =>
    rw [hf.channel] at hchannel
    cases hchannel

theorem quiet_play (hs : F.streaming = false) (w : W) (moves : List Move) :
    Quiet (F.play (F.start w) moves) := by
  refine play_induction (fun _ _ => Quiet.moved hs) ⟨fun task h => ?_, rfl, rfl⟩ moves
  obtain ⟨_, -, rfl⟩ := List.mem_map.1 h
  trivial

/-! ## The joined results -/

theorem isOver_of_complete (hfailed : f.failed = none) (hc : F.Complete f) :
    ∀ task ∈ f.tasks, task.isOver = true := by
  rcases hc with hc | ⟨hall, -⟩
  · rw [hfailed] at hc
    cases hc
  · exact hall

/-- A dispatch that a join error's result would fit. -/
def joinDispatch : WorkerDispatch := ⟨"<join>", ""⟩

theorem lists_joined_iff (hlength : f.tasks.length = F.plan.length)
    (hover : ∀ task ∈ f.tasks, task.isOver = true) :
    F.Lists f (F.joined f) ↔
      ∀ (i : Nat) (d : WorkerDispatch), f.tasks[i]? = some .panicked → F.plan[i]? = some d →
        d = joinDispatch := by
  refine ⟨fun h i d hi hd => ?_, fun h => ⟨by simp [joined, hlength], ?_⟩⟩
  · obtain ⟨hname, htask, -⟩ := h.2 i d _ _ hd hi (joined_getElem? hi hd)
    obtain ⟨worker, task⟩ := d
    exact congrArg₂ WorkerDispatch.mk hname.symm htask.symm
  · intro i d task r hd hi hr
    rw [joined_getElem? hi hd] at hr
    cases hr
    rcases Task.isOver_cases (hover task (List.mem_of_getElem? hi)) with ⟨outcome, rfl⟩ | rfl
    · exact ⟨rfl, rfl, rfl⟩
    · rw [h i d hi hd]
      exact ⟨rfl, rfl, _, rfl⟩

/-! ## The collected results -/

theorem slot_of_panicked (ha : F.Accounted f) (hi : f.tasks[i]? = some .panicked)
    (hslots : ∀ i : Nat, i < F.plan.length → f.slots[i]? = some (F.reported f i)) :
    f.slots[i]? = some none := by
  have hlt := (List.getElem?_eq_some_iff.1 hi).1
  rw [ha.tasks] at hlt
  rw [hslots i hlt, Fanout.reported, hi, List.getElem?_eq_getElem hlt]
  rfl

theorem collected_length_lt (h : f.slots[i]? = some none) :
    (collected f).length < f.slots.length := by
  have hmem := List.mem_of_getElem? h
  refine Nat.lt_of_le_of_ne (List.length_filterMap_le _ _) fun heq => ?_
  have hall := List.filterMap_length_eq_length.1 heq none hmem
  cases hall

/-- If every slot is filled, the results are in their slots. -/
theorem getElem?_collected (h : ∀ slot ∈ f.slots, slot.isSome = true) (i : Nat) :
    (collected f)[i]? = f.slots[i]?.join := by
  rw [collected]
  generalize f.slots = slots at h
  induction slots generalizing i with
  | nil => rfl
  | cons slot slots ih =>
    obtain ⟨r, rfl⟩ := Option.isSome_iff_exists.1 (h slot List.mem_cons_self)
    cases i with
    | zero => rfl
    | succ i => exact ih i fun slot hslot => h slot (List.mem_cons_of_mem _ hslot)

/-- A fan-out whose results are all in. -/
structure Gathered (F : Fanout W) (f : State W) : Prop extends F.Accounted f where
  isOver : ∀ task ∈ f.tasks, task.isOver = true
  gathered : ∀ i : Nat, i < F.plan.length → f.slots[i]? = some (F.reported f i)

theorem gathered_of_complete (ha : F.Accounted f) (hs : F.streaming = true)
    (hfailed : f.failed = none) (hc : F.Complete f) : F.Gathered f where
  toAccounted := ha
  isOver := isOver_of_complete hfailed hc
  gathered _ := slots_eq_of_complete ha hs hfailed hc

theorem Gathered.reported (hf : F.Gathered f) (hnone : NonePanicked f)
    (hi : f.tasks[i]? = some task) (hd : F.plan[i]? = some d) :
    ∃ r, (collected f)[i]? = some r ∧ Reports d task r := by
  have hslots (slot : Option WorkerResult) (hmem : slot ∈ f.slots) : slot.isSome = true := by
    obtain ⟨j, hj⟩ := List.mem_iff_getElem?.1 hmem
    have hlt := (List.getElem?_eq_some_iff.1 hj).1
    have htask := List.getElem?_eq_getElem (hf.tasks.symm ▸ hf.slots ▸ hlt)
    rw [hf.gathered j (hf.slots ▸ hlt), Fanout.reported, htask,
      List.getElem?_eq_getElem (hf.slots ▸ hlt)] at hj
    obtain rfl := Option.some.inj hj
    have hmem := List.mem_of_getElem? htask
    rcases Task.isOver_cases (hf.isOver _ hmem) with ⟨outcome, h⟩ | h
    · rw [h]
      rfl
    · exact absurd h (hnone _ hmem)
  have hlt := (List.getElem?_eq_some_iff.1 hd).1
  rw [getElem?_collected hslots, hf.gathered i hlt, Fanout.reported, hi, hd]
  have hmem := List.mem_of_getElem? hi
  rcases Task.isOver_cases (hf.isOver _ hmem) with ⟨outcome, rfl⟩ | rfl
  · exact ⟨_, rfl, rfl, rfl, rfl⟩
  · exact absurd rfl (hnone _ hmem)

/-- A panicked task leaves the conductor with fewer results than tasks. -/
theorem Gathered.lt_of_panicked (hf : F.Gathered f) (h : ¬NonePanicked f) :
    (collected f).length < F.plan.length := by
  obtain ⟨task, hmem, htask⟩ : ∃ task ∈ f.tasks, task = .panicked := by simpa [NonePanicked] using h
  obtain ⟨i, hi⟩ := List.mem_iff_getElem?.1 hmem
  subst htask
  rw [← hf.slots]
  exact collected_length_lt (slot_of_panicked hf.toAccounted hi hf.gathered)

theorem Gathered.lists_iff (hf : F.Gathered f) : F.Lists f (collected f) ↔ NonePanicked f := by
  refine ⟨fun h => ?_, fun h => ⟨?_, fun i d task r hd hi hr => ?_⟩⟩
  · by_contra hnot
    exact Nat.ne_of_lt (hf.lt_of_panicked hnot) h.1
  · have hle : (collected f).length ≤ F.plan.length := hf.slots ▸ List.length_filterMap_le _ _
    refine Nat.le_antisymm hle (Nat.le_of_not_lt fun hlt => ?_)
    have hd := List.getElem?_eq_getElem hlt
    have hi := List.getElem?_eq_getElem (hf.tasks.symm ▸ hlt)
    obtain ⟨r, hr, -⟩ := hf.reported h hi hd
    exact Nat.lt_irrefl _ (List.getElem?_eq_some_iff.1 hr).1
  · obtain ⟨r', hr', hreports⟩ := hf.reported h hi hd
    cases hr.symm.trans hr'
    exact hreports

end Fanout

end Tako.Orchestrator
