import Tako.Orchestrator.Conductor.Moves

/-!
# No result of a fan-out is lost

Whatever the providers do and in whatever order, the result of a task that has reported is in the
channel or in the task's slot (`Fanout.Accounted`), and at the end in its slot
(`Fanout.slots_eq_of_complete`).
-/

namespace Tako.Orchestrator

variable {W : Type}

/-- The task has sent its result. -/
def Task.isReported : Task → Bool
  | .reported _ => true
  | _ => false

namespace Fanout

variable {F : Fanout W} {f f' : State W}

/-- The result of the task for `d`, once it has reported. -/
def resultOf (d : WorkerDispatch) : Task → Option WorkerResult
  | .reported outcome => some ⟨d.worker, d.task, outcome⟩
  | _ => none

theorem resultOf_eq_none (d : WorkerDispatch) (h : task.isOver = false) :
    resultOf d task = none := by
  cases task with
  | reported => cases h
  | _ => rfl

theorem resultOf_isSome (d : WorkerDispatch) (task : Task) :
    (resultOf d task).isSome = task.isReported := by
  cases task <;> rfl

theorem doneOf_eq (F : Fanout W) (branch : Nat) (d : WorkerDispatch) (task : Task)
    (h : F.streaming = true) :
    F.doneOf branch d task = ((resultOf d task).map (branch, ·)).toList := by
  cases task with
  | reported outcome => simp [doneOf, resultOf, h]
  | _ => rfl

/-- The result of task `i`, once it has reported. -/
def reported (F : Fanout W) (f : State W) (i : Nat) : Option WorkerResult :=
  match f.tasks[i]?, F.plan[i]? with
  | some task, some d => resultOf d task
  | _, _ => none

theorem joined_getElem? {i : Nat} (hi : f.tasks[i]? = some task) (hd : F.plan[i]? = some d) :
    (F.joined f)[i]? = some (match task with
      | .reported outcome => ⟨d.worker, d.task, outcome⟩
      | _ => ⟨"<join>", "", .error s!"join error: {F.conductor.codec.joinError (i + 1)}"⟩) := by
  have hzip : (f.tasks.zip F.plan)[i]? = some (task, d) := List.getElem?_zip_eq_some.2 ⟨hi, hd⟩
  rw [joined, List.getElem?_map, List.getElem?_zipIdx, hzip, Option.map_some, Option.map_some,
    Nat.zero_add]
  cases task <;> rfl

/-- The results in the channel. -/
def sent (f : State W) : List (Nat × WorkerResult) := f.channel.filterMap WorkerStreamEvent.done?

/-- The slots and the channel hold the results of the tasks that have reported, and no others. -/
structure Accounted (F : Fanout W) (f : State W) : Prop where
  tasks : f.tasks.length = F.plan.length
  slots : f.slots.length = F.plan.length
  slot : ∀ i r, f.slots[i]? = some (some r) → F.reported f i = some r
  posted : ∀ branch r, (branch, r) ∈ sent f → ∃ i, branch = i + 1 ∧ F.reported f i = some r
  delivered : F.streaming = true → ∀ i r, F.reported f i = some r →
    f.slots[i]? = some (some r) ∨ (i + 1, r) ∈ sent f
  count : F.streaming = true →
    f.received + (sent f).length = f.tasks.countP Task.isReported

theorem accounted_start (F : Fanout W) (w : W) : F.Accounted (F.start w) where
  tasks := by simp [start]
  slots := by simp [start]
  slot i r h := by simp [start, List.getElem?_replicate] at h
  posted branch r h := by simp [sent, start] at h
  delivered _ i r h := by
    unfold reported at h
    split at h
    · next hi _ =>
      simp only [start, List.getElem?_map, Option.map_eq_some_iff] at hi
      obtain ⟨_, -, rfl⟩ := hi
      cases h
    · cases h
  count _ := by simp [sent, start, Task.isReported, List.countP_replicate]

theorem reported_set (hi : f.tasks[i]? = some task) (hd : F.plan[i]? = some d)
    (h : f'.tasks = f.tasks.set i task') (j : Nat) :
    F.reported f' j = if j = i then resultOf d task' else F.reported f j := by
  unfold reported
  rw [h]
  by_cases hji : j = i
  · subst hji
    have hlt := (List.getElem?_eq_some_iff.1 hi).1
    rw [if_pos rfl, List.getElem?_set_self hlt, hd]
  · rw [if_neg hji, List.getElem?_set_ne (Ne.symm hji)]

theorem reported_eq_none (hi : f.tasks[i]? = some task) (hover : task.isOver = false) :
    F.reported f i = none := by
  unfold reported
  rw [hi]
  split
  · next htask _ =>
    cases htask
    exact resultOf_eq_none _ hover
  · rfl

theorem lt_of_reported (h : F.reported f i = some r) : i < F.plan.length := by
  unfold reported at h
  split at h
  · next hd => exact (List.getElem?_eq_some_iff.1 hd).1
  · cases h

theorem mem_doneOf (h : (b, r) ∈ F.doneOf branch d task) :
    b = branch ∧ resultOf d task = some r := by
  cases task with
  | reported outcome =>
    simp only [doneOf] at h
    split at h
    · cases List.mem_singleton.1 h
      exact ⟨rfl, rfl⟩
    · cases h
  | _ => cases h

/-- A task that is not over goes on, and sends its result if that is its end. -/
theorem Accounted.set_task (hf : F.Accounted f) (hi : f.tasks[i]? = some task)
    (hd : F.plan[i]? = some d) (hover : task.isOver = false)
    (hevents : events.filterMap WorkerStreamEvent.done? = F.doneOf (i + 1) d task')
    (w : W) (l : List (Party × Act W)) :
    F.Accounted { f with
      world := w, trace := l, tasks := f.tasks.set i task', channel := f.channel ++ events } := by
  have hnone := reported_eq_none (F := F) hi hover
  have hset (j : Nat) : F.reported { f with
      world := w, trace := l, tasks := f.tasks.set i task', channel := f.channel ++ events } j =
      if j = i then resultOf d task' else F.reported f j := reported_set hi hd rfl j
  have hkeep (j r) (h : F.reported f j = some r) : F.reported { f with
      world := w, trace := l, tasks := f.tasks.set i task', channel := f.channel ++ events } j =
      some r := by
    rw [hset, if_neg, h]
    rintro rfl
    rw [hnone] at h
    cases h
  refine ⟨by simp [hf.tasks], hf.slots, fun j r h => hkeep j r (hf.slot j r h), fun b r h => ?_,
    fun hs j r h => ?_, fun hs => ?_⟩
  · rw [sent, List.filterMap_append, hevents, List.mem_append] at h
    rcases h with h | h
    · obtain ⟨j, hj, hr⟩ := hf.posted b r h
      exact ⟨j, hj, hkeep j r hr⟩
    · obtain ⟨hb, hr⟩ := mem_doneOf h
      exact ⟨i, hb, by rw [hset, if_pos rfl, hr]⟩
  · rw [sent, List.filterMap_append, hevents, List.mem_append]
    rw [hset] at h
    split at h
    · next hji =>
      subst hji
      right
      right
      rw [doneOf_eq F _ _ _ hs, h]
      exact List.mem_singleton.2 rfl
    · rcases hf.delivered hs j r h with h | h
      · exact .inl h
      · exact .inr (.inl h)
  · have hcount := hf.count hs
    obtain ⟨hlt, hget⟩ := List.getElem?_eq_some_iff.1 hi
    have hnot : task.isReported = false := by
      rw [← resultOf_isSome d, resultOf_eq_none d hover]
      rfl
    rw [sent, List.filterMap_append, hevents, List.length_append, doneOf_eq F _ _ _ hs,
      ← Nat.add_assoc, ← sent, hcount, List.countP_set hlt, hget, hnot, ← resultOf_isSome d]
    cases resultOf d task' <;> rfl

/-- The conductor takes a result out of the channel and puts it into its slot. -/
theorem Accounted.take (hf : F.Accounted f) (hchannel : f.channel = .done branch result :: rest) :
    F.Accounted { f with
      channel := rest
      slots := f.slots.set (branch - 1) (some result)
      received := f.received + 1 } := by
  have hsent : sent f = (branch, result) :: rest.filterMap WorkerStreamEvent.done? := by
    rw [sent, hchannel]
    rfl
  obtain ⟨i, rfl, hi⟩ := hf.posted branch result (by rw [hsent]; exact List.mem_cons_self)
  refine ⟨hf.tasks, by simp [hf.slots], fun j r h => ?_, fun b r h => ?_, fun hs j r h => ?_,
    fun hs => ?_⟩
  · rw [Nat.add_sub_cancel, List.getElem?_set] at h
    split at h
    · next hij =>
      subst hij
      split at h
      · cases h
        exact hi
      · cases h
    · exact hf.slot j r h
  · exact hf.posted b r (by rw [hsent]; exact List.mem_cons_of_mem _ h)
  · rw [Nat.add_sub_cancel]
    by_cases hji : j = i
    · subst hji
      obtain rfl : result = r := Option.some.inj (hi.symm.trans h)
      exact .inl (List.getElem?_set_self (hf.slots ▸ lt_of_reported hi))
    · rw [List.getElem?_set_ne (Ne.symm hji)]
      rcases hf.delivered hs j r h with h | h
      · exact .inl h
      · rw [hsent, List.mem_cons] at h
        rcases h with h | h
        · cases h
          exact absurd rfl hji
        · exact .inr h
  · have hcount := hf.count hs
    rw [hsent, List.length_cons] at hcount
    rw [sent, ← hcount]
    dsimp only
    omega

theorem Accounted.skip (hf : F.Accounted f) (hchannel : f.channel = .delta branch text :: rest)
    (w : W) (l : List (Party × Act W)) (failed : Option TakoError) :
    F.Accounted { f with world := w, trace := l, channel := rest, failed } := by
  have hsent : sent f = sent ({ f with channel := rest } : State W) := by
    rw [sent, hchannel]
    rfl
  obtain ⟨htasks, hslots, hslot, hposted, hdelivered, hcount⟩ := hf
  rw [hsent] at hposted hdelivered hcount
  exact ⟨htasks, hslots, hslot, hposted, hdelivered, hcount⟩

theorem Accounted.moved (hf : F.Accounted f) (h : Moved F f f') : F.Accounted f' := by
  have hcut {i : Nat} {task : Task} {d : WorkerDispatch} {task' : Task}
      (hi : f.tasks[i]? = some task) (hd : F.plan[i]? = some d) (hover : task.isOver = false)
      (hdone : F.doneOf (i + 1) d task' = []) (l : List (Party × Act W)) :
      F.Accounted { f with trace := l, tasks := f.tasks.set i task' } := by
    have hset := hf.set_task hi hd hover (Eq.symm hdone : List.filterMap _ [] = _) f.world l
    rwa [List.append_nil] at hset
  cases h with
  | ran hi hd hover _ hstep =>
    obtain ⟨task', events, hok, hadv⟩ := taskStep_advances F _ _ _ _ f.world
    rw [hstep] at hok
    cases hok
    exact hf.set_task hi hd hover (hadv hover).done _ _
  | timedOut hi hd _ _ htimed | timedOutSending hi hd _ _ htimed =>
    exact hcut hi hd (Task.isOver_of_isTimed htimed) rfl _
  | panicked hi hd _ _ hcall => exact hcut hi hd (Task.isOver_of_inCall hcall) rfl _
  | delta _ _ hchannel _ => exact hf.skip hchannel _ _ _
  | done _ _ hchannel => exact hf.take hchannel

theorem accounted_play (F : Fanout W) (w : W) (moves : List Move) :
    F.Accounted (F.play (F.start w) moves) :=
  play_induction (fun _ _ => Accounted.moved) (accounted_start F w) moves

/-- At the end of a fan-out each slot has what its task has reported. -/
theorem slots_eq_of_complete (hf : F.Accounted f) (hs : F.streaming = true)
    (hfailed : f.failed = none) (hc : F.Complete f) (hi : i < F.plan.length) :
    f.slots[i]? = some (F.reported f i) := by
  have hnil : sent f = [] := by
    rcases hc with hc | ⟨-, hall | hempty⟩
    · rw [hfailed] at hc
      cases hc
    · have hcount := hf.count hs
      have hle := List.countP_le_length (l := f.tasks) (p := Task.isReported)
      have htasks := hf.tasks
      exact List.length_eq_zero_iff.1 (by omega)
    · rw [sent, hempty, List.filterMap_nil]
  rw [← hf.slots] at hi
  obtain ⟨slot, hslot⟩ : ∃ slot, f.slots[i]? = some slot := ⟨_, List.getElem?_eq_getElem hi⟩
  rw [hslot]
  cases slot with
  | some r => rw [hf.slot i r hslot]
  | none =>
    cases hr : F.reported f i with
    | none => rfl
    | some r =>
      rcases hf.delivered hs i r hr with h | h
      · rw [hslot] at h
        cases h
      · rw [hnil] at h
        cases h

end Fanout

end Tako.Orchestrator
