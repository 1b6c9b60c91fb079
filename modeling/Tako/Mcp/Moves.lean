import Tako.Mcp.Connection

/-!
# The moves of a connection

`Moved` lists what a move makes of a connection. In every run a sender is in the map exactly as long
as its request waits for the reader (`Linked`), and the call that writes is the one that has the lock
of the sink (`Locked`).
-/

namespace Tako.Mcp

open State Machine

variable {T : Transport} {serde : Serde} {s s' : State T}

/-- What a move does, and where it is possible. -/
inductive Moved (serde : Serde) (s : State T) : Move T → State T → Prop where
  | stopped (hreading : s.reading = true) (h : T.incoming item = .stop) :
    Moved serde s (.read item) { s with reading := false }
  | received (hreading : s.reading = true) (h : heard serde item = some r) :
    Moved serde s (.read item) (s.receive r)
  | passed (hreading : s.reading = true) (hgo : T.incoming item ≠ .stop)
    (h : heard serde item = none) : Moved serde s (.read item) s
  | began (h : (s.tasks i).phase = .start) : Moved serde s (.advance i .go) (s.begin i)
  | registered (h : (s.tasks i).phase = .registering) :
    Moved serde s (.advance i .go) (s.register i)
  | acquired (h : (s.tasks i).phase = .acquiring) (hfree : s.holder = none) :
    Moved serde s (.advance i .go) (s.acquire serde i)
  | accepted (h : (s.tasks i).phase = .writing rest) (hn : 0 < n) (hle : n ≤ rest.length) :
    Moved serde s (.advance i (.accept n))
      { s.setPhase i (.writing (rest.drop n)) with output := s.output ++ rest.take n }
  | broke (h : (s.tasks i).phase = .writing rest) (he : sendError rest e = some err) :
    Moved serde s (.advance i (.error e)) (s.fail i err)
  | finished (h : (s.tasks i).phase = .writing []) : Moved serde s (.advance i .go) (s.finish i)
  | unregistered (h : (s.tasks i).phase = .unregistering e) :
    Moved serde s (.advance i .go) ((s.removeSender (s.tasks i).id).setPhase i (.failed e))
  | answered (h : (s.tasks i).phase = .waiting) (hr : (s.tasks i).reply = .sent r) :
    Moved serde s (.advance i .go) (s.setPhase i (.returned r))
  | disconnected (h : (s.tasks i).phase = .waiting)
    (hr : (s.tasks i).reply = .closed) :
    Moved serde s (.advance i .go)
      (s.setPhase i (.returned (.error (.transport "rpc channel closed"))))
  | dropped (h : (s.tasks i).phase.isOver = false) :
    Moved serde s (.drop i)
      { s.setPhase i .dropped with holder := if s.holder = some i then none else s.holder }

theorem heard_ne_stop {item : T.Item} (h : heard serde item = some r) : T.incoming item ≠ .stop := by
  intro hstop
  rw [heard, hstop] at h
  cases h

theorem moved_of_read {item : T.Item} (h : s.read serde item = some s') :
    Moved serde s (.read item) s' := by
  unfold State.read at h
  split at h
  · next hreading =>
    split at h
    · next hstop =>
      cases h
      exact .stopped hreading hstop
    · next hgo =>
      cases hheard : heard serde item with
      | some r =>
        rw [hheard] at h
        cases h
        exact .received hreading hheard
      | none =>
        rw [hheard] at h
        cases h
        exact .passed hreading hgo hheard
  · cases h

theorem moved_of_advance {how : Progress} (h : s.advance serde i how = some s') :
    Moved serde s (.advance i how) s' := by
  unfold advance at h
  split at h
  · next hphase =>
    cases h
    exact .began hphase
  · next hphase =>
    cases h
    exact .registered hphase
  · next hphase =>
    split at h
    · next hfree =>
      cases h
      exact .acquired hphase hfree
    · cases h
  · next hphase =>
    cases h
    exact .finished hphase
  · next rest n hphase =>
    split at h
    · next hn =>
      cases h
      exact .accepted hphase hn.1 hn.2
    · cases h
  · next rest e hphase =>
    obtain ⟨err, herr, h⟩ := Option.map_eq_some_iff.1 h
    cases h
    exact .broke hphase herr
  · next e hphase =>
    cases h
    exact .unregistered hphase
  · next hphase =>
    split at h
    · cases h
    · cases h
    · next r hr =>
      cases h
      exact .answered hphase hr
    · next hr =>
      cases h
      exact .disconnected hphase hr
  · cases h

theorem moved_of_drop (h : s.drop i = some s') : Moved serde s (.drop i) s' := by
  unfold State.drop at h
  split at h
  · cases h
  · next hover =>
    cases h
    exact .dropped (Bool.eq_false_iff.2 hover)

theorem moved_of_move {m : Move T} (h : move serde m s = some s') : Moved serde s m s' := by
  cases m with
  | read item => exact moved_of_read h
  | advance i how => exact moved_of_advance h
  | drop i => exact moved_of_drop h

/-! ## What an operation changes -/

namespace State

variable {i j : Nat} {phase : Phase T.Atom} {reply : Reply} {id : UInt64}

theorem setTask_task (s : State T) (i j : Nat) (t : Task T.Atom) :
    (s.setTask i t).tasks j = if j = i then t else s.tasks j := Function.update_apply _ _ _ _

theorem setPhase_task (s : State T) (i j : Nat) (phase : Phase T.Atom) :
    (s.setPhase i phase).tasks j =
      { s.tasks j with phase := if j = i then phase else (s.tasks j).phase } := by
  rw [setPhase, setTask_task]
  by_cases h : j = i
  · rw [if_pos h, if_pos h, h]
  · rw [if_neg h, if_neg h]

theorem setReply_task (s : State T) (i j : Nat) (reply : Reply) :
    (s.setReply i reply).tasks j =
      { s.tasks j with reply := if j = i then reply else (s.tasks j).reply } := by
  rw [setReply, setTask_task]
  by_cases h : j = i
  · rw [if_pos h, if_pos h, h]
  · rw [if_neg h, if_neg h]

theorem removeSender_pending (s : State T) (id : UInt64) :
    (s.removeSender id).pending = Function.update s.pending id none := by
  unfold removeSender
  split
  · rfl
  · next h => exact (Function.update_eq_self_iff.2 h.symm).symm

theorem removeSender_task (s : State T) (id : UInt64) (j : Nat) :
    (s.removeSender id).tasks j = { s.tasks j with
      reply := if s.pending id = some j then (s.tasks j).reply.close else (s.tasks j).reply } := by
  unfold removeSender
  split
  · next i h =>
    rw [h]
    refine (setReply_task s i j _).trans ?_
    by_cases hj : j = i
    · rw [if_pos hj, if_pos (congrArg some hj.symm), hj]
    · rw [if_neg hj, if_neg fun he => hj (Option.some.inj he).symm]
  · next h => rw [h, if_neg (nomatch ·)]

theorem setPhase_phase (s : State T) (i j : Nat) (phase : Phase T.Atom) :
    ((s.setPhase i phase).tasks j).phase = if j = i then phase else (s.tasks j).phase := by
  rw [setPhase_task]

@[simp] theorem setPhase_id (s : State T) (i j : Nat) (phase : Phase T.Atom) :
    ((s.setPhase i phase).tasks j).id = (s.tasks j).id := by rw [setPhase_task]

@[simp] theorem setPhase_reply (s : State T) (i j : Nat) (phase : Phase T.Atom) :
    ((s.setPhase i phase).tasks j).reply = (s.tasks j).reply := by rw [setPhase_task]

@[simp] theorem setPhase_call (s : State T) (i j : Nat) (phase : Phase T.Atom) :
    ((s.setPhase i phase).tasks j).call = (s.tasks j).call := by rw [setPhase_task]

@[simp] theorem setReply_call (s : State T) (i j : Nat) (reply : Reply) :
    ((s.setReply i reply).tasks j).call = (s.tasks j).call := by rw [setReply_task]

@[simp] theorem setReply_id (s : State T) (i j : Nat) (reply : Reply) :
    ((s.setReply i reply).tasks j).id = (s.tasks j).id := by rw [setReply_task]

@[simp] theorem setReply_phase (s : State T) (i j : Nat) (reply : Reply) :
    ((s.setReply i reply).tasks j).phase = (s.tasks j).phase := by rw [setReply_task]

@[simp] theorem removeSender_id (s : State T) (id : UInt64) (j : Nat) :
    ((s.removeSender id).tasks j).id = (s.tasks j).id := by rw [removeSender_task]

@[simp] theorem removeSender_phase (s : State T) (id : UInt64) (j : Nat) :
    ((s.removeSender id).tasks j).phase = (s.tasks j).phase := by rw [removeSender_task]

@[simp] theorem removeSender_call (s : State T) (id : UInt64) (j : Nat) :
    ((s.removeSender id).tasks j).call = (s.tasks j).call := by rw [removeSender_task]

@[simp] theorem receive_phase (s : State T) (r : Response) (j : Nat) :
    ((s.receive r).tasks j).phase = (s.tasks j).phase := by
  unfold receive
  split
  · split
    · exact setReply_phase s _ j _
    · rfl
  · split <;> rfl

@[simp] theorem receive_call (s : State T) (r : Response) (j : Nat) :
    ((s.receive r).tasks j).call = (s.tasks j).call := by
  unfold receive
  split
  · split
    · exact setReply_call s _ j _
    · rfl
  · split <;> rfl

theorem begin_pending (s : State T) (i : Nat) : (s.begin i).pending = s.pending := by
  unfold begin
  split <;> rfl

theorem begin_task (s : State T) (i j : Nat) : ∃ id phase, (s.begin i).tasks j =
    if j = i then { s.tasks i with id, phase } else s.tasks j := by
  unfold begin
  split
  · exact ⟨_, _, setTask_task s i j _⟩
  · exact ⟨_, _, setTask_task s i j _⟩

theorem register_pending (s : State T) (i : Nat) :
    (s.register i).pending = Function.update s.pending (s.tasks i).id (some i) := by
  unfold register
  dsimp only
  rw [removeSender_pending, Function.update_idem]

theorem register_task (s : State T) (i j : Nat) : (s.register i).tasks j =
    if j = i then { s.tasks i with phase := .acquiring, reply := .open }
    else (s.removeSender (s.tasks i).id).tasks j := by
  unfold register
  dsimp only
  rw [setTask_task, removeSender_task]

theorem begin_phase (s : State T) (i : Nat) : ∃ phase, (phase = .registering ∨ phase = .acquiring) ∧
    ∀ j, ((s.begin i).tasks j).phase = if j = i then phase else (s.tasks j).phase := by
  unfold begin
  split
  · refine ⟨.registering, .inl rfl, fun j => ?_⟩
    dsimp only
    rw [setTask_task]
    split <;> rfl
  · exact ⟨.acquiring, .inr rfl, fun j => setPhase_phase s i j _⟩

theorem register_phase (s : State T) (i j : Nat) :
    ((s.register i).tasks j).phase = if j = i then .acquiring else (s.tasks j).phase := by
  rw [register_task]
  split
  · rfl
  · rw [removeSender_phase]

/-! ## The sink -/

theorem receive_sink (s : State T) (r : Response) :
    (s.receive r).output = s.output ∧ (s.receive r).holder = s.holder := by
  unfold receive
  split
  · split <;> exact ⟨rfl, rfl⟩
  · split <;> exact ⟨rfl, rfl⟩

theorem removeSender_sink (s : State T) (id : UInt64) :
    (s.removeSender id).output = s.output ∧ (s.removeSender id).holder = s.holder := by
  unfold removeSender
  split <;> exact ⟨rfl, rfl⟩

theorem begin_sink (s : State T) (i : Nat) :
    (s.begin i).output = s.output ∧ (s.begin i).holder = s.holder := by
  unfold begin
  split <;> exact ⟨rfl, rfl⟩

end State

/-- A call stays what it is. -/
theorem Moved.call (hm : Moved serde s m s') (j : Nat) : (s'.tasks j).call = (s.tasks j).call := by
  cases hm with
  | stopped | passed => rfl
  | received => exact receive_call s _ j
  | @began i =>
    obtain ⟨_, _, htask⟩ := begin_task s i j
    rw [htask]
    split
    · next hj => rw [hj]
    · rfl
  | registered =>
    rw [register_task]
    split
    · next hj => rw [hj]
    · exact removeSender_call s _ j
  | acquired =>
    unfold acquire
    dsimp only
    split <;> exact setPhase_call s _ j _
  | unregistered => exact (setPhase_call _ _ j _).trans (removeSender_call s _ j)
  | accepted | broke | finished | answered | disconnected | dropped => exact setPhase_call s _ j _

theorem call_play {calls : Nat → Call} (h : play (move serde) ms (start T calls) = some s) (i : Nat) :
    (s.tasks i).call = calls i :=
  play_invariant (I := fun s => (s.tasks i).call = calls i)
    (fun hs hm => ((moved_of_move hm).call i).trans hs) h rfl

/-- Only phases change, and what else no sender depends on. -/
structure Unlinked (s s' : State T) : Prop where
  pending : s'.pending = s.pending
  task : ∀ j, ∃ phase, s'.tasks j = { s.tasks j with phase }

theorem unlinked_setPhase (s : State T) (i : Nat) (phase : Phase T.Atom) :
    Unlinked s (s.setPhase i phase) := ⟨rfl, fun j => ⟨_, setPhase_task s i j phase⟩⟩

theorem unlinked_fail (s : State T) (i : Nat) (e : TakoError) : Unlinked s (s.fail i e) :=
  ⟨rfl, (unlinked_setPhase s i _).task⟩

theorem unlinked_acquire (s : State T) (i : Nat) : Unlinked s (s.acquire serde i) := by
  unfold acquire
  dsimp only
  split
  · exact ⟨rfl, (unlinked_setPhase s i _).task⟩
  · exact unlinked_setPhase s i _

theorem unlinked_finish (s : State T) (i : Nat) : Unlinked s (s.finish i) :=
  ⟨rfl, (unlinked_setPhase s i _).task⟩

/-! ## The senders in the map -/

/-- A sender is in the map as long as the channel of its request is open. -/
def Linked (s : State T) : Prop :=
  ∀ id i, s.pending id = some i ↔ (s.tasks i).id = id ∧ (s.tasks i).reply = .open

/-- How far the channel of a call is. -/
def Task.Proper {α : Type} (t : Task α) : Prop :=
  match t.phase with
  | .start => t.reply = .unasked
  | .registering => t.reply = .unasked ∧ t.call.isRequest = true
  | .acquiring | .writing _ => t.call.isRequest = true ↔ t.reply ≠ .unasked
  | .unregistering _ | .waiting => t.reply ≠ .unasked
  | _ => True

/-- What holds of every connection. -/
structure Sane (s : State T) : Prop where
  linked : Linked s
  proper : ∀ i, (s.tasks i).Proper

theorem Reply.close_eq_open_iff {reply : Reply} : reply.close ≠ .open := by
  cases reply <;> exact (nomatch ·)

theorem Linked.unlinked (h : Linked s) (hs : Unlinked s s') : Linked s' := by
  intro id i
  obtain ⟨phase, htask⟩ := hs.task i
  rw [hs.pending, htask]
  exact h id i

theorem Linked.removeSender (h : Linked s) (id : UInt64) : Linked (s.removeSender id) := by
  intro id' j
  rw [removeSender_pending, removeSender_task, Function.update_apply]
  dsimp only
  have hid := h id j
  have hid' := h id' j
  by_cases hj : s.pending id = some j
  · rw [if_pos hj]
    refine iff_of_false (fun hpending => ?_) fun hopen => Reply.close_eq_open_iff hopen.2
    split at hpending
    · cases hpending
    · next hne => exact hne ((hid'.1 hpending).1.symm.trans (hid.1 hj).1)
  · rw [if_neg hj, ← hid']
    split
    · next heq =>
      subst heq
      exact iff_of_false (nomatch ·) hj
    · rfl

theorem Linked.receive (h : Linked s) (r : Response) : Linked (s.receive r) := by
  unfold State.receive
  split
  · next id _ =>
    split
    · next i hi =>
      intro id' j
      dsimp only
      rw [setReply_task, Function.update_apply]
      have hid' := h id' j
      by_cases hj : j = i
      · subst hj
        refine iff_of_false (fun hpending => ?_) fun hopen => ?_
        · split at hpending
          · cases hpending
          · next hne => exact hne ((hid'.1 hpending).1.symm.trans ((h id j).1 hi).1)
        · simp at hopen
      · rw [if_neg hj]
        split
        · next heq =>
          subst heq
          refine iff_of_false (nomatch ·) fun hopen => hj ?_
          exact Option.some.inj ((hid'.2 hopen).symm.trans hi)
        · exact hid'
    · exact h
  · split <;> exact h

theorem Linked.begin (h : Linked s) (hi : (s.tasks i).reply = .unasked) : Linked (s.begin i) := by
  intro id' j
  obtain ⟨id, phase, htask⟩ := begin_task s i j
  rw [begin_pending, htask]
  split
  · next hj =>
    subst hj
    refine iff_of_false (fun hpending => ?_) fun hopen => ?_
    · exact absurd (hi.symm.trans ((h id' j).1 hpending).2) (nomatch ·)
    · exact absurd (hi.symm.trans hopen.2) (nomatch ·)
  · exact h id' j

theorem Linked.register (h : Linked s) (hi : (s.tasks i).reply = .unasked) :
    Linked (s.register i) := by
  intro id' j
  have hremoved := h.removeSender (s.tasks i).id id' j
  rw [removeSender_pending, Function.update_apply] at hremoved
  rw [register_pending, register_task, Function.update_apply]
  by_cases hj : j = i
  · subst hj
    rw [if_pos rfl]
    split
    · next heq => exact iff_of_true rfl ⟨heq.symm, rfl⟩
    · next hne =>
      refine iff_of_false (fun hpending => ?_) fun hopen => hne hopen.1.symm
      exact absurd (hi.symm.trans ((h id' j).1 hpending).2) (nomatch ·)
  · rw [if_neg hj, ← hremoved]
    split
    · exact iff_of_false (fun heq => hj (Option.some.inj heq).symm) (nomatch ·)
    · rfl

theorem Task.Proper.reply_of_start {t : Task T.Atom} (h : t.Proper) (hphase : t.phase = .start) :
    t.reply = .unasked := by
  rw [Task.Proper, hphase] at h
  exact h

theorem Task.Proper.reply_of_registering {t : Task T.Atom} (h : t.Proper)
    (hphase : t.phase = .registering) : t.reply = .unasked := by
  rw [Task.Proper, hphase] at h
  exact h.1

theorem Linked.moved (h : Linked s) (hproper : ∀ i, (s.tasks i).Proper) (hm : Moved serde s m s') :
    Linked s' := by
  cases hm with
  | stopped | passed => exact h
  | received => exact h.receive _
  | began hphase => exact h.begin ((hproper _).reply_of_start hphase)
  | registered hphase => exact h.register ((hproper _).reply_of_registering hphase)
  | acquired => exact h.unlinked (unlinked_acquire s _)
  | broke => exact h.unlinked (unlinked_fail s _ _)
  | finished => exact h.unlinked (unlinked_finish s _)
  | unregistered => exact (h.removeSender _).unlinked (unlinked_setPhase _ _ _)
  | answered | disconnected => exact h.unlinked (unlinked_setPhase s _ _)
  | accepted | dropped => exact h.unlinked ⟨rfl, (unlinked_setPhase s _ _).task⟩

namespace Task.Proper

variable {t : Task T.Atom}

/-- The reader answers, or the sender is dropped. -/
theorem answer {reply : Reply} (h : t.Proper) (hopen : t.reply = .open)
    (hreply : reply ≠ .unasked) : Task.Proper { t with reply } := by
  unfold Task.Proper at *
  dsimp only at *
  split
  · next hphase =>
    rw [hphase] at h
    cases hopen.symm.trans h
  · next hphase =>
    rw [hphase] at h
    cases hopen.symm.trans h.1
  · next hphase =>
    rw [hphase, hopen] at h
    exact h.trans (iff_of_true (nomatch ·) hreply)
  · next hphase =>
    rw [hphase, hopen] at h
    exact h.trans (iff_of_true (nomatch ·) hreply)
  · exact hreply
  · exact hreply
  · trivial

theorem failedPhase (h : t.call.isRequest = true ↔ t.reply ≠ .unasked) (e : TakoError) :
    Task.Proper { t with phase := State.failedPhase T e t.call } := by
  unfold State.failedPhase
  split
  · next hcall =>
    split
    · exact h.1 (congrArg Call.isRequest hcall)
    · trivial
  · trivial
  · trivial

theorem sentPhase (h : t.call.isRequest = true ↔ t.reply ≠ .unasked) :
    Task.Proper { t with phase := State.sentPhase T t.call } := by
  unfold State.sentPhase
  split
  · next hcall => exact h.1 (congrArg Call.isRequest hcall)
  · trivial

theorem of_acquiring (h : t.Proper) (hphase : t.phase = .acquiring) :
    t.call.isRequest = true ↔ t.reply ≠ .unasked := by
  rwa [Task.Proper, hphase] at h

theorem of_writing (h : t.Proper) (hphase : t.phase = .writing rest) :
    t.call.isRequest = true ↔ t.reply ≠ .unasked := by
  rwa [Task.Proper, hphase] at h

end Task.Proper

theorem proper_setPhase (h : ∀ j, (s.tasks j).Proper)
    (hi : Task.Proper { s.tasks i with phase }) (j : Nat) : ((s.setPhase i phase).tasks j).Proper := by
  rw [setPhase_task]
  by_cases hj : j = i
  · subst hj
    rwa [if_pos rfl]
  · rw [if_neg hj]
    exact h j

theorem proper_removeSender (h : ∀ j, (s.tasks j).Proper) (hlinked : Linked s) (id : UInt64)
    (j : Nat) : ((s.removeSender id).tasks j).Proper := by
  rw [removeSender_task]
  split
  · next hj =>
    have hopen := ((hlinked id j).1 hj).2
    rw [hopen]
    exact (h j).answer hopen (nomatch ·)
  · exact h j

theorem proper_receive (h : ∀ j, (s.tasks j).Proper) (hlinked : Linked s) (r : Response) (j : Nat) :
    ((s.receive r).tasks j).Proper := by
  unfold State.receive
  split
  · split
    · next i hi =>
      refine (setReply_task s i j _).symm ▸ ?_
      by_cases hj : j = i
      · subst hj
        rw [if_pos rfl]
        exact (h j).answer ((hlinked _ j).1 hi).2 (nomatch ·)
      · rw [if_neg hj]
        exact h j
    · exact h j
  · split <;> exact h j

theorem proper_begin (h : ∀ j, (s.tasks j).Proper) (hi : (s.tasks i).reply = .unasked) (j : Nat) :
    ((s.begin i).tasks j).Proper := by
  unfold begin
  split
  · next hcall =>
    refine (setTask_task s i j _).symm ▸ ?_
    split
    · exact ⟨hi, congrArg Call.isRequest hcall⟩
    · exact h j
  · next hcall =>
    refine proper_setPhase h ?_ j
    refine iff_of_false (fun hrequest => ?_) fun hne => hne hi
    dsimp only at hrequest
    cases hc : (s.tasks i).call with
    | request method params => exact hcall _ _ hc
    | notify | close =>
      rw [hc] at hrequest
      cases hrequest

theorem proper_register (h : ∀ j, (s.tasks j).Proper) (hlinked : Linked s)
    (hi : (s.tasks i).phase = .registering) (j : Nat) : ((s.register i).tasks j).Proper := by
  rw [register_task]
  split
  · have hproper := h i
    rw [Task.Proper, hi] at hproper
    exact iff_of_true hproper.2 (nomatch ·)
  · exact proper_removeSender h hlinked _ j

theorem proper_moved (h : ∀ j, (s.tasks j).Proper) (hlinked : Linked s) (hm : Moved serde s m s')
    (j : Nat) : (s'.tasks j).Proper := by
  cases hm with
  | stopped | passed => exact h j
  | received => exact proper_receive h hlinked _ j
  | began hphase => exact proper_begin h ((h _).reply_of_start hphase) j
  | registered hphase => exact proper_register h hlinked hphase j
  | acquired hphase =>
    have hcall := (h _).of_acquiring hphase
    unfold acquire
    dsimp only
    split
    · refine proper_setPhase h ?_ j
      exact hcall
    · refine proper_setPhase h ?_ j
      exact .failedPhase hcall _
  | accepted hphase =>
    refine proper_setPhase h ?_ j
    exact (h _).of_writing hphase
  | broke hphase =>
    refine proper_setPhase h ?_ j
    exact .failedPhase ((h _).of_writing hphase) _
  | finished hphase =>
    refine proper_setPhase h ?_ j
    exact .sentPhase ((h _).of_writing hphase)
  | unregistered =>
    refine proper_setPhase (proper_removeSender h hlinked _) ?_ j
    trivial
  | answered | disconnected | dropped =>
    refine proper_setPhase h ?_ j
    trivial

/-! ## Runs -/

theorem sane_start (T : Transport) (calls : Nat → Call) : Sane (start T calls) where
  linked _ _ := iff_of_false (nomatch ·) fun h => nomatch h.2
  proper _ := rfl

theorem Sane.moved (h : Sane s) (hm : Moved serde s m s') : Sane s' :=
  ⟨h.linked.moved h.proper hm, proper_moved h.proper h.linked hm⟩

theorem sane_play (h : play (move serde) ms (start T calls) = some s) : Sane s :=
  play_invariant (fun hs hm => hs.moved (moved_of_move hm)) h (sane_start T calls)

end Tako.Mcp
