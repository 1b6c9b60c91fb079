import Tako.Mcp.Moves

/-!
# Which frame answers a request

The reader looks at the id of a frame alone. As long as no request of the server bears the id of a
request that waits, each request is answered by the first response with its id
(`answered_by_first_response`).
-/

namespace Tako.Mcp

open State Machine

variable {T : Transport} {serde : Serde} {s s' : State T}

/-! ## Frames -/

/-- A response to the request with this id. -/
def Response.answers (id : UInt64) (r : Response) : Bool := r.id = some id && r.method.isNone

/-- The frame that a move makes the reader handle. -/
def Move.frame (serde : Serde) : Move T → Option Response
  | .read item => heard serde item
  | .advance _ _ | .drop _ => none

/-- The frames that the reader handles, in their order. -/
def frames (serde : Serde) (ms : List (Move T)) : List Response := ms.filterMap (·.frame serde)

/-- No request of the server bears the id of a request that waits, and no request draws the id of
another one, which takes 2⁶⁴ requests. -/
def Orderly (serde : Serde) (s : State T) : Move T → Prop
  | .read item => ∀ r id, heard serde item = some r → r.id = some id → r.method.isSome = true →
    s.pending id = none
  | .advance i _ => (s.tasks i).phase = .start →
    ∀ j, (s.tasks j).phase ≠ .start → (s.tasks j).id ≠ s.nextId
  | .drop _ => True

/-- What became of a request with this id while the reader handled `fs`. -/
structure Answered {α : Type} (id : UInt64) (fs : List Response) (t : Task α) : Prop where
  resolved : ∀ r, t.reply = .sent r → ∃ f, fs.find? (·.answers id) = some f ∧ r = f.outcome
  delivered : ∀ f, fs.find? (·.answers id) = some f →
    t.reply = .sent f.outcome ∨ ∃ e, t.phase = .failed e
  returned : ∀ r, t.phase = .returned r → t.reply = .sent r

/-! ## Ids -/

/-- The request has its id. -/
def Task.Drawn {α : Type} (t : Task α) : Prop := t.phase = .registering ∨ t.reply ≠ .unasked

def Distinct (s : State T) : Prop :=
  ∀ i j, (s.tasks i).Drawn → (s.tasks j).Drawn → (s.tasks i).id = (s.tasks j).id → i = j

theorem Distinct.kept (h : Distinct s) (hid : ∀ j, (s'.tasks j).id = (s.tasks j).id)
    (hdrawn : ∀ j, (s'.tasks j).Drawn → (s.tasks j).Drawn) : Distinct s' := fun i j hi hj heq =>
  h i j (hdrawn i hi) (hdrawn j hj) (by rwa [hid, hid] at heq)

theorem Distinct.setPhase (h : Distinct s) {phase : Phase T.Atom} (hphase : phase ≠ .registering) :
    Distinct (s.setPhase i phase) := by
  refine h.kept (fun j => setPhase_id s i j phase) fun j hj => ?_
  rw [setPhase_task] at hj
  refine hj.imp (fun hp => ?_) id
  dsimp only at hp
  split at hp
  · exact absurd hp hphase
  · exact hp

theorem Reply.close_ne_unasked {reply : Reply} (h : reply.close ≠ .unasked) : reply ≠ .unasked := by
  rintro rfl
  exact h rfl

theorem Distinct.removeSender (h : Distinct s) (id : UInt64) : Distinct (s.removeSender id) := by
  refine h.kept (fun j => removeSender_id s id j) fun j hj => ?_
  rw [removeSender_task] at hj
  refine hj.imp_right fun hreply => ?_
  dsimp only at hreply
  split at hreply
  · exact Reply.close_ne_unasked hreply
  · exact hreply

theorem Distinct.receive (h : Distinct s) (hlinked : Linked s) (r : Response) :
    Distinct (s.receive r) := by
  unfold State.receive
  split
  · split
    · next i hi =>
      refine h.kept (fun j => setReply_id s i j _) fun j hj => ?_
      have hj := (setReply_task s i j _) ▸ hj
      refine hj.imp_right fun hreply => ?_
      dsimp only at hreply
      split at hreply
      · next heq =>
        rw [heq, ((hlinked _ i).1 hi).2]
        exact (nomatch ·)
      · exact hreply
    · exact h
  · split <;> exact h

theorem Distinct.register (h : Distinct s) (hi : (s.tasks i).phase = .registering) :
    Distinct (s.register i) := by
  refine (h.removeSender (s.tasks i).id).kept (fun j => ?_) fun j hj => ?_
  · rw [register_task]
    split
    · next heq => rw [heq, removeSender_id]
    · rfl
  · rw [register_task] at hj
    split at hj
    · next heq =>
      subst heq
      exact .inl ((removeSender_phase s _ j).trans hi)
    · exact hj

theorem Task.Proper.begun {t : Task T.Atom} (h : t.Proper) (hdrawn : t.Drawn) :
    t.phase ≠ .start := by
  intro hstart
  rcases hdrawn with hphase | hreply
  · cases hstart.symm.trans hphase
  · exact hreply (h.reply_of_start hstart)

theorem Distinct.begin (h : Distinct s) (hproper : ∀ j, (s.tasks j).Proper)
    (hfresh : ∀ j, (s.tasks j).phase ≠ .start → (s.tasks j).id ≠ s.nextId) :
    Distinct (s.begin i) := by
  unfold State.begin
  split
  · have hid (j : Nat) : ((s.setTask i { s.tasks i with id := s.nextId, phase := .registering }).tasks
        j).id = if j = i then s.nextId else (s.tasks j).id := by
      rw [setTask_task]
      split <;> rfl
    have hother {j : Nat} (hj : j ≠ i) (hdrawn : ((s.setTask i { s.tasks i with
        id := s.nextId, phase := .registering }).tasks j).Drawn) : (s.tasks j).Drawn := by
      rwa [setTask_task, if_neg hj] at hdrawn
    intro j k hj hk heq
    have heq := (hid j).symm.trans (heq.trans (hid k))
    by_cases hji : j = i
    · by_cases hki : k = i
      · exact hji.trans hki.symm
      · rw [if_pos hji, if_neg hki] at heq
        exact absurd heq.symm (hfresh k ((hproper k).begun (hother hki hk)))
    · by_cases hki : k = i
      · rw [if_neg hji, if_pos hki] at heq
        exact absurd heq (hfresh j ((hproper j).begun (hother hji hj)))
      · rw [if_neg hji, if_neg hki] at heq
        exact h j k (hother hji hj) (hother hki hk) heq
  · exact h.setPhase (nomatch ·)

theorem failedPhase_ne {e : TakoError} {call : Call} : failedPhase T e call ≠ .registering := by
  unfold failedPhase
  split
  · split <;> exact (nomatch ·)
  · exact (nomatch ·)
  · exact (nomatch ·)

theorem sentPhase_ne {call : Call} : sentPhase T call ≠ .registering := by
  unfold sentPhase
  split <;> exact (nomatch ·)

theorem Distinct.moved (h : Distinct s) (hsane : Sane s) (horderly : Orderly serde s m)
    (hm : Moved serde s m s') : Distinct s' := by
  cases hm with
  | stopped | passed => exact h
  | received => exact h.receive hsane.linked _
  | began hphase => exact h.begin hsane.proper (horderly hphase)
  | registered hphase => exact h.register hphase
  | acquired =>
    unfold acquire
    dsimp only
    split
    · exact h.setPhase (nomatch ·)
    · exact h.setPhase failedPhase_ne
  | broke => exact h.setPhase failedPhase_ne
  | finished => exact h.setPhase sentPhase_ne
  | unregistered => exact (h.removeSender _).setPhase (nomatch ·)
  | accepted | answered | disconnected | dropped => exact h.setPhase (nomatch ·)

/-! ## One request -/

/-- What is known of a request with this id, which is registered and since then saw `fs` handled. -/
structure Tracked {α : Type} (id : UInt64) (fs : List Response) (t : Task α) : Prop where
  sameId : t.id = id
  call : t.call.isRequest = true
  begun : t.phase ≠ .start
  drawn : t.phase ≠ .registering
  unanswered : fs.find? (·.answers id) = none →
    t.reply = .open ∨ t.reply = .closed ∧ ∃ e, t.phase = .failed e
  answered : ∀ f, fs.find? (·.answers id) = some f →
    t.reply = .sent f.outcome ∨ t.reply = .closed ∧ ∃ e, t.phase = .failed e
  returned : ∀ r, t.phase = .returned r → t.reply = .sent r

namespace Tracked

variable {α : Type} {t : Task α} {id : UInt64} {fs : List Response}

/-- A step of the request that leaves its channel alone. -/
theorem setPhase (h : Tracked id fs t) {phase : Phase α} (hold : ∀ e, t.phase ≠ .failed e)
    (hstart : phase ≠ .start) (hregistering : phase ≠ .registering)
    (hreturned : ∀ r, phase = .returned r → t.reply = .sent r) :
    Tracked id fs { t with phase } where
  sameId := h.sameId
  call := h.call
  begun := hstart
  drawn := hregistering
  unanswered hf := .inl ((h.unanswered hf).resolve_right fun ⟨_, e, he⟩ => hold e he)
  answered f hf := .inl ((h.answered f hf).resolve_right fun ⟨_, e, he⟩ => hold e he)
  returned := hreturned

/-- A frame that the reader does not hand to the request. -/
theorem passedOver (h : Tracked id fs t) (hr : r.answers id = true → t.reply ≠ .open) :
    Tracked id (fs ++ [r]) t where
  sameId := h.sameId
  call := h.call
  begun := h.begun
  drawn := h.drawn
  unanswered hf := by
    rw [List.find?_append, Option.or_eq_none_iff] at hf
    exact h.unanswered hf.1
  answered f hf := by
    cases hfs : fs.find? (·.answers id) with
    | some g =>
      rw [List.find?_append, hfs, Option.some_or] at hf
      exact h.answered f (hfs.trans hf)
    | none =>
      rw [List.find?_append, hfs, Option.none_or] at hf
      rw [List.find?_singleton] at hf
      split at hf
      · next hanswers => exact .inr ((h.unanswered hfs).resolve_left (hr hanswers))
      · cases hf
  returned := h.returned

theorem reply_ne_closed (h : Tracked id fs t) (hold : ∀ e, t.phase ≠ .failed e) :
    t.reply ≠ .closed := by
  intro hclosed
  cases hfs : fs.find? (·.answers id) with
  | none =>
    have hopen := (h.unanswered hfs).resolve_right fun ⟨_, e, he⟩ => hold e he
    cases hclosed.symm.trans hopen
  | some f =>
    have hsent := (h.answered f hfs).resolve_right fun ⟨_, e, he⟩ => hold e he
    cases hclosed.symm.trans hsent

/-- The request takes its sender out of the map and fails. -/
theorem unregister (h : Tracked id fs t) (hold : ∀ e, t.phase ≠ .failed e) (e : TakoError) :
    Tracked id fs ({ t with phase := .failed e, reply := t.reply.close } : Task α) where
  sameId := h.sameId
  call := h.call
  begun := (nomatch ·)
  drawn := (nomatch ·)
  unanswered hf := by
    have hopen := (h.unanswered hf).resolve_right fun ⟨_, e, he⟩ => hold e he
    exact .inr ⟨congrArg Reply.close hopen, e, rfl⟩
  answered f hf := by
    have hsent := (h.answered f hf).resolve_right fun ⟨_, e, he⟩ => hold e he
    exact .inl (congrArg Reply.close hsent)
  returned _ := (nomatch ·)

/-- The response that the reader hands to the request. -/
theorem resolve (h : Tracked id fs t) (hopen : t.reply = .open) (hr : r.answers id = true) :
    Tracked id (fs ++ [r]) { t with reply := .sent r.outcome } := by
  have hnone : fs.find? (·.answers id) = none := by
    cases hfs : fs.find? (·.answers id) with
    | none => rfl
    | some f =>
      rcases h.answered f hfs with hsent | ⟨hclosed, -⟩
      · cases hopen.symm.trans hsent
      · cases hopen.symm.trans hclosed
  have hfind : (fs ++ [r]).find? (·.answers id) = some r := by
    rw [List.find?_append, hnone, Option.none_or, List.find?_singleton, if_pos hr]
  refine ⟨h.sameId, h.call, h.begun, h.drawn, fun hf => ?_, fun f hf => ?_, fun r hphase => ?_⟩
  · cases hfind.symm.trans hf
  · cases hfind.symm.trans hf
    exact .inl rfl
  · cases hopen.symm.trans (h.returned r hphase)

end Tracked

variable {i : Nat} {id : UInt64} {fs : List Response}

theorem Response.id_of_answers {r : Response} (h : r.answers id = true) : r.id = some id := by
  rw [Response.answers, Bool.and_eq_true, decide_eq_true_eq] at h
  exact h.1

theorem tracked_receive (hlinked : Linked s) (h : Tracked id fs (s.tasks i)) {r : Response}
    (hcollide : ∀ id, r.id = some id → r.method.isSome = true → s.pending id = none) :
    Tracked id (fs ++ [r]) ((s.receive r).tasks i) := by
  have passed (hne : ∀ id', r.id = some id' → s.pending id' ≠ some i) :
      Tracked id (fs ++ [r]) (s.tasks i) :=
    h.passedOver fun hanswers hopen =>
      hne id (Response.id_of_answers hanswers) ((hlinked id i).2 ⟨h.sameId, hopen⟩)
  unfold State.receive
  split
  · next id' hid' =>
    split
    · next j hj =>
      refine (setReply_task s j i _).symm ▸ ?_
      by_cases hij : i = j
      · subst hij
        obtain ⟨hid, hopen⟩ := (hlinked id' i).1 hj
        have hmethod : r.method.isNone = true := by
          rw [← Option.not_isSome, Bool.not_eq_true']
          exact Bool.eq_false_iff.2 fun hsome => nomatch (hcollide id' hid' hsome).symm.trans hj
        rw [if_pos rfl]
        exact h.resolve hopen (by simp [Response.answers, hid', hmethod, ← hid, h.sameId])
      · rw [if_neg hij]
        refine passed fun id'' hid'' hi => hij ?_
        rw [hid', Option.some.injEq] at hid''
        exact Option.some.inj (hi.symm.trans (hid'' ▸ hj))
    · next hnone =>
      refine passed fun id'' hid'' hi => ?_
      rw [hid', Option.some.injEq] at hid''
      cases hi.symm.trans (hid'' ▸ hnone)
  · next hid' =>
    have hpassed := passed fun id'' hid'' => nomatch hid'.symm.trans hid''
    split <;> exact hpassed

/-- Nobody else takes the request's sender out of the map. -/
theorem removeSender_other (hlinked : Linked s) (hdistinct : Distinct s)
    (hreply : (s.tasks j).Drawn) (hij : i ≠ j) :
    (s.removeSender (s.tasks j).id).tasks i = s.tasks i := by
  rw [removeSender_task, if_neg]
  intro hpending
  obtain ⟨hid, hopen⟩ := (hlinked _ i).1 hpending
  exact hij (hdistinct i j (.inr (hopen ▸ (nomatch ·))) hreply hid)

theorem Reply.close_of_ne_open {reply : Reply} (h : reply ≠ .open) : reply.close = reply := by
  cases reply with
  | «open» => exact absurd rfl h
  | _ => rfl

theorem removeSender_own (hlinked : Linked s) :
    (s.removeSender (s.tasks i).id).tasks i =
      { s.tasks i with reply := (s.tasks i).reply.close } := by
  rw [removeSender_task]
  split
  · rfl
  · next hne =>
    rw [Reply.close_of_ne_open fun hopen => hne ((hlinked _ i).2 ⟨rfl, hopen⟩)]

/-- What a step of a tracked request goes to. -/
structure Goes (t : Task T.Atom) (phase : Phase T.Atom) : Prop where
  old : ∀ e, t.phase ≠ .failed e
  begun : phase ≠ .start
  drawn : phase ≠ .registering
  returned : ∀ r, phase = .returned r → t.reply = .sent r

/-- A request is in the phase after its registration and before its result. -/
def Phase.isMidway {α : Type} : Phase α → Bool
  | .start | .registering | .returned _ => false
  | _ => true

theorem Goes.midway {t : Task T.Atom} {phase : Phase T.Atom} (hold : ∀ e, t.phase ≠ .failed e)
    (h : phase.isMidway = true) : Goes t phase where
  old := hold
  begun := by
    rintro rfl
    cases h
  drawn := by
    rintro rfl
    cases h
  returned := by
    rintro r rfl
    cases h

theorem goes_failedPhase {t : Task T.Atom} (hcall : t.call.isRequest = true)
    (hold : ∀ e, t.phase ≠ .failed e) (e : TakoError) : Goes t (failedPhase T e t.call) := by
  cases hc : t.call with
  | request =>
    dsimp only [failedPhase]
    split <;> exact .midway hold rfl
  | notify | close =>
    rw [hc] at hcall
    cases hcall

theorem goes_sentPhase {t : Task T.Atom} (hcall : t.call.isRequest = true)
    (hold : ∀ e, t.phase ≠ .failed e) : Goes t (sentPhase T t.call) := by
  cases hc : t.call with
  | request => exact .midway hold rfl
  | notify | close =>
    rw [hc] at hcall
    cases hcall

theorem tracked_setPhase (h : Tracked id fs (s.tasks i)) {phase : Phase T.Atom}
    (hgoes : i = j → Goes (s.tasks i) phase) : Tracked id fs ((s.setPhase j phase).tasks i) := by
  rw [setPhase_task]
  by_cases hij : i = j
  · rw [if_pos hij]
    obtain ⟨hold, hbegun, hdrawn, hreturned⟩ := hgoes hij
    exact h.setPhase hold hbegun hdrawn hreturned
  · rw [if_neg hij]
    exact h

/-- A request that is not over has not failed. -/
theorem not_failed {t : Task T.Atom} {phase : Phase T.Atom} (hphase : t.phase = phase)
    (h : phase.isOver = false) (e : TakoError) : t.phase ≠ .failed e := by
  rw [hphase]
  rintro rfl
  cases h

theorem tracked_moved (hsane : Sane s) (hdistinct : Distinct s) (horderly : Orderly serde s m)
    (h : Tracked id fs (s.tasks i)) (hm : Moved serde s m s') :
    Tracked id (fs ++ (m.frame serde).toList) (s'.tasks i) := by
  have quiet (hframe : m.frame serde = none) (h' : Tracked id fs (s'.tasks i)) :
      Tracked id (fs ++ (m.frame serde).toList) (s'.tasks i) := by
    rwa [hframe, Option.toList_none, List.append_nil]
  cases hm with
  | @stopped item _ hstop =>
    refine quiet ?_ h
    rw [Move.frame, heard, hstop]
  | received _ hheard =>
    rw [Move.frame, hheard]
    exact tracked_receive hsane.linked h fun id hid hmethod => horderly _ id hheard hid hmethod
  | passed _ _ hheard => exact quiet hheard h
  | @began j hphase =>
    refine quiet rfl ?_
    obtain ⟨_, _, htask⟩ := begin_task s j i
    rw [htask, if_neg (by rintro rfl; exact h.begun hphase)]
    exact h
  | @registered j hphase =>
    refine quiet rfl ?_
    have hij : i ≠ j := by
      rintro rfl
      exact h.drawn hphase
    rw [register_task, if_neg hij, removeSender_other hsane.linked hdistinct (.inl hphase) hij]
    exact h
  | acquired hphase =>
    refine quiet rfl ?_
    unfold acquire
    dsimp only
    split
    · refine tracked_setPhase h ?_
      rintro rfl
      exact .midway (not_failed hphase rfl) rfl
    · refine tracked_setPhase h ?_
      rintro rfl
      exact goes_failedPhase h.call (not_failed hphase rfl) _
  | accepted hphase =>
    refine quiet rfl (tracked_setPhase h ?_)
    rintro rfl
    exact .midway (not_failed hphase rfl) rfl
  | broke hphase =>
    refine quiet rfl (tracked_setPhase h ?_)
    rintro rfl
    exact goes_failedPhase h.call (not_failed hphase rfl) _
  | finished hphase =>
    refine quiet rfl (tracked_setPhase h ?_)
    rintro rfl
    exact goes_sentPhase h.call (not_failed hphase rfl)
  | @unregistered j e hphase =>
    refine quiet rfl ?_
    have hdrawn : (s.tasks j).reply ≠ .unasked := by
      have hproper := hsane.proper j
      rwa [Task.Proper, hphase] at hproper
    rw [setPhase_task]
    by_cases hij : i = j
    · subst hij
      rw [if_pos rfl, removeSender_own hsane.linked]
      exact h.unregister (not_failed hphase rfl) e
    · rw [if_neg hij, removeSender_other hsane.linked hdistinct (.inr hdrawn) hij]
      exact h
  | answered hphase hr =>
    refine quiet rfl (tracked_setPhase h ?_)
    rintro rfl
    refine ⟨not_failed hphase rfl, fun h => ?_, fun h => ?_, fun r' h => ?_⟩
    · cases h
    · cases h
    · cases h
      exact hr
  | disconnected hphase hr =>
    refine quiet rfl (tracked_setPhase h ?_)
    rintro rfl
    exact absurd hr (h.reply_ne_closed (not_failed hphase rfl))
  | dropped hphase =>
    refine quiet rfl (tracked_setPhase h ?_)
    rintro rfl
    exact .midway (not_failed rfl hphase) rfl

theorem frames_cons (serde : Serde) (m : Move T) (ms : List (Move T)) :
    frames serde (m :: ms) = (m.frame serde).toList ++ frames serde ms := by
  rw [frames, List.filterMap_cons]
  cases m.frame serde <;> rfl

theorem tracked_play (hsane : Sane s) (hdistinct : Distinct s)
    (horderly : Along (move serde) (Orderly serde) ms s) (h : Tracked id fs (s.tasks i))
    (hplay : play (move serde) ms s = some s') :
    Tracked id (fs ++ frames serde ms) (s'.tasks i) := by
  induction ms generalizing s fs with
  | nil =>
    cases hplay
    rwa [frames, List.filterMap_nil, List.append_nil]
  | cons m ms ih =>
    obtain ⟨t, ht, hplay⟩ := play_cons.1 hplay
    have hm := moved_of_move ht
    rw [frames_cons, ← List.append_assoc]
    exact ih (hsane.moved hm) (hdistinct.moved hsane horderly.1 hm) (horderly.2 t ht)
      (tracked_moved hsane hdistinct horderly.1 h hm) hplay

theorem distinct_start (calls : Nat → Call) : Distinct (start T calls) := fun _ _ h =>
  h.elim (nomatch ·) (absurd rfl)

theorem distinct_play (horderly : Along (move serde) (Orderly serde) ms (start T calls))
    (h : play (move serde) ms (start T calls) = some s) : Distinct s :=
  (play_invariant_along (I := fun s => Sane s ∧ Distinct s)
    (fun hs hm ht => ⟨hs.1.moved (moved_of_move ht), hs.2.moved hs.1 hm (moved_of_move ht)⟩) h horderly
    ⟨sane_start T calls, distinct_start calls⟩).2

theorem sent_removeSender (h : (s.tasks i).reply = .sent r) :
    ((s.removeSender id).tasks i).reply = .sent r := by
  rw [removeSender_task]
  dsimp only
  split
  · exact congrArg Reply.close h
  · exact h

theorem sent_receive (hlinked : Linked s) (h : (s.tasks i).reply = .sent r) :
    ((s.receive f).tasks i).reply = .sent r := by
  unfold State.receive
  split
  · split
    · next j hj =>
      refine (setReply_task s j i _).symm ▸ ?_
      dsimp only
      rw [if_neg, h]
      rintro rfl
      cases h.symm.trans ((hlinked _ i).1 hj).2
    · exact h
  · split <;> exact h

/-- A request that has its answer keeps it. -/
theorem sent_moved (hsane : Sane s) (h : (s.tasks i).reply = .sent r) (hm : Moved serde s m s') :
    (s'.tasks i).reply = .sent r := by
  cases hm with
  | stopped | passed => exact h
  | received => exact sent_receive hsane.linked h
  | @began j hphase =>
    obtain ⟨_, _, htask⟩ := begin_task s j i
    rw [htask]
    split
    · next hij => exact hij ▸ h
    · exact h
  | @registered j hphase =>
    rw [register_task]
    split
    · next hij =>
      cases h.symm.trans (hij ▸ (hsane.proper j).reply_of_registering hphase)
    · exact sent_removeSender h
  | acquired =>
    unfold acquire
    dsimp only
    split <;> exact (setPhase_reply s _ i _).trans h
  | unregistered => exact (setPhase_reply _ _ i _).trans (sent_removeSender h)
  | accepted | broke | finished | answered | disconnected | dropped =>
    exact (setPhase_reply s _ i _).trans h

theorem sent_play (hsane : Sane s) (h : (s.tasks i).reply = .sent r)
    (hplay : play (move serde) ms s = some s') : (s'.tasks i).reply = .sent r :=
  (play_invariant (I := fun s => Sane s ∧ (s.tasks i).reply = .sent r)
    (fun hs ht => ⟨hs.1.moved (moved_of_move ht), sent_moved hs.1 hs.2 (moved_of_move ht)⟩) hplay
    ⟨hsane, h⟩).2

/-- The request right after its registration. -/
theorem tracked_register (hsane : Sane s) (hi : (s.tasks i).phase = .registering) :
    Tracked (s.tasks i).id [] ((s.register i).tasks i) := by
  have hproper := hsane.proper i
  rw [Task.Proper, hi] at hproper
  rw [register_task, if_pos rfl]
  refine ⟨rfl, hproper.2, fun h => ?_, fun h => ?_, fun _ => .inl rfl, fun _ h => ?_, fun _ h => ?_⟩
  all_goals cases h

theorem Tracked.result {α : Type} {t : Task α} (h : Tracked id fs t) : Answered id fs t where
  resolved r hr := by
    cases hf : fs.find? (·.answers id) with
    | none =>
      rcases h.unanswered hf with hopen | ⟨hclosed, -⟩
      · cases hr.symm.trans hopen
      · cases hr.symm.trans hclosed
    | some f =>
      rcases h.answered f hf with hsent | ⟨hclosed, -⟩
      · cases hr.symm.trans hsent
        exact ⟨f, rfl, rfl⟩
      · cases hr.symm.trans hclosed
  delivered f hf := (h.answered f hf).imp_right And.right
  returned := h.returned

/-- As long as the moves are orderly, a request is answered by the first response with its id that
the reader handles once the request is registered; it keeps this answer whatever comes then. -/
theorem answered_by_first_response (calls : Nat → Call)
    (h₁ : play (move serde) ms₁ (start T calls) = some s₁)
    (hi : (s₁.tasks i).phase = .registering)
    (h₂ : play (move serde) (.advance i .go :: ms₂) s₁ = some s)
    (horderly : Along (move serde) (Orderly serde) (ms₁ ++ .advance i .go :: ms₂) (start T calls)) :
    Answered (s₁.tasks i).id (frames serde ms₂) (s.tasks i) ∧
    ∀ ms₃ s₃ r, play (move serde) ms₃ s = some s₃ → (s.tasks i).reply = .sent r →
      (s₃.tasks i).reply = .sent r := by
  obtain ⟨horderly₁, horderly₂⟩ := along_append.1 horderly
  have hsane₁ := sane_play h₁
  have hdistinct₁ := distinct_play horderly₁ h₁
  obtain ⟨hstep, horderly₂⟩ := horderly₂ s₁ h₁
  obtain ⟨t, ht, hplay⟩ := play_cons.1 h₂
  have hm := moved_of_move ht
  have hregister : s₁.register i = t := by
    refine Option.some.inj (Eq.trans ?_ ht)
    rw [move]
    unfold advance
    rw [hi]
  have htracked := tracked_register hsane₁ hi
  rw [hregister] at htracked
  have hsane : Sane s := sane_play (play_append.2 ⟨s₁, h₁, h₂⟩)
  refine ⟨?_, fun ms₃ s₃ r h₃ hr => sent_play hsane hr h₃⟩
  exact (tracked_play (hsane₁.moved hm) (hdistinct₁.moved hsane₁ hstep hm) (horderly₂ t ht)
    htracked hplay).result

/-! ## Samples -/

def pongText : String := "\x7b\"jsonrpc\":\"2.0\",\"id\":1,\"result\":\"pong\"\x7d"

def pingText : String := "\x7b\"jsonrpc\":\"2.0\",\"id\":1,\"method\":\"ping\"\x7d"

def pong : Response := { jsonrpc := some "2.0", id := some 1, result := some (.string "pong") }

def ping : Response := { jsonrpc := some "2.0", id := some 1, method := some "ping" }

/-- A parser that knows two frames. -/
def sampleSerde : Serde where
  float _ := "0.0"
  response s := if s = pongText then some pong else if s = pingText then some ping else none

def sampleCalls : Nat → Call := fun _ => .request "tools/list" .null

/-- The first call, which is registered, is sent, and then a frame comes. -/
def sampleRun (text : String) : List (Move webSocket) :=
  [.advance 0 .go, .advance 0 (.accept 1), .advance 0 .go, .read (some (.ok (.text text))),
    .advance 0 .go]

def sampleBegun : State webSocket := (start webSocket sampleCalls).begin 0

theorem answered_by_first_response_pong :
    ∃ s, play (move sampleSerde) (.advance 0 .go :: .advance 0 .go :: sampleRun pongText)
        (start webSocket sampleCalls) = some s ∧
      Answered 1 (frames sampleSerde (sampleRun pongText)) (s.tasks 0) := by
  have h₁ : play (move sampleSerde) [.advance 0 .go] (start webSocket sampleCalls) =
    some sampleBegun := rfl
  obtain ⟨s, hs⟩ : ∃ s, play (move sampleSerde) (.advance 0 .go :: sampleRun pongText) sampleBegun =
    some s := ⟨_, rfl⟩
  have horderly : Along (move sampleSerde) (Orderly sampleSerde) [.advance 0 .go, .advance 0 .go,
      .advance 0 .go, .advance 0 (.accept 1), .advance 0 .go,
      .read (some (.ok (.text pongText))), .advance 0 .go] (start webSocket sampleCalls) := by
    refine ⟨fun _ j hj => absurd rfl hj, fun s hs => ?_⟩
    obtain rfl := Option.some.inj hs
    refine ⟨(nomatch ·), fun s hs => ?_⟩
    obtain rfl := Option.some.inj hs
    refine ⟨(nomatch ·), fun s hs => ?_⟩
    obtain rfl := Option.some.inj hs
    refine ⟨(nomatch ·), fun s hs => ?_⟩
    obtain rfl := Option.some.inj hs
    refine ⟨(nomatch ·), fun s hs => ?_⟩
    obtain rfl := Option.some.inj hs
    refine ⟨fun r id hr _ hmethod => ?_, fun s hs => ?_⟩
    · cases hr
      cases hmethod
    obtain rfl := Option.some.inj hs
    exact ⟨(nomatch ·), fun s hs => trivial⟩
  have hanswered := (answered_by_first_response sampleCalls h₁ rfl hs horderly).1
  exact ⟨s, play_append.2 ⟨sampleBegun, h₁, hs⟩, hanswered⟩

/-- A request of the server answers the one that waits, with `null`. -/
theorem server_request_answers :
    ∃ s, play (move sampleSerde) (.advance 0 .go :: .advance 0 .go :: sampleRun pingText)
        (start webSocket sampleCalls) = some s ∧
      ping.method = some "ping" ∧ (s.tasks 0).phase = .returned (.ok .null) ∧
      ¬Answered 1 (frames sampleSerde (sampleRun pingText)) (s.tasks 0) := by
  refine ⟨_, rfl, rfl, rfl, fun h => ?_⟩
  obtain ⟨f, hf, -⟩ := h.resolved (.ok .null) rfl
  cases hf

end Tako.Mcp
