import Tako.Mcp.Moves

/-!
# Requests that nobody answers

The map of senders outlives the reader: what is in it when the reader ends stays there, and a request
that is sent later waits for good. So no request is stranded exactly as long as no move strands one
(`settled_iff`).
-/

namespace Tako.Mcp

open State Machine

variable {T : Transport} {serde : Serde} {s s' : State T}

namespace Phase

variable {α : Type}

/-- The call has still to hear whether its frame was sent. -/
def IsSending : Phase α → Prop
  | .acquiring | .writing _ | .unregistering _ => True
  | _ => False

/-- The call returned an error. -/
def IsError : Phase α → Prop
  | .failed _ | .returned (.error _) => True
  | _ => False

end Phase

/-- Once the reader has ended, nothing waits for it, and no sender is left but of calls that are
about to hear that their frame is not sent. A call that returned an error left no sender. -/
structure Settled (s : State T) : Prop where
  answered : s.reading = false → ∀ i, (s.tasks i).phase = .waiting → (s.tasks i).reply ≠ .open
  cleared : s.reading = false → ∀ id i, s.pending id = some i → (s.tasks i).phase.IsSending
  own : ∀ id i, s.pending id = some i → ¬(s.tasks i).phase.IsError

/-- A step after which nobody takes the sender of a call out of the map: its frame is sent though
the reader has ended, or it is not sent and the call does not clean up. -/
def Abandons (s : State T) : Phase T.Atom → Progress → Prop
  | .acquiring, .go => s.isOpen = false ∧ T.unregisters = false
  | .writing [], .go => s.reading = false
  | .writing _, .error _ => T.unregisters = false
  | _, _ => False

theorem not_abandons_accept {rest : List T.Atom} : ¬Abandons s (.writing rest) (.accept n) := by
  cases rest <;> exact id

theorem abandons_error {rest : List T.Atom} :
    Abandons s (.writing rest) (.error e) ↔ T.unregisters = false := by
  cases rest <;> rfl

/-- A move leaves a sender in the map for good. The reader does where it ends while a request that
was sent, or dropped, has its sender there. -/
def Strands (s : State T) : Move T → Prop
  | .read item => T.incoming item = .stop ∧
    ∃ id i, s.pending id = some i ∧ ¬(s.tasks i).phase.IsSending
  | .advance i how => (∃ id, s.pending id = some i) ∧ Abandons s (s.tasks i).phase how
  | .drop i => (∃ id, s.pending id = some i) ∧ s.reading = false

/-- What a call with a sender in the map may go to. -/
def Fits (reading : Bool) (phase : Phase T.Atom) : Prop :=
  (reading = false → phase.IsSending) ∧ ¬phase.IsError

theorem settled_congr (hreading : s'.reading = s.reading) (htasks : s'.tasks = s.tasks)
    (hpending : s'.pending = s.pending) : Settled s' ↔ Settled s := by
  constructor
  · rintro ⟨h₁, h₂, h₃⟩
    rw [hreading, htasks] at h₁
    rw [hreading, htasks, hpending] at h₂
    rw [htasks, hpending] at h₃
    exact ⟨h₁, h₂, h₃⟩
  · rintro ⟨h₁, h₂, h₃⟩
    constructor
    · rwa [hreading, htasks]
    · rwa [hreading, htasks, hpending]
    · rwa [htasks, hpending]

theorem settled_setPhase_iff (hlinked : Linked s) (h : Settled s) {phase : Phase T.Atom} :
    Settled (s.setPhase i phase) ↔ ∀ id, s.pending id = some i → Fits s.reading phase := by
  constructor
  · intro h' id hid
    have hphase : ((s.setPhase i phase).tasks i).phase = phase := by
      rw [setPhase_task, if_pos rfl]
    have hcleared := fun hreading => h'.cleared hreading id i hid
    have hown := h'.own id i hid
    rw [hphase] at hcleared hown
    exact ⟨hcleared, hown⟩
  · intro hfits
    have hphase (j : Nat) (hj : j ≠ i) : ((s.setPhase i phase).tasks j).phase = (s.tasks j).phase := by
      rw [setPhase_task, if_neg hj]
    have hown : ((s.setPhase i phase).tasks i).phase = phase := by
      rw [setPhase_task, if_pos rfl]
    refine ⟨fun hreading j hwaiting => ?_, fun hreading id j hid => ?_, fun id j hid => ?_⟩
    · rw [setPhase_reply]
      by_cases hj : j = i
      · subst hj
        intro hopen
        have hsending := (hfits _ ((hlinked _ j).2 ⟨rfl, hopen⟩)).1 hreading
        rw [← hown, hwaiting] at hsending
        exact hsending
      · rw [hphase j hj] at hwaiting
        exact h.answered hreading j hwaiting
    · by_cases hj : j = i
      · subst hj
        rw [hown]
        exact (hfits id hid).1 hreading
      · rw [hphase j hj]
        exact h.cleared hreading id j hid
    · by_cases hj : j = i
      · subst hj
        rw [hown]
        exact (hfits id hid).2
      · rw [hphase j hj]
        exact h.own id j hid

/-- A call whose sender is not in the map may go anywhere. -/
theorem settled_setPhase (hlinked : Linked s) (h : Settled s) {phase : Phase T.Atom}
    (hreply : (s.tasks i).reply ≠ .open) : Settled (s.setPhase i phase) :=
  (settled_setPhase_iff hlinked h).2 fun id hid => absurd ((hlinked id i).1 hid).2 hreply

/-! ## The operations -/

theorem receive_reading (s : State T) (r : Response) : (s.receive r).reading = s.reading := by
  unfold State.receive
  split
  · split <;> rfl
  · split <;> rfl

theorem pending_of_receive {id : UInt64} (h : (s.receive r).pending id = some i) : s.pending id = some i := by
  unfold State.receive at h
  split at h
  · split at h
    · dsimp only at h
      rw [Function.update_apply] at h
      split at h
      · cases h
      · exact h
    · exact h
  · split at h <;> exact h

theorem settled_receive (h : Settled s) (hreading : s.reading = true) (r : Response) :
    Settled (s.receive r) := by
  have hstill : (s.receive r).reading ≠ false := by
    rw [receive_reading, hreading]
    exact (nomatch ·)
  refine ⟨fun hended => absurd hended hstill, fun hended => absurd hended hstill, fun id i hid => ?_⟩
  rw [receive_phase]
  exact h.own id i (pending_of_receive hid)

theorem pending_of_removeSender {id id' : UInt64} (h : (s.removeSender id).pending id' = some i) :
    s.pending id' = some i := by
  rw [removeSender_pending, Function.update_apply] at h
  split at h
  · cases h
  · exact h

theorem removeSender_reading (s : State T) (id : UInt64) :
    (s.removeSender id).reading = s.reading := by
  unfold removeSender
  split <;> rfl

theorem settled_removeSender (h : Settled s) (id : UInt64) : Settled (s.removeSender id) := by
  refine ⟨fun hreading j hwaiting => ?_, fun hreading id' j hid => ?_, fun id' j hid => ?_⟩
  · rw [removeSender_reading] at hreading
    rw [removeSender_phase] at hwaiting
    have hreply := h.answered hreading j hwaiting
    rw [removeSender_task]
    dsimp only
    split
    · exact Reply.close_eq_open_iff
    · exact hreply
  · rw [removeSender_reading] at hreading
    rw [removeSender_phase]
    exact h.cleared hreading id' j (pending_of_removeSender hid)
  · rw [removeSender_phase]
    exact h.own id' j (pending_of_removeSender hid)

theorem settled_begin (h : Settled s) (hlinked : Linked s) (hi : (s.tasks i).reply = .unasked) :
    Settled (s.begin i) := by
  have hnone (id : UInt64) : s.pending id ≠ some i := fun hid => by
    cases hi.symm.trans ((hlinked id i).1 hid).2
  unfold State.begin
  split
  · refine ⟨fun hreading j => ?_, fun hreading id j hid => ?_, fun id j hid => ?_⟩
    all_goals dsimp only at *
    · rw [setTask_task]
      split
      · exact (nomatch ·)
      · exact h.answered hreading j
    · rw [setTask_task, if_neg (by rintro rfl; exact hnone id hid)]
      exact h.cleared hreading id j hid
    · rw [setTask_task, if_neg (by rintro rfl; exact hnone id hid)]
      exact h.own id j hid
  · exact settled_setPhase hlinked h (hi ▸ (nomatch ·))

theorem settled_register (h : Settled s) : Settled (s.register i) := by
  have hremoved := settled_removeSender h (s.tasks i).id
  have hpending {id : UInt64} {j : Nat} (hj : j ≠ i) (hid : (s.register i).pending id = some j) :
      (s.removeSender (s.tasks i).id).pending id = some j := by
    rw [register_pending, Function.update_apply] at hid
    rw [removeSender_pending, Function.update_apply]
    split at hid
    · exact absurd (Option.some.inj hid).symm hj
    · next hne => rwa [if_neg hne]
  have hreading : (s.register i).reading = (s.removeSender (s.tasks i).id).reading := rfl
  refine ⟨fun hended j => ?_, fun hended id j hid => ?_, fun id j hid => ?_⟩
  · rw [register_task]
    split
    · exact (nomatch ·)
    · exact hremoved.answered (hreading ▸ hended) j
  · rw [register_task]
    split
    · trivial
    · next hj => exact hremoved.cleared (hreading ▸ hended) id j (hpending hj hid)
  · rw [register_task]
    split
    · exact fun herror => herror
    · next hj => exact hremoved.own id j (hpending hj hid)

/-! ## The moves -/

/-- A call goes to another phase, which is fine unless `P`. -/
theorem settled_step (hlinked : Linked s) (h : Settled s) {P : Prop}
    (hreading : s'.reading = s.reading) (htasks : s'.tasks = (s.setPhase i phase).tasks)
    (hpending : s'.pending = s.pending)
    (hfits : ∀ id, s.pending id = some i → (Fits s.reading phase ↔ ¬P)) :
    Settled s' ↔ ¬((∃ id, s.pending id = some i) ∧ P) := by
  rw [settled_congr (s := s.setPhase i phase) hreading htasks hpending,
    settled_setPhase_iff hlinked h]
  constructor
  · rintro hall ⟨⟨id, hid⟩, hP⟩
    exact (hfits id hid).1 (hall id hid) hP
  · exact fun hnot id hid => (hfits id hid).2 fun hP => hnot ⟨⟨id, hid⟩, hP⟩

/-- Only a request has a sender in the map. -/
theorem isRequest_of_pending {id : UInt64} (hlinked : Linked s)
    (hcall : (s.tasks i).call.isRequest = true ↔ (s.tasks i).reply ≠ .unasked)
    (hid : s.pending id = some i) : (s.tasks i).call.isRequest = true :=
  hcall.2 (((hlinked id i).1 hid).2 ▸ (nomatch ·))

theorem fits_failedPhase {call : Call} (hcall : call.isRequest = true) {reading : Bool}
    {e : TakoError} : Fits reading (failedPhase T e call) ↔ ¬T.unregisters = false := by
  cases call with
  | request =>
    dsimp only [failedPhase]
    split
    · next h => exact iff_of_true ⟨fun _ => trivial, id⟩ (h ▸ (nomatch ·))
    · next h => exact iff_of_false (fun hfits => hfits.2 trivial) fun hnot => hnot (Bool.eq_false_iff.2 h)
  | notify | close => cases hcall

theorem fits_sentPhase {call : Call} (hcall : call.isRequest = true) {reading : Bool} :
    Fits reading (sentPhase T call) ↔ ¬reading = false := by
  cases call with
  | request => exact ⟨fun hfits => hfits.1, fun hreading => ⟨hreading, id⟩⟩
  | notify | close => cases hcall

theorem settled_stopped_iff (hlinked : Linked s) (h : Settled s) :
    Settled { s with reading := false } ↔
      ¬∃ id i, s.pending id = some i ∧ ¬(s.tasks i).phase.IsSending := by
  constructor
  · rintro h' ⟨id, i, hid, hsending⟩
    exact hsending (h'.cleared rfl id i hid)
  · intro hnone
    have hcleared (id : UInt64) (i : Nat) (hid : s.pending id = some i) :
        (s.tasks i).phase.IsSending := by
      by_contra hsending
      exact hnone ⟨id, i, hid, hsending⟩
    refine ⟨fun _ i hwaiting hopen => ?_, fun _ => hcleared, h.own⟩
    have hsending := hcleared _ i ((hlinked _ i).2 ⟨rfl, hopen⟩)
    rw [hwaiting] at hsending
    exact hsending

theorem settled_moved_iff (hsane : Sane s) (h : Settled s) (hm : Moved serde s m s') :
    Settled s' ↔ ¬Strands s m := by
  obtain ⟨hlinked, hproper⟩ := hsane
  cases hm with
  | stopped _ hstop =>
    rw [Strands, settled_stopped_iff hlinked h, and_iff_right hstop]
  | received hreading hheard =>
    exact iff_of_true (settled_receive h hreading _) fun hstrands => heard_ne_stop hheard hstrands.1
  | passed _ hgo => exact iff_of_true h fun hstrands => hgo hstrands.1
  | began hphase =>
    refine iff_of_true (settled_begin h hlinked ((hproper _).reply_of_start hphase)) ?_
    rw [Strands, hphase]
    exact And.right
  | registered hphase =>
    refine iff_of_true (settled_register h) ?_
    rw [Strands, hphase]
    exact And.right
  | @acquired i hphase =>
    rw [Strands, hphase]
    unfold acquire
    dsimp only
    split
    · next hopen =>
      refine settled_step hlinked h rfl rfl rfl fun id hid => ?_
      refine iff_of_true ⟨fun _ => trivial, fun herror => herror⟩ fun hclosed => ?_
      cases hopen.symm.trans hclosed.1
    · next hclosed =>
      refine settled_step hlinked h rfl rfl rfl fun id hid => ?_
      rw [fits_failedPhase (isRequest_of_pending hlinked ((hproper i).of_acquiring hphase) hid),
        Abandons, and_iff_right (Bool.eq_false_iff.2 hclosed)]
  | @accepted i rest n hphase =>
    rw [Strands, hphase]
    refine settled_step hlinked h rfl rfl rfl fun id hid => ?_
    exact iff_of_true ⟨fun _ => trivial, fun herror => herror⟩ not_abandons_accept
  | @broke i rest _ err hphase =>
    rw [Strands, hphase]
    refine settled_step hlinked h rfl rfl rfl fun id hid => ?_
    rw [abandons_error]
    exact fits_failedPhase (isRequest_of_pending hlinked ((hproper i).of_writing hphase) hid)
  | @finished i hphase =>
    rw [Strands, hphase]
    refine settled_step hlinked h rfl rfl rfl fun id hid => ?_
    exact fits_sentPhase (isRequest_of_pending hlinked ((hproper i).of_writing hphase) hid)
  | @unregistered i e hphase =>
    have hreply : ((s.removeSender (s.tasks i).id).tasks i).reply ≠ .open := by
      rw [removeSender_task]
      dsimp only
      split
      · exact Reply.close_eq_open_iff
      · next hnone => exact fun hopen => hnone ((hlinked _ i).2 ⟨rfl, hopen⟩)
    refine iff_of_true (settled_setPhase (hlinked.removeSender _)
      (settled_removeSender h _) hreply) ?_
    rw [Strands, hphase]
    exact And.right
  | @answered i r hphase hr =>
    refine iff_of_true (settled_setPhase hlinked h (hr ▸ (nomatch ·))) ?_
    rw [Strands, hphase]
    exact And.right
  | @disconnected i hphase hr =>
    refine iff_of_true (settled_setPhase hlinked h (hr ▸ (nomatch ·))) ?_
    rw [Strands, hphase]
    exact And.right
  | @dropped i hphase =>
    refine settled_step hlinked h rfl rfl rfl fun id hid => ?_
    exact ⟨fun hfits hended => hfits.1 hended,
      fun hreading => ⟨fun hended => absurd hended hreading, fun herror => herror⟩⟩

/-! ## Runs -/

theorem settled_start (calls : Nat → Call) : Settled (start T calls) where
  answered _ _ := (nomatch ·)
  cleared _ _ _ := (nomatch ·)
  own _ _ := (nomatch ·)

/-- No request is stranded in any state of a run exactly if no move strands one. -/
theorem settled_iff (calls : Nat → Call) (h : play (move serde) ms (start T calls) = some s) :
    Visits (move serde) Settled ms (start T calls) ↔
      Along (move serde) (fun s m => ¬Strands s m) ms (start T calls) :=
  visits_iff (I := Sane) (fun hsane hm => hsane.moved (moved_of_move hm))
    (fun hsane hsettled hm => settled_moved_iff hsane hsettled (moved_of_move hm)) h
    (sane_start T calls) (settled_start calls)

/-! ## Samples -/

/-- A parser that knows no frame. -/
def deafSerde : Serde where
  float _ := "0.0"
  response _ := none

def pingCalls : Nat → Call := fun _ => .request "ping" .null

/-- The first call is sent, and then the peer closes the connection. -/
def lostRun : List (Move webSocket) :=
  [.advance 0 .go, .advance 0 .go, .advance 0 .go, .advance 0 (.accept 1), .advance 0 .go,
    .read none]

/-- The first call is not sent, since the pipe is broken. -/
def brokenRun : List (Move stdio) :=
  [.advance 0 .go, .advance 0 .go, .advance 0 .go, .advance 0 (.error "Broken pipe")]

theorem settled_iff_lost : ∃ s, play (move deafSerde) lostRun (start webSocket pingCalls) = some s ∧
    (Visits (move deafSerde) Settled lostRun (start webSocket pingCalls) ↔
      Along (move deafSerde) (fun s m => ¬Strands s m) lostRun (start webSocket pingCalls)) :=
  ⟨_, rfl, settled_iff pingCalls rfl⟩

/-- A request waits though the reader has ended, and one that fails is still in the map. -/
theorem requests_stranded :
    (∃ s, play (move deafSerde) lostRun (start webSocket pingCalls) = some s ∧
      s.reading = false ∧ s.pending 1 = some 0 ∧ (s.tasks 0).phase = .waiting ∧
      (s.tasks 0).reply = .open ∧ ¬Settled s) ∧
    ∃ s, play (move deafSerde) brokenRun (start stdio pingCalls) = some s ∧
      s.pending 1 = some 0 ∧ (s.tasks 0).phase = .failed (.transport "write: Broken pipe") ∧
      ¬Settled s := by
  refine ⟨⟨_, rfl, rfl, rfl, rfl, rfl, fun h => ?_⟩, ⟨_, rfl, rfl, rfl, fun h => ?_⟩⟩
  · exact h.answered rfl 0 rfl rfl
  · exact h.own 1 0 rfl trivial

end Tako.Mcp
