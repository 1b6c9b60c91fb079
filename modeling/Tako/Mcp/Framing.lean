import Mathlib.Data.List.Basic
import Tako.Mcp.Moves

/-!
# Whole frames

The lock of the sink keeps frames apart only if a call that begins to write its frame writes it to
the end. As long as none is dropped or fails halfway, the child reads whole frames, each of them once
(`output_framed`).
-/

namespace Tako.Mcp

open State Machine

variable {T : Transport} {serde : Serde} {s s' : State T}

/-- A call releases the lock with some of its frame written, and not all. -/
def Tears (serde : Serde) (s : State T) : Move T → Prop
  | .drop i | .advance i (.error _) =>
    ∃ rest, (s.tasks i).phase = .writing rest ∧ rest ≠ [] ∧ rest ≠ frame serde (s.tasks i)
  | _ => False

/-- The sink takes atoms. -/
def Move.Writes : Move T → Prop
  | .advance _ (.accept _) => True
  | _ => False

/-- The sink took the frames of the calls in `order`, and then `part` of the frame of another one. -/
structure Framed (serde : Serde) (s : State T) (order : List Nat) (part : List T.Atom) : Prop where
  nodup : order.Nodup
  begun : ∀ i ∈ order, (s.tasks i).phase ≠ .start
  output : s.output = order.flatMap (fun i => frame serde (s.tasks i)) ++ part
  last : part = [] ∨ ∃ i ∉ order, (s.tasks i).phase ≠ .start ∧ part <+: frame serde (s.tasks i)

/-! ## Frames of calls -/

theorem frame_congr {t t' : Task T.Atom} (hcall : t'.call = t.call) (hid : t'.id = t.id) :
    frame serde t' = frame serde t := by
  unfold frame
  rw [hcall, hid]

/-- A call that has begun keeps its frame. -/
def Keeps (serde : Serde) (t t' : Task T.Atom) : Prop :=
  t.phase ≠ .start → t'.phase ≠ .start ∧ frame serde t' = frame serde t

theorem Keeps.trans {t t' t'' : Task T.Atom} (h : Keeps serde t t') (h' : Keeps serde t' t'') :
    Keeps serde t t'' := fun hbegun =>
  (h' (h hbegun).1).imp_right fun hframe => hframe.trans (h hbegun).2

theorem keeps_setPhase (hphase : phase ≠ .start) (j : Nat) :
    Keeps serde (s.tasks j) ((s.setPhase i phase).tasks j) := by
  intro hbegun
  rw [setPhase_task]
  refine ⟨?_, frame_congr rfl rfl⟩
  dsimp only
  split
  · exact hphase
  · exact hbegun

theorem keeps_removeSender (id : UInt64) (j : Nat) :
    Keeps serde (s.tasks j) ((s.removeSender id).tasks j) := by
  intro hbegun
  rw [removeSender_task]
  exact ⟨hbegun, frame_congr rfl rfl⟩

theorem keeps_receive (r : Response) (j : Nat) :
    Keeps serde (s.tasks j) ((s.receive r).tasks j) := by
  intro hbegun
  unfold State.receive
  split
  · split
    · next i _ =>
      rw [show _ = _ from setReply_task s i j (.sent r.outcome)]
      exact ⟨hbegun, frame_congr rfl rfl⟩
    · exact ⟨hbegun, rfl⟩
  · split <;> exact ⟨hbegun, rfl⟩

theorem failedPhase_ne_start {call : Call} : failedPhase T e call ≠ .start := by
  cases call with
  | request =>
    dsimp only [failedPhase]
    split <;> exact (nomatch ·)
  | notify | close => exact (nomatch ·)

theorem sentPhase_ne_start {call : Call} : sentPhase T call ≠ .start := by
  cases call <;> exact (nomatch ·)

theorem Moved.keeps (hm : Moved serde s m s') (j : Nat) :
    Keeps serde (s.tasks j) (s'.tasks j) := by
  cases hm with
  | stopped | passed => exact fun hbegun => ⟨hbegun, rfl⟩
  | received => exact keeps_receive _ j
  | @began i hphase =>
    intro hbegun
    obtain ⟨_, _, htask⟩ := begin_task s i j
    rw [htask, if_neg (by rintro rfl; exact hbegun hphase)]
    exact ⟨hbegun, rfl⟩
  | registered =>
    rw [register_task]
    split
    · next hj => exact fun _ => ⟨(nomatch ·), hj ▸ frame_congr rfl rfl⟩
    · exact keeps_removeSender _ j
  | acquired =>
    unfold acquire
    dsimp only
    split
    · refine keeps_setPhase ?_ j
      exact (nomatch ·)
    · exact keeps_setPhase failedPhase_ne_start j
  | broke => exact keeps_setPhase failedPhase_ne_start j
  | finished => exact keeps_setPhase sentPhase_ne_start j
  | unregistered =>
    refine (keeps_removeSender _ j).trans (keeps_setPhase ?_ j)
    exact (nomatch ·)
  | accepted | answered | disconnected | dropped =>
    refine keeps_setPhase ?_ j
    exact (nomatch ·)

/-! ## Phases of calls -/

namespace Phase

variable {α : Type} {phase : Phase α} {rest : List α}

/-- The call does not write any more. -/
def IsPast : Phase α → Prop
  | .start | .registering | .acquiring | .writing _ => False
  | _ => True

theorem IsPast.ne_writing (h : phase.IsPast) : phase ≠ .writing rest := by
  rintro rfl
  exact h

theorem IsPast.ne_start (h : phase.IsPast) : phase ≠ .start := by
  rintro rfl
  exact h

end Phase

theorem isPast_failedPhase {call : Call} : (failedPhase T e call).IsPast := by
  cases call with
  | request =>
    dsimp only [failedPhase]
    split <;> trivial
  | notify | close => trivial

theorem isPast_sentPhase {call : Call} : (sentPhase T call).IsPast := by
  cases call <;> trivial

/-! ## Frames that are written -/

/-- The sink took the frames of the calls in `order`, and `part` of the one that has the lock. -/
structure Written (serde : Serde) (s : State T) (order : List Nat) (part : List T.Atom) : Prop where
  nodup : order.Nodup
  output : s.output = order.flatMap (fun i => frame serde (s.tasks i)) ++ part
  past : ∀ i ∈ order, (s.tasks i).phase.IsPast
  locked : ∀ i, s.holder = some i ↔ ∃ rest, (s.tasks i).phase = .writing rest
  writing : ∀ i rest, (s.tasks i).phase = .writing rest → frame serde (s.tasks i) = part ++ rest
  free : s.holder = none → part = []

/-- The frames in `order` stay what they are. -/
theorem frames_congr {order : List Nat} (h : ∀ i ∈ order, (s.tasks i).phase ≠ .start)
    (hkeeps : ∀ i, Keeps serde (s.tasks i) (s'.tasks i)) :
    order.flatMap (fun i => frame serde (s'.tasks i)) =
      order.flatMap (fun i => frame serde (s.tasks i)) :=
  List.flatMap_congr fun i hi => (hkeeps i (h i hi)).2

namespace Written

variable {order : List Nat} {part : List T.Atom}

theorem begun (h : Written serde s order part) (i : Nat) (hi : i ∈ order) :
    (s.tasks i).phase ≠ .start := (h.past i hi).ne_start

/-- Nobody writes, begins to write or stops. -/
theorem elsewhere (h : Written serde s order part) (houtput : s'.output = s.output)
    (hholder : s'.holder = s.holder) (hkeeps : ∀ j, Keeps serde (s.tasks j) (s'.tasks j))
    (hpast : ∀ j, (s.tasks j).phase.IsPast → (s'.tasks j).phase.IsPast)
    (hwriting : ∀ j rest, (s'.tasks j).phase = .writing rest ↔ (s.tasks j).phase = .writing rest) :
    Written serde s' order part where
  nodup := h.nodup
  output := by rw [houtput, h.output, frames_congr h.begun hkeeps]
  past i hi := hpast i (h.past i hi)
  locked i := by
    rw [hholder, h.locked]
    exact exists_congr fun rest => (hwriting i rest).symm
  writing i rest hi := by
    rw [hwriting] at hi
    rw [(hkeeps i (hi ▸ (nomatch ·))).2, h.writing i rest hi]
  free hfree := h.free (hholder ▸ hfree)

/-- A call that does not write goes on, and does not write then either. -/
theorem goOn (h : Written serde s order part) (hi : (s.tasks i).phase = phase)
    (houtput : s'.output = s.output) (hholder : s'.holder = s.holder)
    (hkeeps : ∀ j, Keeps serde (s.tasks j) (s'.tasks j))
    (hphases : ∀ j, (s'.tasks j).phase = if j = i then phase' else (s.tasks j).phase)
    (hphase : ∀ rest, phase ≠ .writing rest) (hphase' : ∀ rest, phase' ≠ .writing rest)
    (hpast : phase.IsPast → phase'.IsPast) : Written serde s' order part := by
  refine h.elsewhere houtput hholder hkeeps (fun j hj => ?_) fun j rest => ?_
  · rw [hphases]
    split
    · next hji =>
      rw [hji, hi] at hj
      exact hpast hj
    · exact hj
  · rw [hphases]
    split
    · next hj =>
      rw [hj, hi]
      exact iff_of_false (hphase' rest) (hphase rest)
    · rfl

/-- A call has the lock, and `rest` of its frame to write. -/
theorem write (h : Written serde s order part) (hbegun : (s.tasks i).phase ≠ .start)
    (hi : ¬(s.tasks i).phase.IsPast) (hothers : ∀ j, s.holder = some j → j = i)
    (htasks : s'.tasks = (s.setPhase i (.writing rest)).tasks) (hholder : s'.holder = some i)
    (hframe : frame serde (s.tasks i) = part' ++ rest)
    (houtput : s'.output = order.flatMap (fun i => frame serde (s.tasks i)) ++ part') :
    Written serde s' order part' := by
  have hkeeps (j : Nat) : Keeps serde (s.tasks j) (s'.tasks j) := by
    rw [htasks]
    refine keeps_setPhase ?_ j
    exact (nomatch ·)
  have hself : (s'.tasks i).phase = .writing rest := by
    rw [htasks, setPhase_task, if_pos rfl]
  have hother {j : Nat} (hj : j ≠ i) : (s'.tasks j).phase = (s.tasks j).phase := by
    rw [htasks, setPhase_task, if_neg hj]
  refine ⟨h.nodup, ?_, fun j hj => ?_, fun j => ?_, fun j rest' hj => ?_, fun hnone => ?_⟩
  · rw [houtput, frames_congr h.begun hkeeps]
  · have hpast := h.past j hj
    rw [hother (by rintro rfl; exact hi hpast)]
    exact hpast
  · rw [hholder]
    by_cases hj : j = i
    · exact iff_of_true (congrArg some hj.symm) ⟨rest, hj ▸ hself⟩
    · rw [hother hj]
      refine iff_of_false (fun heq => hj (Option.some.inj heq).symm) fun hwriting => ?_
      exact hj (hothers j ((h.locked j).2 hwriting))
  · by_cases hji : j = i
    · subst hji
      cases hself.symm.trans hj
      rw [(hkeeps j hbegun).2, hframe]
    · rw [hother hji] at hj
      exact absurd (hothers j ((h.locked j).2 ⟨rest', hj⟩)) hji
  · cases hholder.symm.trans hnone

/-- A call that has written all of its frame, or nothing, releases the lock. -/
theorem release (h : Written serde s order part) (hphase : (s.tasks i).phase = .writing rest)
    (hwhole : rest = [] ∨ rest = frame serde (s.tasks i))
    (htasks : s'.tasks = (s.setPhase i phase).tasks) (houtput : s'.output = s.output)
    (hholder : s'.holder = none) (hpast : phase.IsPast) :
    ∃ order' part', Written serde s' order' part' := by
  have hkeeps (j : Nat) : Keeps serde (s.tasks j) (s'.tasks j) := by
    rw [htasks]
    exact keeps_setPhase hpast.ne_start j
  have hself : (s'.tasks i).phase = phase := by
    rw [htasks, setPhase_task, if_pos rfl]
  have hother {j : Nat} (hj : j ≠ i) : (s'.tasks j).phase = (s.tasks j).phase := by
    rw [htasks, setPhase_task, if_neg hj]
  have hnone (j : Nat) (rest' : List T.Atom) : (s'.tasks j).phase ≠ .writing rest' := by
    by_cases hj : j = i
    · subst hj
      exact hself ▸ hpast.ne_writing
    · rw [hother hj]
      intro hwriting
      have hboth := ((h.locked j).2 ⟨rest', hwriting⟩).symm.trans ((h.locked i).2 ⟨rest, hphase⟩)
      exact hj (Option.some.inj hboth)
  have hdone (j : Nat) (hj : j ∈ order) : (s'.tasks j).phase.IsPast := by
    by_cases hji : j = i
    · subst hji
      exact hself ▸ hpast
    · rw [hother hji]
      exact h.past j hj
  have hlocked (j : Nat) : s'.holder = some j ↔ ∃ rest', (s'.tasks j).phase = .writing rest' := by
    rw [hholder]
    exact iff_of_false (nomatch ·) fun ⟨rest', hwriting⟩ => hnone j rest' hwriting
  have hframe := h.writing i rest hphase
  rcases hwhole with rfl | rfl
  · rw [List.append_nil] at hframe
    have hi : i ∉ order := fun hi => (h.past i hi).ne_writing hphase
    refine ⟨order ++ [i], [], ?_, ?_, fun j hj => ?_, hlocked,
      fun j rest' hj => absurd hj (hnone j rest'), fun _ => rfl⟩
    · refine List.nodup_append.2 ⟨h.nodup, List.pairwise_singleton _ i, fun j hj k hk => ?_⟩
      obtain rfl := List.mem_singleton.1 hk
      rintro rfl
      exact hi hj
    · rw [houtput, h.output, List.flatMap_append, frames_congr h.begun hkeeps, ← hframe,
        List.flatMap_singleton, (hkeeps i (hphase ▸ (nomatch ·))).2, List.append_nil]
    · rcases List.mem_append.1 hj with hj | hj
      · exact hdone j hj
      · rw [List.mem_singleton.1 hj, hself]
        exact hpast
  · have hpart : part = [] := List.append_left_eq_self.1 hframe.symm
    refine ⟨order, [], h.nodup, ?_, hdone, hlocked,
      fun j rest' hj => absurd hj (hnone j rest'), fun _ => rfl⟩
    rw [houtput, h.output, hpart, frames_congr h.begun hkeeps]

theorem framed (h : Written serde s order part) : Framed serde s order part where
  nodup := h.nodup
  begun := h.begun
  output := h.output
  last := by
    cases hholder : s.holder with
    | none => exact .inl (h.free hholder)
    | some i =>
      obtain ⟨rest, hwriting⟩ := (h.locked i).1 hholder
      refine .inr ⟨i, fun hi => (h.past i hi).ne_writing hwriting, hwriting ▸ (nomatch ·), ?_⟩
      exact h.writing i rest hwriting ▸ List.prefix_append _ _

/-- A move that tears no frame keeps this. -/
theorem moved (h : Written serde s order part) (hm : Moved serde s m s') (hwhole : ¬Tears serde s m) :
    ∃ order' part', Written serde s' order' part' := by
  have hkeeps := hm.keeps
  have hwhole' {i : Nat} (hm : m = .drop i ∨ ∃ e, m = .advance i (.error e)) {rest : List T.Atom}
      (hphase : (s.tasks i).phase = .writing rest) : rest = [] ∨ rest = frame serde (s.tasks i) := by
    by_contra hne
    rw [not_or] at hne
    rcases hm with rfl | ⟨e, rfl⟩ <;> exact hwhole ⟨rest, hphase, hne⟩
  cases hm with
  | stopped | passed =>
    exact ⟨order, part, h.elsewhere rfl rfl hkeeps (fun _ => id) fun _ _ => Iff.rfl⟩
  | received =>
    refine ⟨order, part, h.elsewhere (receive_sink s _).1 (receive_sink s _).2 hkeeps
      (fun j => ?_) fun j rest => ?_⟩
    · rw [receive_phase]
      exact id
    · rw [receive_phase]
  | @began i hphase =>
    obtain ⟨phase, hnext, hphases⟩ := begin_phase s i
    refine ⟨order, part, h.goOn hphase (begin_sink s i).1 (begin_sink s i).2 hkeeps hphases
      (fun _ => (nomatch ·)) ?_ False.elim⟩
    rcases hnext with rfl | rfl <;> exact fun _ => (nomatch ·)
  | @registered i hphase =>
    have hsink := removeSender_sink s (s.tasks i).id
    exact ⟨order, part, h.goOn hphase hsink.1 hsink.2 hkeeps (register_phase s i)
      (fun _ => (nomatch ·)) (fun _ => (nomatch ·)) False.elim⟩
  | @acquired i hphase hfree =>
    obtain rfl := h.free hfree
    unfold acquire
    dsimp only
    split
    · refine ⟨order, [], h.write (hphase ▸ (nomatch ·)) (hphase ▸ id) (fun j hj => ?_) rfl rfl rfl
        h.output⟩
      cases hfree.symm.trans hj
    · exact ⟨order, [], h.goOn hphase rfl rfl (keeps_setPhase failedPhase_ne_start)
        (setPhase_phase s i · _) (fun _ => (nomatch ·)) (fun _ => isPast_failedPhase.ne_writing)
        False.elim⟩
  | @accepted i rest n hphase =>
    have hholder := (h.locked i).2 ⟨rest, hphase⟩
    refine ⟨order, part ++ rest.take n, h.write (hphase ▸ (nomatch ·)) (hphase ▸ id) (fun j hj => ?_)
      rfl hholder ?_ ?_⟩
    · exact Option.some.inj (hj.symm.trans hholder)
    · rw [List.append_assoc, List.take_append_drop, h.writing i rest hphase]
    · rw [← List.append_assoc, ← h.output]
  | broke hphase =>
    exact h.release hphase (hwhole' (.inr ⟨_, rfl⟩) hphase) rfl rfl rfl isPast_failedPhase
  | finished hphase => exact h.release hphase (.inl rfl) rfl rfl rfl isPast_sentPhase
  | @unregistered i e hphase =>
    have hsink := removeSender_sink s (s.tasks i).id
    have hphases (j : Nat) : (((s.removeSender (s.tasks i).id).setPhase i (.failed e)).tasks j).phase =
        if j = i then .failed e else (s.tasks j).phase := by
      rw [setPhase_phase, removeSender_phase]
    exact ⟨order, part, h.goOn hphase hsink.1 hsink.2 hkeeps hphases (fun _ => (nomatch ·))
      (fun _ => (nomatch ·)) id⟩
  | @answered i _ hphase | @disconnected i hphase =>
    exact ⟨order, part, h.goOn hphase rfl rfl hkeeps (setPhase_phase s i · _) (fun _ => (nomatch ·))
      (fun _ => (nomatch ·)) id⟩
  | @dropped i hover =>
    by_cases hi : ∃ rest, (s.tasks i).phase = .writing rest
    · obtain ⟨rest, hphase⟩ := hi
      refine h.release hphase (hwhole' (.inl rfl) hphase) rfl rfl ?_ trivial
      exact if_pos ((h.locked i).2 ⟨rest, hphase⟩)
    · have hholder : s.holder ≠ some i := fun hholder => hi ((h.locked i).1 hholder)
      exact ⟨order, part, h.goOn rfl rfl (if_neg hholder) hkeeps (setPhase_phase s i · _)
        (fun rest hphase => hi ⟨rest, hphase⟩) (fun _ => (nomatch ·)) fun _ => trivial⟩

end Written

/-! ## Runs -/

theorem written_start (calls : Nat → Call) : Written serde (start T calls) [] [] where
  nodup := List.nodup_nil
  output := rfl
  past _ := (nomatch ·)
  locked _ := iff_of_false (nomatch ·) fun ⟨_, h⟩ => nomatch h
  writing _ _ := (nomatch ·)
  free _ := rfl

theorem written_play (h : play (move serde) ms (start T calls) = some s)
    (hwhole : Along (move serde) (fun s m => ¬Tears serde s m) ms (start T calls)) :
    ∃ order part, Written serde s order part :=
  play_invariant_along (I := fun s => ∃ order part, Written serde s order part)
    (fun ⟨_, _, hs⟩ hm ht => hs.moved (moved_of_move ht) hm) h hwhole ⟨[], [], written_start calls⟩

theorem Moved.output (hm : Moved serde s m s') (hquiet : ¬m.Writes) : s'.output = s.output := by
  cases hm with
  | accepted => exact absurd trivial hquiet
  | received => exact (receive_sink s _).1
  | began => exact (begin_sink s _).1
  | registered | unregistered => exact (removeSender_sink s _).1
  | acquired =>
    unfold acquire
    dsimp only
    split <;> rfl
  | stopped | passed | broke | finished | answered | disconnected | dropped => rfl

theorem Framed.moved {order : List Nat} {part : List T.Atom} (h : Framed serde s order part)
    (hm : Moved serde s m s') (hquiet : ¬m.Writes) : Framed serde s' order part where
  nodup := h.nodup
  begun i hi := (hm.keeps i (h.begun i hi)).1
  output := by rw [hm.output hquiet, h.output, frames_congr h.begun hm.keeps]
  last := by
    refine h.last.imp_right fun ⟨i, hi, hbegun, hpart⟩ => ⟨i, hi, ?_⟩
    obtain ⟨hbegun', hframe⟩ := hm.keeps i hbegun
    exact ⟨hbegun', hframe ▸ hpart⟩

theorem framed_play {order : List Nat} {part : List T.Atom} (h : Framed serde s order part)
    (hplay : play (move serde) ms s = some s') (hquiet : ∀ m ∈ ms, ¬m.Writes) :
    Framed serde s' order part :=
  play_invariant_along (I := fun s => Framed serde s order part) (P := fun _ m => ¬m.Writes)
    (fun hs hm ht => hs.moved (moved_of_move ht) hm) hplay
    (along_of_forall fun m hm _ => hquiet m hm) h

/-! ## Lines -/

/-- A JSON text and the line break after it, which is the only one. -/
def IsLine (serde : Serde) (bytes : List UInt8) : Prop :=
  ∃ v, bytes = Str.asBytes (serde.text v) ++ [10] ∧ 10 ∉ Str.asBytes (serde.text v)

theorem asBytes_append (s t : String) :
    Str.asBytes (s ++ t) = Str.asBytes s ++ Str.asBytes t := by
  unfold Str.asBytes
  rw [String.toList_append, List.flatMap_append]

theorem asBytes_line (s : String) : Str.asBytes (s ++ "\n") = Str.asBytes s ++ [10] :=
  asBytes_append s "\n"

theorem isLine_text (hfloats : serde.SingleLineFloats) (v : Json) :
    IsLine serde (stdio.frame (serde.text v)) :=
  ⟨v, asBytes_line (serde.text v), (Serde.singleLine_text hfloats v).asBytes⟩

theorem isLine_frame (hfloats : serde.SingleLineFloats) (t : Task stdio.Atom)
    (h : frame serde t ≠ []) : IsLine serde (frame serde t) := by
  unfold frame at *
  split
  · exact isLine_text hfloats _
  · exact isLine_text hfloats _
  · next hclose =>
    rw [hclose] at h
    exact absurd rfl h

theorem flatMap_filter_isEmpty {α β : Type} (f : α → List β) (l : List α) :
    (l.filter fun a => !(f a).isEmpty).flatMap f = l.flatMap f := by
  induction l with
  | nil => rfl
  | cons a l ih =>
    rw [List.filter_cons]
    split
    · rw [List.flatMap_cons, ih, List.flatMap_cons]
    · next hempty =>
      have hnil : f a = [] := by simpa using hempty
      rw [ih, List.flatMap_cons, hnil, List.nil_append]

/-- Calls without a frame do not matter. -/
theorem Framed.filter {order : List Nat} {part : List T.Atom} (h : Framed serde s order part) :
    Framed serde s (order.filter fun i => !(frame serde (s.tasks i)).isEmpty) part where
  nodup := h.nodup.filter _
  begun i hi := h.begun i (List.mem_of_mem_filter hi)
  output := by rw [h.output, flatMap_filter_isEmpty]
  last := h.last.imp_right fun ⟨i, hi, hpart⟩ => ⟨i, fun hmem => hi (List.mem_of_mem_filter hmem), hpart⟩

/-- The bytes that reach the child are whole lines, one for each of some calls, and then some of
another one, as long as nothing is written once a call has left its frame unfinished. -/
theorem output_framed (hfloats : serde.SingleLineFloats) (calls : Nat → Call)
    {s₁ s : State stdio} (h₁ : play (move serde) ms₁ (start stdio calls) = some s₁)
    (hwhole : Along (move serde) (fun s m => ¬Tears serde s m) ms₁ (start stdio calls))
    (h₂ : play (move serde) ms₂ s₁ = some s) (hquiet : ∀ m ∈ ms₂, ¬m.Writes) :
    ∃ order part, Framed serde s order part ∧
      (∀ i ∈ order, IsLine serde (frame serde (s.tasks i))) ∧
      (part = [] ∨ ∃ line, IsLine serde line ∧ part <+: line) := by
  obtain ⟨order, part, hwritten⟩ := written_play h₁ hwhole
  have hframed := framed_play hwritten.framed h₂ hquiet
  refine ⟨_, part, hframed.filter, fun i hi => ?_, ?_⟩
  · refine isLine_frame hfloats _ fun hempty => ?_
    have hfull := List.of_mem_filter hi
    rw [hempty] at hfull
    cases hfull
  · rcases hframed.last with hnil | ⟨i, -, -, hpart⟩
    · exact .inl hnil
    · by_cases hempty : frame serde (s.tasks i) = []
      · rw [hempty] at hpart
        exact .inl (List.prefix_nil.1 hpart)
      · exact .inr ⟨_, isLine_frame hfloats _ hempty, hpart⟩

/-! ## Samples -/

/-- A parser that knows no frame. -/
def muteSerde : Serde where
  float _ := "0.0"
  response _ := none

def listCalls : Nat → Call := fun _ => .request "tools/list" .null

/-- The first call is sent in part. -/
def startedRun : List (Move stdio) :=
  [.advance 0 .go, .advance 0 .go, .advance 0 .go, .advance 0 (.accept 5)]

/-- The first call is dropped halfway, and then nothing is written. -/
theorem output_framed_dropped :
    ∃ s, play (move muteSerde) (startedRun ++ [.drop 0]) (start stdio listCalls) = some s ∧
      ∃ order part, Framed muteSerde s order part ∧
        (∀ i ∈ order, IsLine muteSerde (frame muteSerde (s.tasks i))) ∧
        (part = [] ∨ ∃ line, IsLine muteSerde line ∧ part <+: line) := by
  have hfloat : SingleLine "0.0" := by decide
  have hrun : (play (move muteSerde) (startedRun ++ [.drop 0]) (start stdio listCalls)).isSome := by
    decide +kernel
  obtain ⟨s, hs⟩ := Option.isSome_iff_exists.1 hrun
  obtain ⟨s₁, h₁, h₂⟩ := play_append.1 hs
  refine ⟨s, hs, output_framed (fun _ => hfloat) listCalls h₁ ?_ h₂ fun m hm => ?_⟩
  · exact ⟨id, fun _ _ => ⟨id, fun _ _ => ⟨id, fun _ _ => ⟨id, fun _ _ => trivial⟩⟩⟩⟩
  · rw [List.mem_singleton.1 hm]
    exact id

/-- The first call is dropped when the pipe has taken half of its frame; the second one is sent. -/
def tornRun : List (Move stdio) :=
  [.advance 0 .go, .advance 0 .go, .advance 0 .go, .advance 0 (.accept 5), .drop 0,
    .advance 1 .go, .advance 1 .go, .advance 1 .go, .advance 1 (.accept 61), .advance 1 .go]

/-- The frame of every request begins alike. -/
theorem head_of_frame {t : Task stdio.Atom} (h : t.call = .request method params) :
    ([123, 34, 106, 115, 111, 110] : List UInt8) <+: frame serde t := by
  unfold frame
  rw [h]
  refine List.IsPrefix.trans ?_ ((asBytes_line _).symm ▸ List.prefix_append _ [10])
  unfold Serde.request
  rw [Serde.text, Serde.memberTexts, Serde.memberTexts, String.intercalate_cons_cons]
  rw [asBytes_append, asBytes_append, asBytes_append, asBytes_append, asBytes_append, asBytes_append]
  have hopen : Str.asBytes "\x7b" = [123] := by decide
  have hkey : Str.asBytes (Serde.quote "jsonrpc") = [34, 106, 115, 111, 110, 114, 112, 99, 34] := by
    decide
  rw [hopen, hkey]
  simp only [List.cons_append, List.nil_append, List.cons_prefix_cons, true_and, List.nil_prefix]

/-- If all frames begin alike, what is framed does so as well. -/
theorem Framed.head {order : List Nat} {part head : List T.Atom} (h : Framed serde s order part)
    (hframes : ∀ i, head <+: frame serde (s.tasks i)) : s.output <+: head ∨ head <+: s.output := by
  rw [h.output]
  cases order with
  | nil =>
    rcases h.last with rfl | ⟨i, -, -, hpart⟩
    · exact .inl List.nil_prefix
    · exact List.prefix_or_prefix_of_prefix hpart (hframes i)
  | cons i order =>
    rw [List.flatMap_cons, List.append_assoc]
    exact .inr ((hframes i).trans (List.prefix_append _ _))

/-- The child reads half of a frame and a whole one on the same line. -/
theorem frames_torn : ∃ s, play (move muteSerde) tornRun (start stdio listCalls) = some s ∧
    s.output = Str.asBytes ("\x7b\"jso" ++ muteSerde.request 2 "tools/list" .null ++ "\n") ∧
    ∀ order part, ¬Framed muteSerde s order part := by
  have hrun : @Eq (Option (List UInt8))
      ((play (move muteSerde) tornRun (start stdio listCalls)).map State.output)
      (some (Str.asBytes ("\x7b\"jso" ++ muteSerde.request 2 "tools/list" .null ++ "\n"))) := by
    decide +kernel
  obtain ⟨s, hs, houtput⟩ := Option.map_eq_some_iff.1 hrun
  refine ⟨s, hs, houtput, fun order part h => ?_⟩
  have hhead : @List.IsPrefix UInt8 s.output [123, 34, 106, 115, 111, 110] ∨
      @List.IsPrefix UInt8 [123, 34, 106, 115, 111, 110] s.output :=
    h.head fun i => head_of_frame (call_play hs i)
  rw [houtput] at hhead
  revert hhead
  decide +kernel

end Tako.Mcp
