import Tako.Orchestrator.AbMctsTree
import Tako.Orchestrator.Sample
import Tako.Orchestrator.Texts

/-!
# What the verifier sees of a rollout

While a rollout is streamed, the verifier is given the text of all its turns so far; its score is
for the text of the last turn. So the two are the same text only if no turn before the last one has
any (`AbMcts.seesScored_iff`).
-/

namespace Tako.Orchestrator

/-! ## Replies and buffers -/

/-- The texts that came one after the other in a provider's reply. -/
structure Reply where
  streamed : Bool
  deltas : List String
  nonempty : ∀ d ∈ deltas, d ≠ ""

/-- An empty text is no delta. -/
def deltasOf (texts : List String) : List String := texts.filter (· ≠ "")

namespace Reply

def ofTexts (streamed : Bool) (texts : List String) : Reply where
  streamed
  deltas := deltasOf texts
  nonempty d h := by simpa using (List.mem_filter.1 h).2

def text (r : Reply) : String := String.join r.deltas

/-- The reply has a text that the verifier is told of. -/
def Heard (r : Reply) : Prop := r.streamed = true ∧ r.text ≠ ""

instance (r : Reply) : Decidable r.Heard := inferInstanceAs (Decidable (_ ∧ _))

end Reply

/-- The text of several replies. -/
def spoken (rs : List Reply) : String := String.join (rs.map Reply.text)

/-- The text so far after each delta. -/
def running (k : String) : List String → List String
  | [] => []
  | d :: ds => (k ++ d) :: running (k ++ d) ds

/-- What the verifier is given of a reply after the text `k`. -/
def Reply.buffers (k : String) (r : Reply) : List String :=
  if r.streamed then running k r.deltas else []

def buffers (k : String) : List Reply → List String
  | [] => []
  | r :: rs => r.buffers k ++ buffers (k ++ r.text) rs

/-- The last buffer is the text that is scored, and each one before is how it begins. -/
def SeesScored (bs : List String) (out : String) : Prop :=
  ∀ b ∈ bs.getLast?, b = out ∧ ∀ b' ∈ bs, ∃ rest, out = b' ++ rest

/-- The replies of a rollout whose verifier sees what is scored: it is told of none of them; or of
the last one, and the ones before have no text; or the last one comes from `chat` and repeats what
it was told of. -/
inductive SingleText : List Reply → Prop
  | unheard {rs : List Reply} : (∀ r ∈ rs, ¬r.Heard) → SingleText rs
  | single {before : List Reply} {last : Reply} : last.streamed = true →
    (∀ r ∈ before, r.text = "") → SingleText (before ++ [last])
  | repeated {before after : List Reply} {heard last : Reply} : heard.Heard →
    (∀ r ∈ after, ¬r.Heard) → last.streamed = false → last.text = spoken (before ++ [heard]) →
    SingleText (before ++ heard :: (after ++ [last]))

section

variable {k : String} {rs : List Reply} {r : Reply}

theorem running_append (k : String) (ds ds' : List String) :
    running k (ds ++ ds') = running k ds ++ running (k ++ String.join ds) ds' := by
  induction ds generalizing k with
  | nil => simp [running]
  | cons d ds ih => simp [running, ih, String.join_cons, String.append_assoc]

theorem running_begins {ds : List String} (h : b ∈ running k ds) :
    ∃ rest, k ++ String.join ds = b ++ rest := by
  induction ds generalizing k with
  | nil => cases h
  | cons d ds ih =>
    rw [String.join_cons, ← String.append_assoc]
    rcases List.mem_cons.1 h with rfl | h
    · exact ⟨_, rfl⟩
    · exact ih h

theorem running_getLast? {ds : List String} (h : ds ≠ []) :
    (running k ds).getLast? = some (k ++ String.join ds) := by
  induction ds generalizing k with
  | nil => exact absurd rfl h
  | cons d ds ih =>
    rw [String.join_cons, ← String.append_assoc]
    cases ds with
    | nil => simp [running]
    | cons d' ds =>
      rw [← ih (List.cons_ne_nil _ _)]
      simp [running, List.getLast?_cons_cons]

@[simp] theorem spoken_nil : spoken [] = "" := rfl

@[simp] theorem spoken_cons : spoken (r :: rs) = r.text ++ spoken rs := String.join_cons

theorem spoken_append (rs rs' : List Reply) : spoken (rs ++ rs') = spoken rs ++ spoken rs' := by
  simp [spoken, String.join_append]

theorem spoken_eq_empty_iff : spoken rs = "" ↔ ∀ r ∈ rs, r.text = "" := by
  simp [spoken, Str.join_eq_empty_iff]

theorem buffers_append (k : String) (rs rs' : List Reply) :
    buffers k (rs ++ rs') = buffers k rs ++ buffers (k ++ spoken rs) rs' := by
  induction rs generalizing k with
  | nil => simp [buffers]
  | cons r rs ih => simp [buffers, ih, String.append_assoc]

/-- A buffer is a beginning of the text up to the end of its reply. -/
theorem buffers_begin (h : b ∈ buffers k rs) : ∃ rest, k ++ spoken rs = b ++ rest := by
  induction rs generalizing k with
  | nil => cases h
  | cons r rs ih =>
    rw [spoken_cons, ← String.append_assoc]
    rcases List.mem_append.1 h with h | h
    · unfold Reply.buffers at h
      split at h
      · obtain ⟨rest, hrest⟩ := running_begins h
        exact ⟨rest ++ spoken rs, by rw [Reply.text, hrest, String.append_assoc]⟩
      · cases h
    · exact ih h

theorem Reply.buffers_of_not_heard (h : ¬r.Heard) : r.buffers k = [] := by
  unfold Reply.buffers
  split
  next hstreamed =>
    have htext : r.text = "" := by
      by_contra hne
      exact h ⟨hstreamed, hne⟩
    cases hds : r.deltas with
    | nil => rfl
    | cons d ds =>
      have hd := Str.join_eq_empty_iff.1 htext d (hds ▸ List.mem_cons_self)
      exact absurd hd (r.nonempty d (hds ▸ List.mem_cons_self))
  next => rfl

theorem buffers_of_not_heard (h : ∀ r ∈ rs, ¬r.Heard) : buffers k rs = [] := by
  induction rs generalizing k with
  | nil => rfl
  | cons r rs ih =>
    rw [List.forall_mem_cons] at h
    rw [buffers, Reply.buffers_of_not_heard h.1, ih h.2, List.append_nil]

/-- After a reply that is heard the last buffer is the text up to its end. -/
theorem buffers_getLast?_heard (h : r.Heard) {after : List Reply} (hafter : ∀ r ∈ after, ¬r.Heard) :
    (buffers k (rs ++ r :: after)).getLast? = some (k ++ spoken (rs ++ [r])) := by
  have hds : r.deltas ≠ [] := by
    intro hnil
    exact h.2 (by rw [Reply.text, hnil]; rfl)
  rw [buffers_append, buffers, buffers_of_not_heard hafter, List.append_nil, Reply.buffers,
    if_pos h.1, List.getLast?_append, running_getLast? hds]
  simp [spoken_append, Reply.text, String.append_assoc]

/-- Either no reply is heard, or there is a last one that is. -/
theorem exists_last_heard (rs : List Reply) :
    (∀ r ∈ rs, ¬r.Heard) ∨
      ∃ before heard after,
        rs = before ++ heard :: after ∧ heard.Heard ∧ ∀ r ∈ after, ¬r.Heard := by
  induction rs with
  | nil => exact .inl (List.forall_mem_nil _)
  | cons r rs ih =>
    rcases ih with hnone | ⟨before, heard, after, rfl, hheard, hafter⟩
    · by_cases hr : r.Heard
      · exact .inr ⟨[], r, rs, rfl, hr, hnone⟩
      · exact .inl (List.forall_mem_cons.2 ⟨hr, hnone⟩)
    · exact .inr ⟨r :: before, heard, after, rfl, hheard, hafter⟩

/-- The last buffer is known, and the buffers before it are its beginnings. -/
theorem seesScored_heard_iff (h : r.Heard) {after : List Reply} (hafter : ∀ r ∈ after, ¬r.Heard)
    {out : String} :
    SeesScored (buffers "" (rs ++ r :: after)) out ↔ spoken (rs ++ [r]) = out := by
  unfold SeesScored
  rw [buffers_getLast?_heard h hafter, String.empty_append]
  constructor
  · intro hsees
    exact (hsees _ rfl).1
  · rintro rfl b hb
    obtain rfl := Option.mem_some.1 hb
    refine ⟨rfl, fun b' hb' => ?_⟩
    have hsame : buffers "" (rs ++ r :: after) = buffers "" (rs ++ [r]) := by
      rw [buffers_append, buffers_append, buffers, buffers, buffers_of_not_heard hafter, buffers]
    rw [hsame] at hb'
    simpa using buffers_begin hb'

theorem seesScored_unheard (h : ∀ r ∈ rs, ¬r.Heard) (out : String) :
    SeesScored (buffers "" rs) out := by
  intro b hb
  rw [buffers_of_not_heard h] at hb
  cases hb

/-- If the verifier sees the text of the last reply, it is told of no other text. -/
theorem SingleText.of_seesScored {init : List Reply} {last : Reply}
    (hsees : SeesScored (buffers "" (init ++ [last])) last.text) : SingleText (init ++ [last]) := by
  rcases exists_last_heard (init ++ [last]) with
    hnone | ⟨before, heard, after, heq, hheard, hafter⟩
  · exact .unheard hnone
  rw [heq, seesScored_heard_iff hheard hafter] at hsees
  rcases List.eq_nil_or_concat after with rfl | ⟨after, l, rfl⟩
  · obtain ⟨rfl, rfl⟩ := List.append_singleton_inj.1 heq
    rw [spoken_append, spoken_cons, spoken_nil, String.append_empty,
      Str.append_eq_iff (Nat.le_refl _)] at hsees
    exact .single hheard.1 (spoken_eq_empty_iff.1 hsees.1)
  · rw [List.concat_eq_append, ← List.cons_append, ← List.append_assoc] at heq
    obtain ⟨rfl, rfl⟩ := List.append_singleton_inj.1 heq
    have htext : last.text ≠ "" := by
      intro hempty
      rw [hempty, spoken_eq_empty_iff] at hsees
      exact hheard.2 (hsees heard (by simp))
    have hplain : last.streamed = false := by
      by_contra hstreamed
      exact hafter last (by simp) ⟨Bool.not_eq_false _ ▸ hstreamed, htext⟩
    rw [List.append_assoc, List.cons_append]
    exact .repeated hheard (fun r hr => hafter r (by simp [hr])) hplain hsees.symm

theorem SingleText.seesScored (h : SingleText rs) {last : Reply} (hlast : rs.getLast? = some last) :
    SeesScored (buffers "" rs) last.text := by
  cases h with
  | unheard hnone => exact seesScored_unheard hnone _
  | @single before last' hstreamed hbefore =>
    obtain rfl := Option.some.inj (List.getLast?_concat.symm.trans hlast)
    by_cases hheard : last'.Heard
    · rw [seesScored_heard_iff hheard (List.forall_mem_nil _), spoken_append,
        spoken_eq_empty_iff.2 hbefore]
      simp
    · refine seesScored_unheard (fun r hr => ?_) _
      rcases List.mem_append.1 hr with hr | hr
      · exact fun h => h.2 (hbefore r hr)
      · exact List.mem_singleton.1 hr ▸ hheard
  | @repeated before after heard last' hheard hafter hplain htext =>
    have hconcat : before ++ heard :: (after ++ [last']) =
        (before ++ heard :: after) ++ [last'] := by simp
    rw [hconcat, List.getLast?_concat] at hlast
    obtain rfl := Option.some.inj hlast
    rw [seesScored_heard_iff hheard]
    · exact htext.symm
    · intro r hr
      rcases List.mem_append.1 hr with hr | hr
      · exact hafter r hr
      · obtain rfl := List.mem_singleton.1 hr
        exact fun h => absurd h.1 (by simp [hplain])

/-- The verifier sees the text of the last reply exactly if this is the one text of the replies. -/
theorem seesScored_buffers_iff (init : List Reply) (last : Reply) :
    SeesScored (buffers "" (init ++ [last])) last.text ↔ SingleText (init ++ [last]) :=
  ⟨.of_seesScored, fun h => h.seesScored List.getLast?_concat⟩

end

/-! ## What a rollout leaves in the trace -/

open Traced

variable {W ρ G : Type}

def chunkTexts (chunks : List (Result ChatChunk)) : List String :=
  chunks.filterMap fun
    | .ok (.delta text _) => text
    | _ => none

theorem chunkTexts_delta (text : Option String) (calls : List ToolCallDelta)
    (chunks : List (Result ChatChunk)) :
    chunkTexts (.ok (.delta text calls) :: chunks) = text.toList ++ chunkTexts chunks := by
  cases text <;> rfl

/-- The reply of an answered call. -/
def Act.reply : Act W → Option Reply
  | .chat _ _ (.ok resp) => some (.ofTexts false [resp.message.text])
  | .stream _ _ (.ok chunks) => some (.ofTexts true (chunkTexts chunks))
  | _ => none

/-- The text that the verifier is given before the end of a rollout. -/
def Act.buffer : Act W → Option String
  | .evaluateStreaming text _ => some text
  | _ => none

/-- What replies and buffers leave, in one order. -/
inductive Mark where
  | reply (r : Reply)
  | buffer (text : String)

namespace Mark

def reply? : Mark → Option Reply
  | .reply r => some r
  | .buffer _ => none

def buffer? : Mark → Option String
  | .reply _ => none
  | .buffer text => some text

/-- A reply and then the buffers of its deltas, after the text `k`. -/
def ofReply (k : String) (r : Reply) : List Mark := .reply r :: (r.buffers k).map .buffer

def ofReplies (k : String) : List Reply → List Mark
  | [] => []
  | r :: rs => ofReply k r ++ ofReplies (k ++ r.text) rs

theorem filterMap_reply? (k : String) (rs : List Reply) :
    (ofReplies k rs).filterMap reply? = rs := by
  induction rs generalizing k with
  | nil => rfl
  | cons r rs ih =>
    have hbuffers : ((r.buffers k).map Mark.buffer).filterMap reply? = [] := by
      simp [List.filterMap_eq_nil_iff, reply?]
    simp [ofReplies, ofReply, List.filterMap_append, hbuffers, ih, reply?]

theorem filterMap_buffer? (k : String) (rs : List Reply) :
    (ofReplies k rs).filterMap buffer? = buffers k rs := by
  induction rs generalizing k with
  | nil => rfl
  | cons r rs ih =>
    have hbuffers : ((r.buffers k).map Mark.buffer).filterMap buffer? = r.buffers k := by
      rw [List.filterMap_map]
      exact List.filterMap_some
    rw [ofReplies, List.filterMap_append, ih, ofReply, List.filterMap_cons_none rfl, hbuffers,
      buffers]

end Mark

def Act.mark (t : Act W) : Option Mark := (t.reply.map .reply).or (t.buffer.map .buffer)

theorem Act.mark_reply? (t : Act W) : t.mark.bind Mark.reply? = t.reply := by
  unfold Act.mark
  cases hr : t.reply with
  | some r => rfl
  | none => cases t.buffer <;> rfl

theorem Act.mark_buffer? (t : Act W) : t.mark.bind Mark.buffer? = t.buffer := by
  unfold Act.mark
  cases t with
  | chat _ _ r | stream _ _ r => cases r <;> rfl
  | _ => rfl

/-- What a computation's value has to do with the replies and buffers in its trace. -/
abbrev Marks (Q : α → List Mark → Prop) (x : M W α) : Prop :=
  Says Act.mark (fun _ => none) (fun a ms _ => Q a ms) x

/-- Nothing is replied and the verifier is given nothing. -/
abbrev Unmarked (t : Act W) : Prop := t.mark = none ∧ (none : Option String) = none

/-- The hooks give the verifier the text so far with each delta, and keep the text of the chat. -/
structure Hooks.Accumulates (H : Hooks W ρ String) : Prop where
  turnStart : ∀ step, (H.turnStart step).Acts Unmarked
  onText : ∀ role step k delta text,
    Marks (fun k' ms => ms = [.buffer (k ++ delta)] ∧ k' = k ++ delta)
      (H.onText role step k delta text)
  onChat : ∀ role step k text,
    Marks (fun k' ms => ms = [] ∧ k' = k ++ text) (H.onChat role step k text)
  onTurn : ∀ role step assistant, (H.onTurn role step assistant).Acts Unmarked
  toolEvent : ∀ e, (H.toolEvent e).Acts Unmarked

namespace Loop

variable {L : Loop W ρ} {H : Hooks W ρ String}

theorem receiveText_marks (hH : H.Accumulates) (role : ρ) (step : Nat) (r : Received) (k : String)
    (text : Option String) :
    Marks (fun a ms => ms = (running k (deltasOf text.toList)).map .buffer ∧
        a.1.text = r.text ++ String.join (deltasOf text.toList) ∧
        a.2 = k ++ String.join (deltasOf text.toList))
      (receiveText H role step r k text) := by
  unfold receiveText
  cases text with
  | none => exact .pure ⟨rfl, String.append_empty.symm, String.append_empty.symm⟩
  | some delta =>
    dsimp only
    split
    next hempty =>
      subst hempty
      exact .pure ⟨rfl, String.append_empty.symm, String.append_empty.symm⟩
    next hne =>
      have hdeltas : deltasOf (some delta).toList = [delta] := by simp [deltasOf, hne]
      rw [hdeltas]
      refine .bind_mute (hH.onText role step k delta _) fun k' => .pure ⟨rfl, rfl, ?_⟩
      rintro ms t ⟨rfl, rfl⟩
      simp [running, String.join_cons]

theorem consume_marks (hH : H.Accumulates) (role : ρ) (step : Nat) (provider model : String)
    (chunks : List (Result ChatChunk)) (r : Received) (k : String) :
    Marks (fun a ms => ms = (running k (deltasOf (chunkTexts chunks))).map .buffer ∧
        a.1.text = r.text ++ String.join (deltasOf (chunkTexts chunks)) ∧
        a.2 = k ++ String.join (deltasOf (chunkTexts chunks)))
      (consume H role step provider model chunks r k) := by
  induction chunks generalizing r k with
  | nil =>
    exact .mute_bind (.emit ⟨rfl, rfl⟩) fun _ =>
      .pure ⟨rfl, String.append_empty.symm, String.append_empty.symm⟩
  | cons chunk chunks ih =>
    refine .mute_bind (.emit ⟨rfl, rfl⟩) fun _ => ?_
    rcases chunk with e | ⟨text, calls⟩ | message | ⟨finishReason, usage⟩
    · exact .throw _
    · have htexts : deltasOf (chunkTexts (.ok (.delta text calls) :: chunks)) =
          deltasOf text.toList ++ deltasOf (chunkTexts chunks) := by
        rw [chunkTexts_delta, deltasOf, List.filter_append]
        rfl
      rw [htexts, running_append, List.map_append, String.join_append]
      refine .bind (receiveText_marks hH role step r k text) ?_
      rintro ⟨r', k'⟩ _ _ ⟨rfl, htext, rfl⟩
      refine .weaken (ih _ _) ?_
      rintro a _ _ ⟨rfl, hr, hk⟩
      refine ⟨rfl, ?_, ?_⟩
      · rw [hr, htext, String.append_assoc]
      · rw [hk, String.append_assoc]
    · exact .throw _
    · exact ih _ _

/-- What a turn leaves, whose text is the reply's and comes after the text `k`. -/
abbrev TurnMarks (k : String) (text cumulative : String) (ms : List Mark) : Prop :=
  ∃ r : Reply, ms = Mark.ofReply k r ∧ text = r.text ∧ cumulative = k ++ r.text

theorem chatFallback_marks (hH : H.Accumulates) (role : ρ) (step : Nat) (provider : LlmProvider W)
    (model : String) (messages : List Message) (k : String) :
    Marks (fun a ms => TurnMarks k a.1.text a.2.2.2 ms)
      (L.chatFallback H role step provider model messages k) := by
  unfold chatFallback
  refine .mute_bind (.read _) fun _ => ?_
  refine .bind (Q := fun resp ms _ => ms = [.reply (.ofTexts false [resp.message.text])])
    (Ensures.call fun w resp h => by rw [h]; rfl) ?_
  rintro resp _ _ rfl
  dsimp only
  split
  next hempty =>
    refine .pure ⟨_, rfl, ?_, ?_⟩
    · simp [Reply.text, Reply.ofTexts, deltasOf, hempty]
    · simp [Reply.text, Reply.ofTexts, deltasOf, hempty]
  next hne =>
    refine .bind_mute (hH.onChat _ _ _ _) fun k' => .pure ⟨rfl, rfl, ?_⟩
    rintro _ _ ⟨rfl, rfl⟩
    refine ⟨_, rfl, ?_, ?_⟩
    · simp [Reply.text, Reply.ofTexts, deltasOf, hne, String.join_cons]
    · simp [Reply.text, Reply.ofTexts, deltasOf, hne, String.join_cons]

theorem respond_marks (hH : H.Accumulates) (role : ρ) (step : Nat) (provider : LlmProvider W)
    (model : String) (messages : List Message) (req : ChatRequest) (k : String) :
    Marks (fun a ms => TurnMarks k a.1.text a.2.2.2 ms)
      (L.respond H role step provider model messages req k) := by
  unfold respond
  split
  · refine .bind (Q := fun r ms _ => ms = (r.toOption.map fun chunks =>
      Mark.reply (.ofTexts true (chunkTexts chunks))).toList)
      (Ensures.attempt (Ensures.call fun w r h => ?_)) ?_
    · cases h
      cases (provider.stream L.principal req w).1 <;> rfl
    rintro (e | chunks) _ _ rfl
    · exact chatFallback_marks hH _ _ _ _ _ _
    · refine .bind_mute (consume_marks hH _ _ _ _ _ _ _) fun a => .pure ⟨rfl, rfl, ?_⟩
      rintro _ _ ⟨rfl, htext, hk⟩
      refine ⟨.ofTexts true (chunkTexts chunks), rfl, ?_, hk⟩
      rw [Received.message_text, htext]
      exact String.empty_append
  · exact chatFallback_marks hH _ _ _ _ _ _

/-- The final message has the text of the turn. -/
theorem finishTurn_marks {event : OrchEvent → M W Unit} (hev : ∀ e, (event e).Acts Unmarked)
    (hquiet : ∀ e, e.delta = none → (event e).Acts IsMute) (step : Nat) (model : String)
    (s : LoopState) (assistant : Message) (finishReason : FinishReason) (usage : Usage) :
    Marks (fun s' ms => ms = [] ∧ (∀ m ∈ s'.final, m = assistant) ∧
      (step + 1 = L.maxSteps → s'.final = some assistant))
      (L.finishTurn event step model s assistant finishReason usage) := by
  have hmute : (L.finishTurn event step model s assistant finishReason usage).Acts Unmarked :=
    finishTurn_acts (fun _ _ _ _ _ => ⟨rfl, rfl⟩) (fun _ _ _ => ⟨rfl, rfl⟩) hev _ _ _ _ _ _
  have hfinal := finishTurn_speaks (L := L) hquiet step model s assistant finishReason usage
  refine Ensures.weaken ((Says.of_mute hmute).and hfinal) ?_
  rintro r l ⟨hmarks, hvalue⟩ s' hs'
  obtain ⟨-, -, hfinal⟩ := hvalue s' hs'
  exact ⟨(hmarks s' hs').1, hfinal⟩

theorem streamTurn_marks (hpick : ∀ messages, (L.pick messages).Acts Unmarked)
    (hH : H.Accumulates) (hquiet : ∀ e, e.delta = none → (H.toolEvent e).Acts IsMute) (step : Nat)
    (s : LoopState) (k : String) :
    Marks (fun a ms => ∃ r : Reply, ms = Mark.ofReply k r ∧ a.2 = k ++ r.text ∧
      (∀ m ∈ a.1.final, m.text = r.text) ∧ (step + 1 = L.maxSteps → a.1.final.isSome = true))
      (L.streamTurn H step s k) := by
  unfold streamTurn
  refine .mute_bind (hH.turnStart _) fun _ => .mute_bind (hpick _) fun _ =>
    .mute_bind (.read _) fun _ => ?_
  refine .mute_bind (preCheck_acts (fun _ _ _ => ⟨rfl, rfl⟩) _ _ _ _) fun _ => ?_
  refine .bind (respond_marks hH _ _ _ _ _ _ _) ?_
  rintro ⟨assistant, finishReason, usage, k'⟩ _ _ ⟨r, rfl, htext, rfl⟩
  refine .mute_bind (record_acts (fun _ _ _ => ⟨rfl, rfl⟩) _ _ _ _) fun _ =>
    .mute_bind (hH.onTurn _ _ _) fun _ => ?_
  refine .bind_mute (finishTurn_marks hH.toolEvent hquiet _ _ _ _ _ _) fun s' => ?_
  refine .pure ⟨rfl, rfl, ?_⟩
  rintro _ _ ⟨rfl, hfinal, hlast⟩
  refine ⟨r, List.append_nil _, rfl, fun m hm => ?_, fun h => ?_⟩
  · rw [hfinal m hm]
    exact htext
  · rw [hlast h]
    rfl

/-- The turns leave their replies with the buffers, and the final message has the text of the last
one. -/
theorem streamTurns_marks (hpick : ∀ messages, (L.pick messages).Acts Unmarked)
    (hH : H.Accumulates) (hquiet : ∀ e, e.delta = none → (H.toolEvent e).Acts IsMute) {n step : Nat}
    (hn : step + n = L.maxSteps) (hpos : 0 < n) (s : LoopState) (k : String) :
    Marks (fun s' ms => ∃ init last, ms = Mark.ofReplies k (init ++ [last]) ∧
      ∃ m, s'.final = some m ∧ m.text = last.text) (L.streamTurns H n step s k) := by
  induction n generalizing step s k with
  | zero => exact absurd hpos (Nat.lt_irrefl 0)
  | succ n ih =>
    refine .bind (streamTurn_marks hpick hH hquiet step s k) ?_
    rintro ⟨s', k'⟩ _ _ ⟨r, rfl, hk, hfinal, hlast⟩
    dsimp only at hk hfinal hlast ⊢
    subst hk
    cases hs : s'.final with
    | some m => exact .pure ⟨[], r, rfl, m, hs, hfinal m hs⟩
    | none =>
      have hn' : n ≠ 0 := by
        rintro rfl
        rw [hs] at hlast
        exact absurd (hlast hn) (by simp)
      refine .weaken (ih (by omega) (Nat.pos_of_ne_zero hn') s' _) ?_
      rintro s₁ _ _ ⟨init, last, rfl, hm⟩
      exact ⟨r :: init, last, rfl, hm⟩

theorem runStreaming_marks (hpick : ∀ messages, (L.pick messages).Acts Unmarked)
    (hH : H.Accumulates) (hquiet : ∀ e, e.delta = none → (H.toolEvent e).Acts IsMute)
    (hpos : 0 < L.maxSteps) (messages : List Message) :
    Marks (fun output ms => ∃ init last, ms = Mark.ofReplies "" (init ++ [last]) ∧
      output.text = last.text) (L.runStreaming H messages "") := by
  refine .bind_mute (streamTurns_marks hpick hH hquiet (Nat.zero_add _) hpos _ _) fun s =>
    .pure ⟨rfl, rfl, ?_⟩
  rintro _ _ ⟨init, last, rfl, m, hm, htext⟩
  refine ⟨init, last, rfl, ?_⟩
  rw [LoopState.output, hm]
  exact htext

end Loop

/-! ## Rollouts -/

namespace AbMcts

variable {A : AbMcts W G} {p : Principal}

theorem rolloutHooks_accumulates (iteration branch : Nat) :
    (A.rolloutHooks p iteration branch).Accumulates where
  turnStart _ := .pure _
  onText role step k delta text := by
    refine .mute_bind (.emit ⟨rfl, rfl⟩) fun _ => ?_
    refine .bind (Q := fun _ ms _ => ms = [.buffer (k ++ delta)]) (Ensures.call ?_) ?_
    · intro w score h
      rfl
    · rintro score _ _ rfl
      cases score with
      | none => exact .pure ⟨rfl, rfl⟩
      | some score => exact .mute_bind (.emit ⟨rfl, rfl⟩) fun _ => .pure ⟨rfl, rfl⟩
  onChat _ _ _ _ := .mute_bind (.emit ⟨rfl, rfl⟩) fun _ => .pure ⟨rfl, rfl⟩
  onTurn _ _ _ := .pure _
  toolEvent _ := .pure _

/-- The verifier sees the scored text exactly if it is the one text of the replies. -/
def Agreed (out : String) (ms : List Mark) : Prop :=
  SeesScored (ms.filterMap Mark.buffer?) out ↔ SingleText (ms.filterMap Mark.reply?)

theorem agreed_ofReplies (init : List Reply) (last : Reply) :
    Agreed last.text (Mark.ofReplies "" (init ++ [last])) := by
  unfold Agreed
  rw [Mark.filterMap_buffer?, Mark.filterMap_reply?]
  exact seesScored_buffers_iff init last

/-- Without streams, nothing is given to the verifier. -/
theorem agreed_plain {ms : List Mark} (h : ∀ m ∈ ms, ∃ r : Reply, m = .reply r ∧ r.streamed = false)
    (out : String) : Agreed out ms := by
  have hbuffers : ms.filterMap Mark.buffer? = [] := by
    refine List.filterMap_eq_nil_iff.2 fun m hm => ?_
    obtain ⟨r, rfl, -⟩ := h m hm
    rfl
  have hreplies : ∀ r ∈ ms.filterMap Mark.reply?, ¬r.Heard := by
    intro r hr hheard
    obtain ⟨m, hm, hmr⟩ := List.mem_filterMap.1 hr
    obtain ⟨r', rfl, hplain⟩ := h m hm
    obtain rfl := Option.some.inj hmr
    exact absurd hheard.1 (by simp [hplain])
  refine iff_of_true (fun b hb => ?_) (.unheard hreplies)
  rw [hbuffers] at hb
  cases hb

/-- The verifier is given nothing, and a reply is not streamed. -/
def Plain (t : Act W) : Prop := ∀ m ∈ t.mark, ∃ r : Reply, m = .reply r ∧ r.streamed = false

theorem plain_of_unmarked {t : Act W} (h : t.mark = none) : Plain t := by
  intro m hm
  rw [h] at hm
  cases hm

theorem plain_chat (provider : String) (req : ChatRequest) (r : Result ChatResponse) :
    Plain (.chat provider req r : Act W) := by
  cases r with
  | ok resp =>
    intro m hm
    exact ⟨_, (Option.mem_some.1 hm).symm, rfl⟩
  | error e => exact plain_of_unmarked rfl

/-- An agent loop over `chat` streams nothing. -/
theorem run_plain (picked : LlmProvider W) (messages : List Message) :
    ((A.rolloutLoop p picked).run messages).Acts Plain := by
  refine .bind (Loop.turns_acts (fun step s => ?_) _ _ _) fun _ => .pure _
  refine .bind (.pure _) fun _ => .bind (.read _) fun _ => ?_
  refine .bind (Loop.preCheck_acts (fun _ _ _ => plain_of_unmarked rfl) _ _ _ _) fun _ => ?_
  refine .bind (.call fun _ => plain_chat _ _ _) fun _ => ?_
  refine .bind (Loop.record_acts (fun _ _ _ => plain_of_unmarked rfl) _ _ _ _) fun _ => ?_
  exact Loop.finishTurn_acts (fun _ _ _ _ _ => plain_of_unmarked rfl)
    (fun _ _ _ => plain_of_unmarked rfl) (fun _ => .pure _) _ _ _ _ _ _

theorem rolloutStreaming_agreed (iteration branch : Nat) (messages : List Message) :
    Marks (fun output ms => Agreed output.text ms)
      (A.rolloutStreaming p iteration branch messages) := by
  refine .mute_bind (pickRolloutProvider_acts (fun _ _ _ => ⟨rfl, rfl⟩) _) fun picked => ?_
  split
  · refine .weaken (Loop.runStreaming_marks (fun _ => .pure _) (rolloutHooks_accumulates _ _)
      (fun _ _ => .pure _) A.maxStepsPerRollout.2 messages) ?_
    rintro output _ _ ⟨init, last, rfl, htext⟩
    rw [htext]
    exact agreed_ofReplies init last
  · have hplain : Marks (fun output ms => Agreed output.text ms)
        ((A.rolloutLoop p picked).run messages) := by
      refine Ensures.weaken (run_plain picked messages) fun r l hl output _ => ?_
      refine agreed_plain (fun m hm => ?_) output.text
      obtain ⟨t, ht, hmark⟩ := List.mem_filterMap.1 hm
      exact hl t ht m hmark
    refine .bind_mute hplain fun output => ?_
    split
    · exact .bind_mute (.of_mute (.emit ⟨rfl, rfl⟩)) fun _ => .pure ⟨rfl, rfl, by simp⟩
    · exact .pure ⟨rfl, rfl, fun _ _ h => h⟩

/-- The replies and the buffers of a trace. -/
def repliesOf (l : List (Act W)) : List Reply := l.filterMap Act.reply

def buffersOf (l : List (Act W)) : List String := l.filterMap Act.buffer

theorem agreed_iff (l : List (Act W)) (out : String) :
    Agreed out (l.filterMap Act.mark) ↔
      (SeesScored (buffersOf l) out ↔ SingleText (repliesOf l)) := by
  unfold Agreed buffersOf repliesOf
  rw [List.filterMap_filterMap, List.filterMap_filterMap, funext Act.mark_reply?,
    funext Act.mark_buffer?]

/-- The output's text is what is scored. -/
theorem iterateWith_agreed (prompt : String) (iteration : Nat) (s : Search G)
    (prompt' out : String) (r : Result Rat) :
    (A.iterateWith p prompt (A.rolloutStreaming p iteration)
      (fun branch score => yield (.verifierScore iteration branch score)) s).Ensures
      fun _ l => .score prompt' out r ∈ l → Agreed out (l.filterMap Act.mark) := by
  refine .bind ((rolloutStreaming_acts iteration _ _).and (rolloutStreaming_agreed _ _ _))
    (fun e l h hmem => (h.1 _ hmem).elim) fun output l h => ?_
  obtain ⟨hin, hagreed⟩ := h
  have hrest : Acts (fun t : Act W => t.mark = none ∧ ∀ prompt' out r,
      t = .score prompt' out r → out = output.text)
      (score A.verifier p prompt output.text >>= fun score =>
        yield (.verifierScore iteration s.nodes.length (clampUnit score)) >>= fun _ =>
          (pure (s.update (A.descend s).2.2 (A.descend s).1 (A.descend s).2.1 output
            (clampUnit score)) : M W (Search G))) := by
    refine .bind (.call fun w => ⟨rfl, ?_⟩) fun x => .bind (.emit ⟨rfl, by nofun⟩) fun _ => .pure _
    intro prompt' out r h
    exact (Act.score.inj h).2.1.symm
  refine Ensures.weaken hrest fun r' l' hl' hmem => ?_
  have hnil : l'.filterMap Act.mark = [] := List.filterMap_eq_nil_iff.2 fun t ht => (hl' t ht).1
  rw [List.filterMap_append, hnil, List.append_nil]
  rcases List.mem_append.1 hmem with hmem | hmem
  · exact (hin _ hmem).elim
  · rw [(hl' _ hmem).2 _ _ _ rfl]
    exact hagreed output rfl

/-- A rollout that is scored: its verifier sees what is scored exactly if the provider's replies
have one text. -/
theorem seesScored_iff (A : AbMcts W G) (p : Principal) (prompt : String) (iteration : Nat)
    (s : Search G) {w : W} {prompt' out : String} {r : Result Rat}
    (hscore : .score prompt' out r ∈ ((A.iterateStreaming p prompt iteration s).run w).trace) :
    SeesScored (buffersOf ((A.iterateStreaming p prompt iteration s).run w).trace) out ↔
      SingleText (repliesOf ((A.iterateStreaming p prompt iteration s).run w).trace) := by
  have hrun : (A.iterateStreaming p prompt iteration s).Ensures fun _ l =>
      .score prompt' out r ∈ l → Agreed out (l.filterMap Act.mark) := by
    refine .bind (Q := fun _ l => l = [.yielded (.stepStart iteration)]) (.emit rfl)
      (fun e l hl h => by simp [hl] at h) ?_
    rintro _ _ rfl
    refine Ensures.weaken (iterateWith_agreed prompt iteration s prompt' out r)
      fun _ l hl hmem => ?_
    exact hl (List.mem_of_ne_of_mem (by nofun) hmem)
  rw [← agreed_iff]
  exact hrun w hscore

/-- A tool's turn that has a text, then the answer. -/
def toolTurnWithText : Nat → Option ChatResponse
  | 0 => some { Sample.callTool with
      message := ⟨.assistant, .text "hm" :: Sample.callTool.message.content⟩ }
  | _ => some Sample.done

/-- The first iteration of a search by the sample's provider. -/
def firstIteration (script : Nat → Option ChatResponse) : List (Act Nat) :=
  (((Sample.mcts script defaultMaxSteps).iterateStreaming Sample.acme "hi" 0
    (.start Sample.input 0)).run 0).trace

theorem scored_toolThenDone :
    .score "hi" "done" (.ok (1 / 2)) ∈ firstIteration Sample.toolThenDone :=
  List.mem_of_getElem? (i := 14) rfl

theorem scored_toolTurnWithText :
    .score "hi" "done" (.ok (1 / 2)) ∈ firstIteration toolTurnWithText :=
  List.mem_of_getElem? (i := 16) rfl

theorem seesScored_toolThenDone :
    SeesScored (buffersOf (firstIteration Sample.toolThenDone)) "done" :=
  (seesScored_iff (Sample.mcts Sample.toolThenDone defaultMaxSteps) Sample.acme "hi" 0
    (.start Sample.input 0) scored_toolThenDone).2
    (@SingleText.single [.ofTexts true [""]] (.ofTexts true ["done"]) rfl (by decide))

/-- With a text before the tool's call, the last buffer is not what is scored. -/
theorem not_seesScored_toolTurnWithText :
    ¬ ∀ (A : AbMcts Nat Nat) (p : Principal) (prompt : String) (iteration : Nat) (s : Search Nat)
      (w : Nat) (prompt' out : String) (r : Result Rat),
      .score prompt' out r ∈ ((A.iterateStreaming p prompt iteration s).run w).trace →
      SeesScored (buffersOf ((A.iterateStreaming p prompt iteration s).run w).trace) out := by
  intro hall
  have hsees := hall _ _ _ _ _ _ _ _ _ scored_toolTurnWithText
  have hbuffers : buffersOf (firstIteration toolTurnWithText) = ["hm", "hmdone"] := rfl
  have hlast : "hmdone" ∈ (buffersOf (firstIteration toolTurnWithText)).getLast? := by
    rw [hbuffers]
    rfl
  exact absurd (hsees _ hlast).1 (by decide)

end AbMcts

end Tako.Orchestrator
