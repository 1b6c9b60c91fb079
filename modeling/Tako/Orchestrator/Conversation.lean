import Tako.Orchestrator.AbMctsTree
import Tako.Orchestrator.Sample

/-!
# Conversations with tools

A provider is sent conversations in which every tool call is answered at once. `replies` reads a
conversation from its start and keeps the calls that are still to be answered
(`wellFormed_iff_awaited`).
-/

namespace Tako

/-! ## Messages -/

namespace Message

/-- The calls that a message holds the results of. -/
def resultIds (m : Message) : List String :=
  m.content.filterMap fun
    | .toolResult id _ _ => some id
    | _ => none

/-- The calls that an assistant's message asks for. -/
def callIds (m : Message) : List String :=
  if m.role = .assistant then m.toolCalls.map (·.1) else []

theorem resultIds_eq_nil {m : Message}
    (h : ∀ part ∈ m.content, ∀ id result isError, part ≠ .toolResult id result isError) :
    m.resultIds = [] := by
  refine List.filterMap_eq_nil_iff.2 fun part hpart => ?_
  cases part with
  | toolResult id result isError => exact absurd rfl (h _ hpart _ _ _)
  | _ => rfl

end Message

namespace Orchestrator

open Traced

/-- A message with calls is followed by one with exactly their results, in order, and no results
stand elsewhere. -/
structure WellFormed (messages : List Message) : Prop where
  answered : ∀ i m, messages[i]? = some m → m.callIds ≠ [] →
    ∃ m', messages[i + 1]? = some m' ∧ m'.resultIds = m.callIds
  called : ∀ i m, messages[i]? = some m → m.resultIds ≠ [] →
    ∃ j m', i = j + 1 ∧ messages[j]? = some m' ∧ m'.callIds = m.resultIds

/-- One more message, after which its calls are to be answered. -/
def replies (pending : List String) (m : Message) : Option (List String) :=
  if m.resultIds = pending then some m.callIds else none

/-- The calls that the next message has to answer. -/
def awaited (messages : List Message) : Option (List String) := messages.foldlM replies []

theorem foldlM_replies {messages : List Message} {pending last : List String} :
    messages.foldlM replies pending = some last ↔
      (∀ (i : Nat) (m : Message), messages[i]? = some m →
        (pending :: messages.map Message.callIds)[i]? = some m.resultIds) ∧
      (pending :: messages.map Message.callIds)[messages.length]? = some last := by
  induction messages generalizing pending with
  | nil => simp
  | cons m messages ih =>
    rw [List.foldlM_cons, replies]
    by_cases hm : m.resultIds = pending
    · rw [if_pos hm]
      refine ih.trans (and_congr_left fun _ => ⟨fun h i m' hi => ?_, fun h i m' hi => ?_⟩)
      · cases i with
        | zero =>
          cases hi
          exact congrArg some hm.symm
        | succ i => exact h i m' hi
      · exact h (i + 1) m' hi
    · rw [if_neg hm]
      refine iff_of_false (by simp) fun h => hm ?_
      exact (Option.some.inj (h.1 0 m rfl)).symm

theorem wellFormed_iff_awaited {messages : List Message} :
    WellFormed messages ↔ awaited messages = some [] := by
  rw [awaited, foldlM_replies]
  constructor
  · intro h
    refine ⟨fun i m hi => ?_, ?_⟩
    · cases i with
      | zero =>
        have hnil : m.resultIds = [] := by
          by_contra hne
          obtain ⟨j, -, hj, -⟩ := h.called 0 m hi hne
          omega
        rw [hnil]
        rfl
      | succ i =>
        obtain ⟨hlt, -⟩ := List.getElem?_eq_some_iff.1 hi
        have hprev : messages[i]? = some messages[i] := List.getElem?_eq_getElem (by omega)
        rw [List.getElem?_cons_succ, List.getElem?_map, hprev, Option.map_some]
        refine congrArg some ?_
        by_cases hcalls : messages[i].callIds = []
        · by_contra hne
          obtain ⟨j, m', hj, hm', hids⟩ := h.called (i + 1) m hi fun hm => hne (hcalls.trans hm.symm)
          obtain rfl := Nat.succ.inj hj
          rw [hprev] at hm'
          cases hm'
          exact hne hids
        · obtain ⟨m', hm', hids⟩ := h.answered i _ hprev hcalls
          rw [hi] at hm'
          cases hm'
          exact hids.symm
    · cases hlen : messages.length with
      | zero => rfl
      | succ n =>
        have hlast : messages[n]? = some messages[n] := List.getElem?_eq_getElem (by omega)
        rw [List.getElem?_cons_succ, List.getElem?_map, hlast, Option.map_some]
        by_contra hne
        obtain ⟨m', hm', -⟩ := h.answered n _ hlast fun hcalls => hne (congrArg some hcalls)
        rw [List.getElem?_eq_none (by omega)] at hm'
        cases hm'
  · rintro ⟨h, hlast⟩
    constructor
    · intro i m hi hcalls
      have hids : ([] :: messages.map Message.callIds)[i + 1]? = some m.callIds := by
        rw [List.getElem?_cons_succ, List.getElem?_map, hi, Option.map_some]
      rcases Nat.lt_or_ge (i + 1) messages.length with hlt | hge
      · have hnext := List.getElem?_eq_getElem hlt
        refine ⟨_, hnext, Option.some.inj ?_⟩
        rw [← hids, h _ _ hnext]
      · obtain ⟨hlt, -⟩ := List.getElem?_eq_some_iff.1 hi
        rw [show i + 1 = messages.length by omega, hlast] at hids
        exact absurd (Option.some.inj hids).symm hcalls
    · intro i m hi hresults
      have hids := h i m hi
      cases i with
      | zero => exact absurd (Option.some.inj hids).symm hresults
      | succ i =>
        rw [List.getElem?_cons_succ, List.getElem?_map] at hids
        obtain ⟨m', hm', hcalls⟩ := Option.map_eq_some_iff.1 hids
        exact ⟨i, m', rfl, hm', hcalls⟩

instance (messages : List Message) : Decidable (WellFormed messages) :=
  decidable_of_iff _ wellFormed_iff_awaited.symm

theorem WellFormed.reply (h : awaited messages = some pending) (hm : m.resultIds = pending) :
    awaited (messages ++ [m]) = some m.callIds := by
  rw [awaited, List.foldlM_append, ← awaited, h]
  simp [replies, hm]

/-! ## Requests and responses -/

variable {W ρ κ : Type}

/-- A request to a provider is a well-formed conversation. -/
def Act.SendsWellFormed : Act W → Prop
  | .chat _ req _ | .stream _ req _ => WellFormed req.messages
  | _ => True

instance (t : Act W) : Decidable t.SendsWellFormed :=
  match t with
  | .chat _ req _ | .stream _ req _ => inferInstanceAs (Decidable (WellFormed req.messages))
  | .route _ _ _ | .preCheck _ _ _ | .next _ | .record _ _ _ | .evaluate _ _ _ | .invoke _ _ _
  | .evaluateStreaming _ _ | .score _ _ _ | .yielded _ => .isTrue trivial

theorem Act.Sends.wellFormed {t : Act W} (h : t.Sends messages) (ht : t.SendsWellFormed) :
    WellFormed messages := by
  cases t with
  | chat | stream => exact h ▸ ht
  | _ => cases h

/-- A message with tool calls is an assistant's and holds no results. -/
def CallsProperly (m : Message) : Prop :=
  m.toolCalls ≠ [] → m.role = .assistant ∧ m.resultIds = []

/-- A response of `chat` has its calls in a proper message. -/
def Act.AnswersProperly : Act W → Prop
  | .chat _ _ (.ok resp) => CallsProperly resp.message
  | _ => True

instance (m : Message) : Decidable (CallsProperly m) :=
  decidable_of_iff (m.toolCalls.isEmpty = false → m.role = .assistant ∧ m.resultIds = [])
    (imp_congr_left (by simp))

instance (t : Act W) : Decidable t.AnswersProperly :=
  match t with
  | .chat _ _ (.ok resp) => inferInstanceAs (Decidable (CallsProperly resp.message))
  | .chat _ _ (.error _) | .stream _ _ _ | .route _ _ _ | .preCheck _ _ _ | .next _ | .record _ _ _
  | .evaluate _ _ _ | .invoke _ _ _ | .evaluateStreaming _ _ | .score _ _ _ | .yielded _ =>
    .isTrue trivial

theorem exists_of_finish {p : PartialCall} (h : p.finish codec = some part) :
    ∃ id name args, part = .toolCall id name args := by
  unfold PartialCall.finish at h
  obtain ⟨id, -, h⟩ := Option.bind_eq_some_iff.1 h
  obtain ⟨name, -, h⟩ := Option.bind_eq_some_iff.1 h
  cases h
  exact ⟨id, name, _, rfl⟩

/-- What is assembled from a stream is proper. -/
theorem callsProperly_received (codec : Codec) (r : Loop.Received) :
    CallsProperly (r.message codec) := by
  refine fun _ => ⟨rfl, Message.resultIds_eq_nil fun part hpart id result isError heq => ?_⟩
  subst heq
  rcases List.mem_append.1 hpart with hpart | hpart
  · split at hpart
    · cases hpart
    · cases List.mem_singleton.1 hpart
  · obtain ⟨e, -, he⟩ := List.mem_filterMap.1 hpart
    obtain ⟨_, _, _, h⟩ := exists_of_finish he
    cases h

namespace Loop

variable {L : Loop W ρ}

theorem runTools_under {event : OrchEvent → M W Unit}
    (hev : ∀ e, (event e).Acts Act.SendsWellFormed) (step : Nat) (model : String)
    (messages : List Message) (calls : List (String × String × Json)) :
    Under Act.AnswersProperly Act.SendsWellFormed (L.runTools event step model messages calls)
      fun results => (⟨.user, results⟩ : Message).resultIds = calls.map (·.1) := by
  induction calls with
  | nil => exact .pure rfl
  | cons call calls ih =>
    obtain ⟨id, name, args⟩ := call
    unfold runTools
    refine .bind (.of_acts (gate_acts (fun _ _ _ _ _ => trivial) _ _ _ _)) fun _ _ => ?_
    refine .bind (.of_acts (hev _)) fun _ _ => ?_
    refine .bind (.of_acts (Acts.attempt (.call fun _ => trivial))) fun r _ => ?_
    dsimp only
    refine .bind (.of_acts (hev _)) fun _ _ => .bind ih fun results hresults => .pure ?_
    exact congrArg (id :: ·) hresults

/-- The calls of a turn are answered before the next one. -/
theorem finishTurn_under {event : OrchEvent → M W Unit}
    (hev : ∀ e, (event e).Acts Act.SendsWellFormed) (step : Nat) (model : String) {s : LoopState}
    (h : WellFormed s.messages) {assistant : Message} (hm : CallsProperly assistant)
    (finishReason : FinishReason) (usage : Usage) :
    Under Act.AnswersProperly Act.SendsWellFormed
      (L.finishTurn event step model s assistant finishReason usage)
      fun s' => s'.final = none → WellFormed s'.messages := by
  unfold finishTurn
  dsimp only
  split
  · exact .pure fun hfinal => by cases hfinal
  · next hcalls =>
    rw [isFinal_eq, List.isEmpty_iff] at hcalls
    obtain ⟨hrole, hresults⟩ := hm hcalls
    refine .bind (runTools_under hev _ _ _ _) fun results hids => .pure fun _ => ?_
    rw [wellFormed_iff_awaited] at h ⊢
    have hcallIds : assistant.callIds = assistant.toolCalls.map (·.1) := if_pos hrole
    exact WellFormed.reply (WellFormed.reply h hresults) (hids.trans hcallIds.symm)

theorem turn_under (hpick : ∀ messages, (L.pick messages).Acts Act.SendsWellFormed) (step : Nat)
    {s : LoopState} (h : WellFormed s.messages) :
    Under Act.AnswersProperly Act.SendsWellFormed (L.turn step s)
      fun s' => s'.final = none → WellFormed s'.messages := by
  unfold turn
  refine .bind (.of_acts (hpick _)) fun picked _ => .bind (.of_acts (.read _)) fun schemas _ => ?_
  refine .bind (.of_acts (preCheck_acts (fun _ _ _ => trivial) _ _ _ _)) fun _ _ => ?_
  refine .bind (Q := fun resp => CallsProperly resp.message) ?_ fun resp hresp => ?_
  · exact .call (fun _ => h) fun _ _ _ hc => hc
  refine .bind (.of_acts (record_acts (fun _ _ _ => trivial) _ _ _ _)) fun _ _ => ?_
  exact finishTurn_under (fun _ => .pure _) _ _ h hresp _ _

theorem turns_under {turn : Nat → LoopState → M W LoopState}
    (hturn : ∀ step s, WellFormed s.messages → Under Act.AnswersProperly Act.SendsWellFormed
      (turn step s) fun s' => s'.final = none → WellFormed s'.messages)
    (n step : Nat) {s : LoopState} (h : WellFormed s.messages) :
    Under Act.AnswersProperly Act.SendsWellFormed (turns turn n step s) fun _ => True := by
  induction n generalizing step s with
  | zero => exact .pure trivial
  | succ n ih =>
    refine .bind (hturn step s h) fun s' hs' => ?_
    cases hfinal : s'.final with
    | some m => exact .pure trivial
    | none => exact ih _ (hs' hfinal)

theorem run_under (hpick : ∀ messages, (L.pick messages).Acts Act.SendsWellFormed)
    {messages : List Message} (h : WellFormed messages) :
    Under Act.AnswersProperly Act.SendsWellFormed (L.run messages) fun _ => True :=
  .bind (turns_under (fun step _ => turn_under hpick step) _ _ h) fun _ _ => .pure trivial

variable {H : Hooks W ρ κ}

theorem chatFallback_under (hH : H.Acts Act.SendsWellFormed) (role : ρ) (step : Nat)
    (provider : LlmProvider W) (model : String) {messages : List Message}
    (h : WellFormed messages) (k : κ) :
    Under Act.AnswersProperly Act.SendsWellFormed
      (L.chatFallback H role step provider model messages k) fun a => CallsProperly a.1 := by
  unfold chatFallback
  refine .bind (.of_acts (.read _)) fun schemas _ => ?_
  refine .bind (Q := fun resp => CallsProperly resp.message) ?_ fun resp hresp => ?_
  · exact .call (fun _ => h) fun _ _ _ hc => hc
  dsimp only
  split
  · exact .bind (.of_acts (.pure _)) fun _ _ => .pure hresp
  · exact .bind (.of_acts (hH.onChat _ _ _ _)) fun _ _ => .pure hresp

theorem respond_under (hH : H.Acts Act.SendsWellFormed) (role : ρ) (step : Nat)
    (provider : LlmProvider W) (model : String) {messages : List Message}
    (h : WellFormed messages) (schemas : List ToolSchema) (streams : Bool) (k : κ) :
    Under Act.AnswersProperly Act.SendsWellFormed
      (L.respond H role step provider model messages (L.request model messages schemas streams) k)
      fun a => CallsProperly a.1 := by
  unfold respond
  split
  · refine .bind (.of_acts (Acts.attempt (.call fun _ => h))) fun started _ => ?_
    split
    · refine .bind (.of_acts (consume_acts hH (fun _ => trivial) _ _ _ _ _ _ _)) fun _ _ => ?_
      exact .pure (callsProperly_received _ _)
    · exact chatFallback_under hH _ _ _ _ h _
  · exact chatFallback_under hH _ _ _ _ h _

theorem streamTurn_under (hpick : ∀ messages, (L.pick messages).Acts Act.SendsWellFormed)
    (hH : H.Acts Act.SendsWellFormed) (step : Nat) {s : LoopState} (h : WellFormed s.messages)
    (k : κ) :
    Under Act.AnswersProperly Act.SendsWellFormed (L.streamTurn H step s k)
      fun a => a.1.final = none → WellFormed a.1.messages := by
  unfold streamTurn
  refine .bind (.of_acts (hH.turnStart _)) fun _ _ => .bind (.of_acts (hpick _)) fun picked _ => ?_
  refine .bind (.of_acts (.read _)) fun schemas _ => ?_
  refine .bind (.of_acts (preCheck_acts (fun _ _ _ => trivial) _ _ _ _)) fun _ _ => ?_
  refine .bind (respond_under hH _ _ _ _ h _ _ _) fun a ha => ?_
  refine .bind (.of_acts (record_acts (fun _ _ _ => trivial) _ _ _ _)) fun _ _ => ?_
  refine .bind (.of_acts (hH.onTurn _ _ _)) fun _ _ => ?_
  exact .bind (finishTurn_under hH.toolEvent _ _ h ha _ _) fun _ hs => .pure hs

theorem streamTurns_under (hpick : ∀ messages, (L.pick messages).Acts Act.SendsWellFormed)
    (hH : H.Acts Act.SendsWellFormed) (n step : Nat) {s : LoopState} (h : WellFormed s.messages)
    (k : κ) :
    Under Act.AnswersProperly Act.SendsWellFormed (L.streamTurns H n step s k) fun _ => True := by
  induction n generalizing step s k with
  | zero => exact .pure trivial
  | succ n ih =>
    refine .bind (streamTurn_under hpick hH step h k) fun a ha => ?_
    obtain ⟨s', k'⟩ := a
    dsimp only at ha ⊢
    cases hfinal : s'.final with
    | some m => exact .pure trivial
    | none => exact ih _ (ha hfinal) _

theorem runStreaming_under (hpick : ∀ messages, (L.pick messages).Acts Act.SendsWellFormed)
    (hH : H.Acts Act.SendsWellFormed) {messages : List Message} (h : WellFormed messages) (k : κ) :
    Under Act.AnswersProperly Act.SendsWellFormed (L.runStreaming H messages k) fun _ => True :=
  .bind (streamTurns_under hpick hH _ _ h _) fun _ _ => .pure trivial

end Loop

/-! ## The nodes of a search -/

namespace AbMcts

variable {G : Type} {A : AbMcts W G} {p : Principal}

/-- The conversation that the next rollout starts with. -/
def expanded (A : AbMcts W G) (s : Search G) : List Message :=
  (nodeAt s.nodes (A.descend s).1).messages

/-- The next rollout gets a provider. -/
def Starts (A : AbMcts W G) (p : Principal) (s : Search G) (w : W) : Prop :=
  ∃ picked, ((A.pickRolloutProvider p (A.expanded s)).run w).result = .ok picked

/-- The rollout of the node that the next iteration expands, if it has one, did not end in tool calls
or results. -/
def Expandable (A : AbMcts W G) (s : Search G) : Prop :=
  ∀ m ∈ (nodeAt s.nodes (A.descend s).1).outputMessage, m.callIds = [] ∧ m.resultIds = []

/-- Every rollout of the search from `s₀` in `w₀` expands an expandable node. -/
def ExpandsClosed (A : AbMcts W G) (p : Principal) (iterate : Nat → Search G → M W (Search G))
    (s₀ : Search G) (w₀ : W) : Prop :=
  ∀ i s w l, A.Reaches iterate s₀ w₀ i s w l → A.GoesOn i s → A.Starts p s w → A.Expandable s

/-- A node's conversation is the input or a well-formed one with a rollout's final message. -/
structure Stored (s : Search G) : Prop where
  root : WellFormed (nodeAt s.nodes 0).messages ∧ (nodeAt s.nodes 0).outputMessage = none
  leaf : ∀ i, 0 < i → i < s.nodes.length → ∃ messages m, WellFormed messages ∧
    (nodeAt s.nodes i).messages = messages ++ [m] ∧ (nodeAt s.nodes i).outputMessage = some m

theorem Stored.wellFormed_iff (h : Stored s) (hgrown : A.Grown rollouts s) :
    WellFormed (A.expanded s) ↔ A.Expandable s := by
  have hpath := hgrown.selects.isPath .root
  have hparent := hpath.lt hgrown.tree
  unfold expanded Expandable
  generalize (A.descend s).1 = parent at *
  rcases Nat.eq_zero_or_pos parent with rfl | hpos
  · obtain ⟨hroot, hnone⟩ := h.root
    rw [hnone]
    exact iff_of_true hroot fun m hm => by cases hm
  · obtain ⟨messages, m, hwell, hmessages, hm⟩ := h.leaf parent hpos hparent
    rw [hmessages, hm, wellFormed_iff_awaited, awaited, List.foldlM_append, ← awaited,
      wellFormed_iff_awaited.1 hwell]
    simp only [Option.bind_eq_bind, Option.bind_some, List.foldlM_cons, List.foldlM_nil, replies,
      Option.mem_some_iff, forall_eq']
    split
    · next hresults => simp [hresults]
    · next hresults => simp [hresults]

theorem Stored.start (h : WellFormed input.conversation) (rng : G) :
    Stored (Search.start input rng) where
  root := ⟨h, rfl⟩
  leaf i hpos hlt := by
    change i < 1 at hlt
    omega

theorem Stored.expand (h : Stored s) (hgrown : A.Grown rollouts s) (hwell : WellFormed (A.expanded s))
    (hexp : A.Expands r s s') : Stored s' := by
  obtain ⟨output, -, rfl⟩ := hexp
  unfold expanded at hwell
  have hpath := hgrown.selects.isPath .root
  generalize A.descend s = d at *
  obtain ⟨parent, path, rng⟩ := d
  dsimp only at hpath hwell ⊢
  have hparent := hpath.lt hgrown.tree
  have hnodup := hpath.nodup_concat hgrown.tree
  have hmessages : ∀ i, (nodeAt (s.update rng parent path output r.2).nodes i).messages =
      if i = s.nodes.length then (s.leaf parent output).messages else (nodeAt s.nodes i).messages :=
    project_update (·.messages) (fun _ => rfl) (fun _ _ => rfl) hparent hnodup
  have houtput : ∀ i, (nodeAt (s.update rng parent path output r.2).nodes i).outputMessage =
      if i = s.nodes.length then some output.message else (nodeAt s.nodes i).outputMessage :=
    project_update (·.outputMessage) (fun _ => rfl) (fun _ _ => rfl) hparent hnodup
  constructor
  · rw [hmessages, houtput, if_neg hgrown.tree.pos.ne, if_neg hgrown.tree.pos.ne]
    exact h.root
  · intro i hpos hlt
    rw [length_update] at hlt
    rw [hmessages, houtput]
    rcases Nat.lt_succ_iff_lt_or_eq.1 hlt with hlt | rfl
    · rw [if_neg hlt.ne, if_neg hlt.ne]
      exact h.leaf i hpos hlt
    · rw [if_pos rfl, if_pos rfl]
      exact ⟨_, output.message, hwell, rfl, rfl⟩

/-! ## Rollouts -/

theorem rolloutHooks_wellFormed (iteration branch : Nat) :
    (A.rolloutHooks p iteration branch).Acts Act.SendsWellFormed where
  turnStart _ := .pure _
  onText _ _ cumulative delta _ := by
    refine .bind (.emit trivial) fun _ => .bind (.call fun _ => trivial) fun score => ?_
    cases score with
    | none => exact .pure _
    | some score => exact .bind (.emit trivial) fun _ => .pure _
  onChat _ _ _ _ := .bind (.emit trivial) fun _ => .pure _
  onTurn _ _ _ := .pure _
  toolEvent _ := .pure _

theorem rollout_under (h : WellFormed messages) :
    Under Act.AnswersProperly Act.SendsWellFormed (A.rollout p messages) fun _ => True := by
  refine .bind (.of_acts (pickRolloutProvider_acts (fun _ _ _ => trivial) _)) fun picked _ => ?_
  exact Loop.run_under (fun _ => .pure _) h

theorem rolloutStreaming_under (iteration branch : Nat) (h : WellFormed messages) :
    Under Act.AnswersProperly Act.SendsWellFormed (A.rolloutStreaming p iteration branch messages)
      fun _ => True := by
  refine .bind (.of_acts (pickRolloutProvider_acts (fun _ _ _ => trivial) _)) fun picked _ => ?_
  split
  · exact Loop.runStreaming_under (fun _ => .pure _) (rolloutHooks_wellFormed _ _) h _
  · refine .bind (Loop.run_under (fun _ => .pure _) h) fun output _ => ?_
    split
    · exact .of_acts (.bind (.emit trivial) fun _ => .pure _)
    · exact .pure trivial

/-- Neither router nor budget stands before the first call of a rollout's loop. -/
theorem rolloutLoop_sends (picked : LlmProvider W) (messages : List Message) (w : W) :
    ∃ t ∈ (((A.rolloutLoop p picked).run messages).run w).trace, t.Sends messages := by
  obtain ⟨n, hn⟩ := A.maxStepsPerRollout.exists_eq
  exact Loop.run_sends (L := A.rolloutLoop p picked) hn rfl

theorem rolloutLoop_streams (picked : LlmProvider W) (iteration branch : Nat)
    (messages : List Message) (w : W) :
    ∃ t ∈ (((A.rolloutLoop p picked).runStreaming (A.rolloutHooks p iteration branch) messages
      "").run w).trace, t.Sends messages := by
  obtain ⟨n, hn⟩ := A.maxStepsPerRollout.exists_eq
  exact Loop.runStreaming_sends (L := A.rolloutLoop p picked)
    (H := A.rolloutHooks p iteration branch) hn rfl rfl ""

theorem rollout_sends (h : ((A.pickRolloutProvider p messages).run w).result = .ok picked) :
    ∃ t ∈ ((A.rollout p messages).run w).trace, t.Sends messages := by
  obtain ⟨t, ht, hsends⟩ := rolloutLoop_sends picked messages
    ((A.pickRolloutProvider p messages).run w).world
  exact ⟨t, mem_trace_bind_ok _ h ht, hsends⟩

theorem rolloutStreaming_sends (iteration branch : Nat)
    (h : ((A.pickRolloutProvider p messages).run w).result = .ok picked) :
    ∃ t ∈ ((A.rolloutStreaming p iteration branch messages).run w).trace, t.Sends messages := by
  unfold rolloutStreaming
  by_cases hs : picked.capabilities.supportsStreaming
  · obtain ⟨t, ht, hsends⟩ := rolloutLoop_streams picked iteration branch messages
      ((A.pickRolloutProvider p messages).run w).world
    exact ⟨t, mem_trace_bind_ok _ h (by rwa [if_pos hs]), hsends⟩
  · obtain ⟨t, ht, hsends⟩ := rolloutLoop_sends picked messages
      ((A.pickRolloutProvider p messages).run w).world
    exact ⟨t, mem_trace_bind_ok _ h (by rw [if_neg hs]; exact mem_trace_bind _ ht), hsends⟩

/-! ## Iterations -/

/-- What an iteration sends, streaming or not: nothing without a provider, else first of all the
conversation that it expands, and after a well-formed one no other. -/
structure Sends (A : AbMcts W G) (p : Principal) (x : Search G → M W α) : Prop where
  idle : ∀ s w, ¬A.Starts p s w → ((x s).run w).result.isOk = false ∧
    ∀ t ∈ ((x s).run w).trace, t.SendsWellFormed
  first : ∀ s w, A.Starts p s w → ∃ t ∈ ((x s).run w).trace, t.Sends (A.expanded s)
  under : ∀ s, WellFormed (A.expanded s) →
    Under Act.AnswersProperly Act.SendsWellFormed (x s) fun _ => True

theorem Sends.bind {x : Search G → M W α} {f : Search G → α → M W β} (h : A.Sends p x)
    (hf : ∀ s a, (f s a).Acts Act.SendsWellFormed) : A.Sends p fun s => x s >>= f s where
  idle s w hs := by
    obtain ⟨herr, hacts⟩ := h.idle s w hs
    cases hx : ((x s).run w).result with
    | ok a =>
      rw [hx] at herr
      cases herr
    | error e =>
      rw [run_bind_error _ hx]
      exact ⟨rfl, hacts⟩
  first s w hs := by
    obtain ⟨t, ht, hsends⟩ := h.first s w hs
    exact ⟨t, mem_trace_bind _ ht, hsends⟩
  under s hs := .bind (h.under s hs) fun a _ => (Under.of_acts (hf s a))

theorem Sends.yield {x : Search G → M W α} (h : A.Sends p x) (e : OrchEvent) :
    A.Sends p fun s => Orchestrator.yield e >>= fun _ => x s where
  idle s w hs := by
    obtain ⟨herr, hacts⟩ := h.idle s w hs
    exact ⟨herr, List.forall_mem_cons.2 ⟨trivial, hacts⟩⟩
  first s w hs := by
    obtain ⟨t, ht, hsends⟩ := h.first s w hs
    exact ⟨t, List.mem_cons_of_mem _ ht, hsends⟩
  under s hs := .bind (.of_acts (.emit trivial)) fun _ _ => h.under s hs

/-- Without a provider there is no rollout. -/
theorem idle_of_not_starts {s : Search G} (hs : ¬A.Starts p s w) (f : LlmProvider W → M W α) :
    (((A.pickRolloutProvider p (A.expanded s)) >>= f).run w).result.isOk = false ∧
      ∀ t ∈ (((A.pickRolloutProvider p (A.expanded s)) >>= f).run w).trace, t.SendsWellFormed := by
  cases hpick : ((A.pickRolloutProvider p (A.expanded s)).run w).result with
  | ok picked => exact absurd ⟨picked, hpick⟩ hs
  | error e =>
    rw [run_bind_error _ hpick]
    exact ⟨rfl, pickRolloutProvider_acts (fun _ _ _ => trivial) _ w⟩

theorem sends_iterateWith {prompt : String} {rollout : Nat → List Message → M W OrchOutput}
    {scored : Nat → Rat → M W Unit}
    (hr : A.Sends p fun s => rollout s.nodes.length (A.expanded s))
    (hs : ∀ n x, (scored n x).Acts Act.SendsWellFormed) :
    A.Sends p (A.iterateWith p prompt rollout scored) := by
  refine hr.bind fun s output => .bind (.call fun _ => trivial) fun x => ?_
  exact .bind (hs _ _) fun _ => .pure _

theorem sends_iterate (prompt : String) (i : Nat) : A.Sends p (A.iterate p prompt i) := by
  change A.Sends p (A.iterateWith p prompt (fun _ => A.rollout p) fun _ _ => pure ())
  refine sends_iterateWith ⟨fun s w hs => ?_, fun s w hs => ?_, fun s => ?_⟩ fun _ _ => .pure _
  · exact idle_of_not_starts hs _
  · obtain ⟨picked, hpick⟩ := hs
    exact rollout_sends hpick
  · exact rollout_under

theorem sends_iterateStreaming (prompt : String) (i : Nat) :
    A.Sends p (A.iterateStreaming p prompt i) := by
  refine .yield (x := A.iterateWith p prompt (A.rolloutStreaming p i) _)
    (sends_iterateWith ⟨fun s w hs => ?_, fun s w hs => ?_, fun s => ?_⟩ ?_) _
  · exact idle_of_not_starts hs _
  · obtain ⟨picked, hpick⟩ := hs
    exact rolloutStreaming_sends _ _ hpick
  · exact rolloutStreaming_under i s.nodes.length
  · exact fun _ _ => .emit trivial

section Search

variable {iterate : Nat → Search G → M W (Search G)} (hit : A.Iterates iterate)
  (hsends : ∀ i, A.Sends p (iterate i))

include hit hsends

/-- A search from a state that it comes to. -/
theorem iterations_wellFormed
    (hclosed : A.ExpandsClosed p iterate (.start input rng) w₀)
    (hreach : A.Reaches iterate (.start input rng) w₀ i s w l) (hs : Stored s)
    (hi : i + n = A.maxIterations) (hc : i = 0 ∨ s.bestScore < A.minConfidence)
    (hproper : ∀ t ∈ ((A.iterations iterate n i s).run w).trace, t.AnswersProperly) :
    ∀ t ∈ ((A.iterations iterate n i s).run w).trace, t.SendsWellFormed := by
  induction n generalizing i s w l with
  | zero => exact fun t ht => absurd ht List.not_mem_nil
  | succ n ih =>
    have hon : A.GoesOn i s := ⟨by omega, hc⟩
    obtain ⟨hgrown, -⟩ := hreach.grown hit
    unfold iterations at hproper ⊢
    by_cases hstarts : A.Starts p s w
    · have hwell := (hs.wellFormed_iff hgrown).2 (hclosed i s w l hreach hon hstarts)
      have hunder := (hsends i).under s hwell w
      cases hok : ((iterate i s).run w).result with
      | error e =>
        rw [run_bind_error _ hok] at hproper ⊢
        exact (hunder hproper).1
      | ok s' =>
        rw [run_bind_ok _ hok] at hproper ⊢
        have hfirst := (hunder fun t ht => hproper t (List.mem_append_left _ ht)).1
        have hrest := fun t ht => hproper t (List.mem_append_right _ ht)
        refine fun t ht => (List.mem_append.1 ht).elim (hfirst t) fun ht => ?_
        split at ht
        · exact absurd ht List.not_mem_nil
        · next hconf =>
          rw [if_neg hconf] at hrest
          obtain ⟨x, -, -, hx⟩ := hit i s w s' hok
          exact ih (hreach.step hon hok) (hs.expand hgrown hwell hx) (by omega)
            (.inr (not_le.1 hconf)) hrest t ht
    · obtain ⟨herr, hacts⟩ := (hsends i).idle s w hstarts
      cases hok : ((iterate i s).run w).result with
      | error e =>
        rw [run_bind_error _ hok]
        exact hacts
      | ok s' =>
        rw [hok] at herr
        cases herr

/-- A search that sends well-formed conversations has stored such. -/
theorem Reaches.stored (h : A.Reaches iterate (.start input rng) w₀ i s w l)
    (hinput : WellFormed input.conversation)
    (hall : ∀ t ∈ ((A.iterations iterate A.maxIterations 0 (.start input rng)).run w₀).trace,
      t.SendsWellFormed) : Stored s := by
  induction h with
  | start => exact .start hinput rng
  | @step i s w l s' hreach hon hok ih =>
    have hstarts : A.Starts p s w := by
      by_contra hnot
      have herr := ((hsends i).idle s w hnot).1
      rw [hok] at herr
      cases herr
    obtain ⟨t, ht, hfirst⟩ := (hsends i).first s w hstarts
    obtain ⟨x, -, -, hx⟩ := hit i s w s' hok
    exact ih.expand (hreach.grown hit).1 (hfirst.wellFormed (hall t (hreach.mem_trace hon ht))) hx

/-- A search whose tool calls arrive in proper messages sends well-formed conversations exactly if it
expands expandable nodes only. -/
theorem iterations_wellFormed_iff (hinput : WellFormed input.conversation)
    (hproper : ∀ t ∈ ((A.iterations iterate A.maxIterations 0 (.start input rng)).run w).trace,
      t.AnswersProperly) :
    (∀ t ∈ ((A.iterations iterate A.maxIterations 0 (.start input rng)).run w).trace,
      t.SendsWellFormed) ↔ A.ExpandsClosed p iterate (.start input rng) w := by
  constructor
  · intro hall i s w' l hreach hon hstarts
    have hs := hreach.stored hit hsends hinput hall
    obtain ⟨t, ht, hfirst⟩ := (hsends i).first s w' hstarts
    refine (hs.wellFormed_iff (hreach.grown hit).1).1 ?_
    exact hfirst.wellFormed (hall t (hreach.mem_trace hon ht))
  · intro hclosed
    exact iterations_wellFormed hit hsends hclosed .start (.start hinput rng) (Nat.zero_add _)
      (.inl rfl) hproper

end Search

end AbMcts

/-! ## Whole runs -/

/-- Every request to a provider is a well-formed conversation. -/
def Converses (trace : List (Act W)) : Prop := ∀ t ∈ trace, t.SendsWellFormed

/-- Every response has its calls in a proper message. -/
def Proper (trace : List (Act W)) : Prop := ∀ t ∈ trace, t.AnswersProperly

theorem converses_of_under {x : M W α}
    (h : Under Act.AnswersProperly Act.SendsWellFormed x fun _ => True) (w : W)
    (hproper : Proper (x.run w).trace) : Converses (x.run w).trace :=
  (h w hproper).1

/-- As long as tool calls arrive in proper messages, agents send well-formed conversations, and a
search does exactly if its rollouts expand no node whose rollout ended in tool calls or results. -/
theorem conversations_wellFormed {G : Type} (p : Principal) (input : OrchInput)
    (h : WellFormed input.conversation) (w : W) :
    (∀ A : SingleAgent W,
      (Proper ((A.run p input).run w).trace → Converses ((A.run p input).run w).trace) ∧
      (Proper ((A.stream p input).run w).trace → Converses ((A.stream p input).run w).trace)) ∧
    (∀ T : Trinity W,
      (Proper ((T.run p input).run w).trace → Converses ((T.run p input).run w).trace) ∧
      (Proper ((T.stream p input).run w).trace → Converses ((T.stream p input).run w).trace)) ∧
    ∀ (A : AbMcts W G) (rng : G),
      (Proper ((A.run p input rng).run w).trace → (Converses ((A.run p input rng).run w).trace ↔
        A.ExpandsClosed p (A.iterate p input.promptText) (.start input rng) w)) ∧
      (Proper ((A.stream p input rng).run w).trace →
        (Converses ((A.stream p input rng).run w).trace ↔
          A.ExpandsClosed p (A.iterateStreaming p input.promptText) (.start input rng) w)) := by
  refine ⟨fun A => ⟨?_, ?_⟩, fun T => ⟨?_, ?_⟩, fun A rng => ⟨fun hproper => ?_, fun hproper => ?_⟩⟩
  · exact converses_of_under (Loop.run_under (SingleAgent.pick_acts (fun _ _ _ => trivial) A p) h) w
  · refine converses_of_under (.bind (Loop.runStreaming_under ?_ ?_ h _) fun out _ => ?_) w
    · exact SingleAgent.pick_acts (fun _ _ _ => trivial) A p
    · exact SingleAgent.hooks_acts fun _ => trivial
    · exact .of_acts (.emit trivial)
  · exact converses_of_under (Loop.run_under (Trinity.pick_acts (fun _ _ _ => trivial) T p) h) w
  · refine converses_of_under (.bind (Loop.runStreaming_under ?_ ?_ h _) fun out _ => ?_) w
    · exact Trinity.pick_acts (fun _ _ _ => trivial) T p
    · exact Trinity.hooks_acts (fun _ => trivial) (fun _ _ _ => trivial) (fun _ _ => trivial) T p _
    · exact .of_acts (.emit trivial)
  · have hrest : ∀ {P : Act W → Prop} (s : Search G), (.ofExcept s.output : M W _).Acts P :=
      fun s => .ofExcept _
    refine (Acts.forall_trace_bind (A.search p input rng) hrest w).trans ?_
    refine AbMcts.iterations_wellFormed_iff (AbMcts.iterates_iterate _) (AbMcts.sends_iterate _) h ?_
    exact (Acts.forall_trace_bind (A.search p input rng) hrest w).1 hproper
  · have hrest : ∀ {P : Act W → Prop}, (∀ e, P (.yielded e)) → ∀ s : Search G,
        (Traced.ofExcept s.output >>= fun output => yield (.final output)).Acts P :=
      fun hy s => .bind (.ofExcept _) fun _ => .emit (hy _)
    have hsend := hrest (P := Act.SendsWellFormed) fun _ => trivial
    have hanswer := hrest (P := Act.AnswersProperly) fun _ => trivial
    refine (Acts.forall_trace_bind (A.searchStreaming p input rng) hsend w).trans ?_
    refine AbMcts.iterations_wellFormed_iff (AbMcts.iterates_iterateStreaming _)
      (AbMcts.sends_iterateStreaming _) h ?_
    exact (Acts.forall_trace_bind (A.searchStreaming p input rng) hanswer w).1 hproper

theorem conversations_wellFormed_sample :
    Converses ((Sample.agent Sample.toolThenDone).run Sample.acme Sample.input |>.run 0).trace ∧
    (Sample.mcts Sample.toolThenDone defaultMaxSteps).ExpandsClosed Sample.acme
      ((Sample.mcts Sample.toolThenDone defaultMaxSteps).iterate Sample.acme
        Sample.input.promptText) (.start Sample.input 0) 0 := by
  have hinput : WellFormed Sample.input.conversation := by decide
  obtain ⟨hagent, -, hmcts⟩ := conversations_wellFormed (G := Nat) Sample.acme Sample.input hinput 0
  refine ⟨(hagent (Sample.agent Sample.toolThenDone)).1 ?_,
    ((hmcts (Sample.mcts Sample.toolThenDone defaultMaxSteps) 0).1 ?_).1 ?_⟩
  · unfold Proper
    decide +kernel
  · unfold Proper
    decide +kernel
  · unfold Converses
    decide +kernel

/-- A rollout that its step limit cuts off leaves calls without results, and the next one sends
them. -/
theorem cut_off_rollout_sent :
    ¬∀ (A : AbMcts Nat Nat) (p : Principal) (input : OrchInput), WellFormed input.conversation →
      ∀ rng w, Converses ((A.run p input rng).run w).trace := by
  intro h
  have hrun := h (Sample.mcts Sample.toolThenDone ⟨1, by decide⟩) Sample.acme Sample.input
    (by decide) 0 0
  unfold Converses at hrun
  revert hrun
  decide +kernel

end Orchestrator

end Tako
