import Tako.Orchestrator.Single
import Tako.Rust.Str
import Tako.Theory.Says

/-!
# The texts of a run

`SingleAgent::stream` yields the texts of all its turns, and its output has the text of the last one
(`SingleAgent.stream_speaks`). So it yields the output's text if and only if the turns before have
none (`SingleAgent.told_eq_iff`).
-/

namespace Tako.Orchestrator

open Traced

variable {W ρ κ : Type}

/-- The text of a stream. -/
def chunksText (chunks : List (Result ChatChunk)) : String :=
  String.join (chunks.filterMap fun
    | .ok (.delta text _) => text
    | _ => none)

/-- The text of an answered call. -/
def Act.answer : Act W → Option String
  | .chat _ _ (.ok resp) => some resp.message.text
  | .stream _ _ (.ok chunks) => some (chunksText chunks)
  | _ => none

def Act.event : Act W → Option OrchEvent
  | .yielded e => some e
  | _ => none

/-- The text that an action yields. -/
def Act.delta (t : Act W) : Option String := t.event.bind OrchEvent.delta

/-- What a computation's value has to do with the texts of its calls and the text that it yields. -/
abbrev Speaks (Q : α → List String → String → Prop) (x : M W α) : Prop :=
  Says Act.answer Act.delta Q x

abbrev IsMute (t : Act W) : Prop := t.answer = none ∧ t.delta = none

/-! ## The agent loop -/

/-- The hooks yield the text that they are given, and no other. -/
structure Hooks.Tells (H : Hooks W ρ κ) : Prop where
  turnStart : ∀ step, (H.turnStart step).Acts IsMute
  onText : ∀ role step k delta text,
    Speaks (fun _ ts t => ts = [] ∧ t = delta) (H.onText role step k delta text)
  onChat : ∀ role step k text, Speaks (fun _ ts t => ts = [] ∧ t = text) (H.onChat role step k text)
  onTurn : ∀ role step assistant, (H.onTurn role step assistant).Acts IsMute
  toolEvent : ∀ e, e.delta = none → (H.toolEvent e).Acts IsMute

theorem assembleToolCalls_asText (codec : Codec) (deltas : List ToolCallDelta) :
    (assembleToolCalls codec deltas).filterMap ContentPart.asText = [] := by
  refine List.filterMap_eq_nil_iff.2 fun part hpart => ?_
  obtain ⟨⟨_, p⟩, -, hp⟩ := List.mem_filterMap.1 hpart
  dsimp only [PartialCall.finish] at hp
  simp only [Option.bind_eq_bind, Option.bind_eq_some_iff] at hp
  obtain ⟨_, -, _, -, hp⟩ := hp
  cases hp
  rfl

namespace Loop

variable {L : Loop W ρ} {H : Hooks W ρ κ}

/-- A received message has the received text. -/
theorem Received.message_text (codec : Codec) (r : Received) : (r.message codec).text = r.text := by
  rw [Message.text, Received.message, List.filterMap_append, assembleToolCalls_asText,
    List.append_nil]
  split
  · next h => exact h.symm
  · rfl

theorem receiveText_speaks (hH : H.Tells) (role : ρ) (step : Nat) (r : Received) (k : κ)
    (text : Option String) :
    Speaks (fun a ts t => ts = [] ∧ t = text.getD "" ∧ a.1.text = r.text ++ t)
      (receiveText H role step r k text) := by
  unfold receiveText
  cases text with
  | none => exact .pure ⟨rfl, rfl, String.append_empty.symm⟩
  | some delta =>
    dsimp only
    split
    · next h => exact .pure ⟨rfl, h.symm, String.append_empty.symm⟩
    · refine .bind_mute (hH.onText _ _ _ _ _) fun _ => .pure ⟨rfl, rfl, ?_⟩
      rintro _ _ ⟨rfl, rfl⟩
      exact ⟨rfl, rfl, rfl⟩

theorem chunksText_delta (text : Option String) (calls : List ToolCallDelta)
    (chunks : List (Result ChatChunk)) :
    chunksText (.ok (.delta text calls) :: chunks) = text.getD "" ++ chunksText chunks := by
  cases text with
  | none => exact String.empty_append.symm
  | some t => exact String.join_cons

theorem chat_speaks (provider : LlmProvider W) (p : Principal) (req : ChatRequest) :
    Speaks (fun resp ts t => ts = [resp.message.text] ∧ t = "") (chat provider p req) := by
  refine Ensures.call fun w resp h => ?_
  rw [h]
  exact ⟨rfl, rfl⟩

/-- A stream that starts is answered by its text. -/
theorem stream_speaks (provider : LlmProvider W) (p : Principal) (req : ChatRequest) :
    Speaks (fun r ts t => ts = (r.toOption.map chunksText).toList ∧ t = "")
      (stream provider p req).attempt := by
  refine Ensures.attempt (Ensures.call fun w r h => ?_)
  cases h
  cases (provider.stream p req w).1 <;> exact ⟨rfl, rfl⟩

theorem consume_speaks (hH : H.Tells) (role : ρ) (step : Nat) (provider model : String)
    (chunks : List (Result ChatChunk)) (r : Received) (k : κ) :
    Speaks (fun a ts t => ts = [] ∧ t = chunksText chunks ∧ a.1.text = r.text ++ t)
      (consume H role step provider model chunks r k) := by
  induction chunks generalizing r k with
  | nil => exact .mute_bind (.emit ⟨rfl, rfl⟩) fun _ => .pure ⟨rfl, rfl, String.append_empty.symm⟩
  | cons chunk chunks ih =>
    refine .mute_bind (.emit ⟨rfl, rfl⟩) fun _ => ?_
    match chunk with
    | .error e => exact .throw _
    | .ok (.error message) => exact .throw _
    | .ok (.end finishReason usage) => exact ih _ _
    | .ok (.delta text calls) =>
      refine .bind (receiveText_speaks hH _ _ _ _ _) ?_
      rintro ⟨r', k'⟩ _ _ ⟨rfl, rfl, hr'⟩
      refine .weaken (ih _ _) ?_
      rintro a _ _ ⟨rfl, rfl, ha⟩
      refine ⟨rfl, (chunksText_delta text calls chunks).symm, ?_⟩
      rw [ha, hr', String.append_assoc]

theorem chatFallback_speaks (hH : H.Tells) (role : ρ) (step : Nat) (provider : LlmProvider W)
    (model : String) (messages : List Message) (k : κ) :
    Speaks (fun a ts t => ts = [t] ∧ a.1.text = t)
      (L.chatFallback H role step provider model messages k) := by
  unfold chatFallback
  refine .mute_bind (.read _) fun _ => .bind (chat_speaks _ _ _) ?_
  rintro resp _ _ ⟨rfl, rfl⟩
  dsimp only
  split
  · next h => exact .pure ⟨by rw [h]; rfl, h⟩
  · refine .bind_mute (hH.onChat _ _ _ _) fun _ => .pure ⟨rfl, rfl, ?_⟩
    rintro _ _ ⟨rfl, rfl⟩
    exact ⟨rfl, String.empty_append.symm⟩

theorem respond_speaks (hH : H.Tells) (role : ρ) (step : Nat) (provider : LlmProvider W)
    (model : String) (messages : List Message) (req : ChatRequest) (k : κ) :
    Speaks (fun a ts t => ts = [t] ∧ a.1.text = t)
      (L.respond H role step provider model messages req k) := by
  unfold respond
  split
  · refine .bind (stream_speaks _ _ _) ?_
    rintro (e | chunks) _ _ ⟨rfl, rfl⟩
    · refine .weaken (chatFallback_speaks hH _ _ _ _ _ _) fun a ts t h => ?_
      rwa [String.empty_append]
    · refine .bind_mute (consume_speaks hH _ _ _ _ _ _ _) fun _ => .pure ⟨rfl, rfl, ?_⟩
      rintro _ _ ⟨rfl, rfl, h⟩
      refine ⟨by rw [String.empty_append]; rfl, ?_⟩
      rw [Received.message_text, h]
  · exact chatFallback_speaks hH _ _ _ _ _ _

/-- The message that a turn ends with, if it is final, is the one given; the last turn's is. -/
theorem finishTurn_speaks {event : OrchEvent → M W Unit}
    (hev : ∀ e, e.delta = none → (event e).Acts IsMute) (step : Nat) (model : String)
    (s : LoopState) (assistant : Message) (finishReason : FinishReason) (usage : Usage) :
    Speaks (fun s' ts t => ts = [] ∧ t = "" ∧ (∀ m ∈ s'.final, m = assistant) ∧
      (step + 1 = L.maxSteps → s'.final = some assistant))
      (L.finishTurn event step model s assistant finishReason usage) := by
  unfold finishTurn
  dsimp only
  split
  · exact .pure ⟨rfl, rfl, fun _ h => (Option.some.inj h).symm, fun _ => rfl⟩
  · refine .mute_bind (runTools_acts (fun _ _ _ _ _ => ⟨rfl, rfl⟩) (fun _ _ _ => ⟨rfl, rfl⟩)
      (fun _ _ _ => hev _ rfl) (fun _ _ _ _ => hev _ rfl) _ _ _ _) fun _ =>
      .pure ⟨rfl, rfl, fun m hm => ?_, ?_⟩
    · simp only [LoopState.receive] at hm
      split at hm
      · exact (Option.some.inj hm).symm
      · cases hm
    · exact fun h => if_pos h

/-- A turn yields the text of its call, and so does the message that it may end the run with. -/
theorem streamTurn_speaks (hpick : ∀ messages, (L.pick messages).Acts IsMute) (hH : H.Tells)
    (step : Nat) (s : LoopState) (k : κ) :
    Speaks (fun a ts t => ts = [t] ∧ (∀ m ∈ a.1.final, m.text = t) ∧
      (step + 1 = L.maxSteps → a.1.final.isSome = true)) (L.streamTurn H step s k) := by
  unfold streamTurn
  refine .mute_bind (hH.turnStart _) fun _ => .mute_bind (hpick _) fun _ =>
    .mute_bind (.read _) fun _ => ?_
  refine .mute_bind (preCheck_acts (fun _ _ _ => ⟨rfl, rfl⟩) _ _ _ _) fun _ => ?_
  refine .bind (respond_speaks hH _ _ _ _ _ _ _) ?_
  rintro ⟨assistant, finishReason, usage, k'⟩ _ t ⟨rfl, ht⟩
  refine .mute_bind (record_acts (fun _ _ _ => ⟨rfl, rfl⟩) _ _ _ _) fun _ =>
    .mute_bind (hH.onTurn _ _ _) fun _ => ?_
  refine .bind_mute (finishTurn_speaks hH.toolEvent _ _ _ _ _ _) fun s' => .pure ⟨rfl, rfl, ?_⟩
  rintro _ _ ⟨rfl, rfl, hfinal, hlast⟩
  refine ⟨by rw [String.append_empty]; rfl, fun m hm => ?_, fun h => ?_⟩
  · rw [hfinal m hm, String.append_empty]
    exact ht
  · rw [hlast h]
    rfl

/-- All texts are yielded, and the final message has the last one. -/
theorem streamTurns_speaks (hpick : ∀ messages, (L.pick messages).Acts IsMute) (hH : H.Tells)
    {n step : Nat} (hn : step + n = L.maxSteps) (hpos : 0 < n) (s : LoopState) (k : κ) :
    Speaks (fun s' ts t => t = String.join ts ∧ ∃ m init, s'.final = some m ∧ ts = init ++ [m.text])
      (L.streamTurns H n step s k) := by
  induction n generalizing step s k with
  | zero => exact absurd hpos (Nat.lt_irrefl 0)
  | succ n ih =>
    refine .bind (streamTurn_speaks hpick hH step s k) ?_
    rintro ⟨s', k'⟩ _ t ⟨rfl, hfinal, hlast⟩
    dsimp only at hfinal hlast ⊢
    cases hs : s'.final with
    | some m =>
      rw [← hfinal m hs]
      refine .pure ⟨?_, m, [], hs, rfl⟩
      rw [String.append_empty, List.append_nil]
      exact String.empty_append.symm
    | none =>
      have hn' : n ≠ 0 := by
        rintro rfl
        rw [hs] at hlast
        exact nomatch hlast hn
      refine .weaken (ih (by omega) (Nat.pos_of_ne_zero hn') s' k') ?_
      rintro s₁ ts t' ⟨rfl, m, init, hm, rfl⟩
      exact ⟨String.join_cons.symm, m, t :: init, hm, rfl⟩

end Loop

/-! ## `SingleAgent` -/

namespace SingleAgent

theorem hooks_tells : (hooks : Hooks W Unit Unit).Tells where
  turnStart _ := .emit ⟨rfl, rfl⟩
  onText _ _ _ _ _ := Ensures.emit fun _ _ => ⟨rfl, String.empty_append⟩
  onChat _ _ _ _ := Ensures.emit fun _ _ => ⟨rfl, String.empty_append⟩
  onTurn _ _ _ := .pure _
  toolEvent _ h := .emit ⟨rfl, h⟩

/-- A stream that does not fail ends with its one output, whose text was received last. -/
theorem stream_speaks (A : SingleAgent W) (p : Principal) (input : OrchInput) {w : W}
    (hok : ((A.stream p input).run w).result = .ok ()) :
    ∃ l output init, ((A.stream p input).run w).trace = l ++ [.yielded (.final output)] ∧
      ((A.stream p input).run w).trace.filterMap Act.answer = init ++ [output.message.text] ∧
      told Act.delta ((A.stream p input).run w).trace =
        String.join (((A.stream p input).run w).trace.filterMap Act.answer) := by
  have hsays := Loop.streamTurns_speaks (L := A.loop p) (H := hooks)
    (pick_acts (fun _ _ _ => ⟨rfl, rfl⟩) A p) hooks_tells (Nat.zero_add _) A.maxSteps.2
    { messages := input.conversation } ()
  have hloop : Speaks (fun output ts t => t = String.join ts ∧
      ∃ init, ts = init ++ [output.message.text])
      ((A.loop p).runStreaming hooks input.conversation ()) := by
    refine .bind_mute hsays fun s => .pure ⟨rfl, rfl, ?_⟩
    rintro ts t ⟨ht, m, init, hm, hts⟩
    refine ⟨ht, init, ?_⟩
    rw [hts, LoopState.output, hm]
    rfl
  unfold stream at hok ⊢
  cases hr : (((A.loop p).runStreaming hooks input.conversation ()).run w).result with
  | error e =>
    rw [run_bind_error _ hr] at hok
    cases hok
  | ok output =>
    obtain ⟨htold, init, hinit⟩ := hloop w output hr
    rw [run_bind_ok _ hr]
    refine ⟨_, output, init, rfl, ?_, ?_⟩
    · rw [List.filterMap_append]
      exact (List.append_nil _).trans hinit
    · rw [told_append, List.filterMap_append, htold]
      exact String.append_empty.trans (congrArg String.join (List.append_nil _).symm)

/-- The yielded text is the output's exactly if no call before the last had any. -/
theorem told_eq_iff (A : SingleAgent W) (p : Principal) (input : OrchInput) {w : W}
    {out : OrchOutput} (hok : ((A.stream p input).run w).result = .ok ())
    (hlast : (((A.stream p input).run w).trace.filterMap Act.event).getLast? = some (.final out)) :
    told Act.delta ((A.stream p input).run w).trace = out.message.text ↔
      ∀ t ∈ (((A.stream p input).run w).trace.filterMap Act.answer).dropLast, t = "" := by
  obtain ⟨l, output, init, htrace, hanswers, htold⟩ := stream_speaks A p input hok
  have hout : output = out := by
    rw [htrace, List.filterMap_append] at hlast
    exact OrchEvent.final.inj (Option.some.inj (List.getLast?_concat.symm.trans hlast))
  subst hout
  rw [htold, hanswers, List.dropLast_concat, String.join_append, ← Str.join_eq_empty_iff]
  have hjoin : String.join [output.message.text] = output.message.text := String.empty_append
  rw [hjoin, Str.append_eq_iff (Nat.le_refl _)]
  exact and_iff_left rfl

end SingleAgent

end Tako.Orchestrator
