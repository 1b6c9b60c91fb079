import Tako.Orchestrator.Trinity

/-!
# The budget protocol of the agent loops

`Phase` is where a turn stands between its `pre_check` and its `record`, and `Phase.next` the order
in which a budgeted run checks, calls and records. `Loop.run_leads` and
`Loop.runStreaming_leads` show that the loops keep to it.
-/

namespace Tako.Orchestrator

open Traced

/-! ## The protocol -/

/-- Where a turn stands. -/
inductive Phase where
  /-- Between turns. -/
  | idle
  /-- The estimate passed `pre_check`, the provider has not been called. -/
  | checked (est : Rat)
  /-- The attempt to stream did not start. -/
  | unstarted (est : Rat)
  /-- Chunks arrive; `usage` is what the stream has reported so far. -/
  | streaming (est : Rat) (usage : Usage)
  /-- The provider's call succeeded, nothing is recorded yet. -/
  | answered (est : Rat) (usage : Usage)
  /-- The check, the call or the record failed. -/
  | failed

/-- The actions of a budget and of a provider, and no others, move a turn on. `none` is a violation
of the protocol. -/
def Phase.next {W : Type} : Phase → Act W → Option Phase
  | .idle, .preCheck est _ (.ok ()) => some (.checked est)
  | .idle, .preCheck _ _ (.error _) => some .failed
  | .checked est, .chat _ _ (.ok resp) => some (.answered est resp.usage)
  | .checked _, .chat _ _ (.error _) => some .failed
  | .checked est, .stream _ _ (.ok _) => some (.streaming est {})
  | .checked est, .stream _ _ (.error _) => some (.unstarted est)
  | .unstarted est, .chat _ _ (.ok resp) => some (.answered est resp.usage)
  | .unstarted _, .chat _ _ (.error _) => some .failed
  | .streaming est usage, .next (some (.ok (.delta _ _))) => some (.streaming est usage)
  | .streaming est _, .next (some (.ok (.end _ usage))) => some (.streaming est usage)
  | .streaming _ _, .next (some (.ok (.error _))) => some .failed
  | .streaming _ _, .next (some (.error _)) => some .failed
  | .streaming est usage, .next none => some (.answered est usage)
  | .answered est usage, .record usd u r =>
    if usd = est ∧ u = usage then
      match r with
      | .ok () => some .idle
      | .error _ => some .failed
    else none
  | _, .preCheck _ _ _ | _, .chat _ _ _ | _, .stream _ _ _ | _, .next _ | _, .record _ _ _ => none
  | phase, _ => some phase

/-- No answered turn waits for its record, and none for its call. -/
def Phase.Closed : Phase → Prop
  | .idle | .failed | .streaming _ _ => True
  | .checked _ | .unstarted _ | .answered _ _ => False

/-- A run kept to the protocol from its start to its end. -/
def KeepsBudgetProtocol {W : Type} {α : Type} (o : Outcome W (Act W) TakoError α) : Prop :=
  ∃ phase, o.trace.foldlM Phase.next .idle = some phase ∧ phase.Closed ∧
    (o.result.isOk = true → phase = .idle)

/-! ## The parts of a turn -/

/-- An action that is neither a budget's nor a provider's. -/
def Act.IsOutside {W : Type} : Act W → Prop
  | .preCheck _ _ _ | .chat _ _ _ | .stream _ _ _ | .next _ | .record _ _ _ => False
  | _ => True

theorem Act.IsOutside.next_eq {W : Type} {t : Act W} (h : t.IsOutside) (phase : Phase) :
    phase.next t = some phase := by
  cases t with
  | route | evaluate | invoke | evaluateStreaming | score | yielded => cases phase <;> rfl
  | preCheck | chat | stream | next | record => exact h.elim

variable {W ρ κ : Type}

/-- How a part of a turn ends: in the phase `last`, or failed in a closed one. -/
def Ends (last : α → Phase) : Result α → Phase → Prop
  | .ok a, phase => phase = last a
  | .error _, phase => phase.Closed

/-- From `phase` on, `x` keeps to the protocol. -/
def Leads (phase : Phase) (x : M W α) (last : α → Phase) : Prop :=
  Monitored Phase.next phase x (Ends last)

namespace Leads

variable {phase : Phase} {α β : Type}

theorem bind {x : M W α} {f : α → M W β} {mid : α → Phase} {last : β → Phase}
    (hx : Leads phase x mid) (hf : ∀ a, Leads (mid a) (f a) last) :
    Leads phase (x >>= f) last := by
  refine Monitored.bind hx (fun _ _ h => h) ?_
  rintro a p (rfl : p = mid a)
  exact hf a

theorem pure (a : α) : Leads phase (Pure.pure a : M W α) fun _ => phase := Monitored.pure rfl

theorem throw (e : TakoError) (last : α → Phase) (h : phase.Closed) :
    Leads phase (Traced.throw e : M W α) last :=
  Monitored.throw h

theorem read {g : W → α} : Leads phase (Traced.read g : M W α) fun _ => phase :=
  Monitored.read fun _ => rfl

/-- What is neither a budget's nor a provider's leaves a closed phase alone. -/
theorem outside {x : M W α} (h : x.Acts Act.IsOutside) (hc : phase.Closed) :
    Leads phase x fun _ => phase := by
  refine Monitored.weaken (.of_acts (h.weaken fun _ _ hl t ht => (hl t ht).next_eq _)) ?_
  rintro r p rfl
  cases r with
  | ok a => rfl
  | error e => exact hc

/-- What cannot fail leaves every phase alone. -/
theorem outside_of_infallible {x : M W α} (h : x.Acts Act.IsOutside) (hok : x.Infallible) :
    Leads phase x fun _ => phase := by
  refine Monitored.weaken (.of_acts_infallible
    (h.weaken fun _ _ hl t ht => (hl t ht).next_eq _) hok) ?_
  rintro r p ⟨rfl, hr⟩
  cases r with
  | ok a => rfl
  | error e => cases hr

theorem preCheck (b : BudgetTracker W) (p : Principal) (est : Rat) (tokens : UInt32) :
    Leads .idle (Orchestrator.preCheck (some b) p est tokens) fun _ => .checked est := by
  refine Monitored.call fun w => ?_
  cases (b.preCheck p est tokens w).1 with
  | ok u => exact ⟨_, rfl, rfl⟩
  | error e => exact ⟨_, rfl, trivial⟩

theorem record (b : BudgetTracker W) (p : Principal) (est : Rat) (usage : Usage) :
    Leads (.answered est usage) (Orchestrator.record (some b) p est usage) fun _ => .idle := by
  refine Monitored.call fun w => ?_
  cases hr : (b.record p est usage w).1 with
  | ok u => exact ⟨.idle, by simp [Phase.next], rfl⟩
  | error e => exact ⟨.failed, by simp [Phase.next], trivial⟩

theorem chat (provider : LlmProvider W) (p : Principal) (req : ChatRequest)
    (hphase : phase = .checked est ∨ phase = .unstarted est) :
    Leads phase (Orchestrator.chat provider p req) fun resp => .answered est resp.usage := by
  refine Monitored.call fun w => ?_
  rcases hphase with rfl | rfl <;>
    cases (provider.chat p req w).1 with
    | ok resp => exact ⟨_, rfl, rfl⟩
    | error e => exact ⟨_, rfl, trivial⟩

end Leads

/-! ## The loops -/

namespace Loop

variable {L : Loop W ρ} {H : Hooks W ρ κ} {b : BudgetTracker W}

theorem finishTurn_leads {event : OrchEvent → M W Unit} (hev : ∀ e, (event e).Acts Act.IsOutside)
    (step : Nat) (model : String) (s : LoopState) (assistant : Message) (fr : FinishReason)
    (usage : Usage) :
    Leads .idle (L.finishTurn event step model s assistant fr usage) fun _ => .idle :=
  .outside (finishTurn_acts (fun _ _ _ _ _ => trivial) (fun _ _ _ => trivial) hev _ _ _ _ _ _)
    trivial

theorem turn_leads (hb : L.budget = some b) (hpick : ∀ ms, (L.pick ms).Acts Act.IsOutside)
    (step : Nat) (s : LoopState) : Leads .idle (L.turn step s) fun _ => .idle := by
  unfold turn
  rw [hb]
  refine .bind (.outside (hpick _) trivial) fun _ => .bind .read fun _ => ?_
  refine .bind (.preCheck _ _ _ _) fun _ => .bind (.chat _ _ _ (.inl rfl)) fun resp => ?_
  exact .bind (.record _ _ _ _) fun _ => finishTurn_leads (fun _ => .pure _) _ _ _ _ _ _

theorem turns_leads {turn : Nat → LoopState → M W LoopState}
    (h : ∀ step s, Leads .idle (turn step s) fun _ => .idle) (n step : Nat) (s : LoopState) :
    Leads .idle (turns turn n step s) fun _ => .idle :=
  turns_induction (Q := fun _ x => Leads .idle x fun _ => .idle) (fun _ => .pure _)
    (fun step s _ hf => .bind (h step s) hf) n step s

theorem receiveText_leads (hH : H.Acts Act.IsOutside) (est : Rat) (role : ρ) (step : Nat)
    (r : Received) (k : κ) (text : Option String) :
    Leads (.streaming est r.usage) (receiveText H role step r k text)
      fun a => .streaming est a.1.usage := by
  unfold receiveText
  cases text with
  | none => exact .pure _
  | some t =>
    by_cases ht : t = ""
    · simp only [if_pos ht]
      exact .pure _
    · simp only [if_neg ht]
      exact .bind (.outside (hH.onText _ _ _ _ _) trivial) fun _ => .pure _

theorem consume_leads (hH : H.Acts Act.IsOutside) (est : Rat) (role : ρ) (step : Nat)
    (provider model : String) (chunks : List (Result ChatChunk)) (r : Received) (k : κ) :
    Leads (.streaming est r.usage) (consume H role step provider model chunks r k)
      fun a => .answered est a.1.usage := by
  induction chunks generalizing r k with
  | nil =>
    have hnext : Leads (W := W) (.streaming est r.usage) (Traced.emit (.next none))
        fun _ => .answered est r.usage := Monitored.emit rfl rfl
    exact hnext.bind fun _ => .pure _
  | cons chunk chunks ih =>
    unfold consume
    cases chunk with
    | error e =>
      have hnext : Leads (W := W) (.streaming est r.usage) (Traced.emit (.next (some (.error e))))
          fun _ => .failed := Monitored.emit rfl rfl
      exact hnext.bind fun _ => .throw e _ trivial
    | ok chunk =>
      cases chunk with
      | delta text toolCalls =>
        have hnext : Leads (W := W) (.streaming est r.usage)
            (Traced.emit (.next (some (.ok (.delta text toolCalls)))))
            fun _ => .streaming est r.usage := Monitored.emit rfl rfl
        refine hnext.bind fun _ => ?_
        exact .bind (receiveText_leads hH _ _ _ _ _ _) fun a => ih _ _
      | error message =>
        have hnext : Leads (W := W) (.streaming est r.usage)
            (Traced.emit (.next (some (.ok (.error message))))) fun _ => .failed :=
          Monitored.emit rfl rfl
        exact hnext.bind fun _ => .throw _ _ trivial
      | «end» fr usage =>
        have hnext : Leads (W := W) (.streaming est r.usage)
            (Traced.emit (.next (some (.ok (.end fr usage))))) fun _ => .streaming est usage :=
          Monitored.emit rfl rfl
        exact hnext.bind fun _ => ih _ _

theorem chatFallback_leads (hH : H.Acts Act.IsOutside)
    (hchat : ∀ role step k text, (H.onChat role step k text).Infallible) (role : ρ) (step : Nat)
    (provider : LlmProvider W) (model : String) (messages : List Message) (k : κ)
    (hphase : phase = .checked est ∨ phase = .unstarted est) :
    Leads phase (L.chatFallback H role step provider model messages k)
      fun a => .answered est a.2.2.1 := by
  unfold chatFallback
  refine .bind .read fun _ => .bind (.chat _ _ _ hphase) fun resp => ?_
  by_cases ht : resp.message.text = ""
  · simp only [if_pos ht]
    exact .bind (.pure k) fun _ => .pure _
  · simp only [if_neg ht]
    exact .bind (.outside_of_infallible (hH.onChat _ _ _ _) (hchat _ _ _ _)) fun _ => .pure _

/-- The attempt to stream: it starts, or the fallback is due. -/
theorem stream_leads (provider : LlmProvider W) (p : Principal) (req : ChatRequest) (est : Rat) :
    Leads (.checked est) (stream provider p req).attempt fun
      | .ok _ => .streaming est {}
      | .error _ => .unstarted est := by
  refine Monitored.attempt (Monitored.call fun w => ?_)
  cases (provider.stream p req w).1 with
  | ok chunks => exact ⟨_, rfl, rfl⟩
  | error e => exact ⟨_, rfl, rfl⟩

theorem respond_leads (hH : H.Acts Act.IsOutside)
    (hchat : ∀ role step k text, (H.onChat role step k text).Infallible) (role : ρ) (step : Nat)
    (provider : LlmProvider W) (model : String) (messages : List Message) (req : ChatRequest)
    (k : κ) (est : Rat) :
    Leads (.checked est) (L.respond H role step provider model messages req k)
      fun a => .answered est a.2.2.1 := by
  unfold respond
  split
  · refine .bind (stream_leads _ _ _ est) fun started => ?_
    cases started with
    | ok chunks =>
      exact .bind (consume_leads hH est role step provider.id model chunks {} k) fun _ => .pure _
    | error e => exact chatFallback_leads hH hchat _ _ _ _ _ _ (.inr rfl)
  · exact chatFallback_leads hH hchat _ _ _ _ _ _ (.inl rfl)

theorem streamTurn_leads (hb : L.budget = some b) (hpick : ∀ ms, (L.pick ms).Acts Act.IsOutside)
    (hH : H.Acts Act.IsOutside)
    (hchat : ∀ role step k text, (H.onChat role step k text).Infallible) (step : Nat)
    (s : LoopState) (k : κ) : Leads .idle (L.streamTurn H step s k) fun _ => .idle := by
  unfold streamTurn
  rw [hb]
  refine .bind (.outside (hH.turnStart _) trivial) fun _ => ?_
  refine .bind (.outside (hpick _) trivial) fun _ => .bind .read fun _ => ?_
  refine .bind (.preCheck _ _ _ _) fun _ => ?_
  refine .bind (respond_leads hH hchat _ _ _ _ _ _ _ _) fun _ => .bind (.record _ _ _ _) fun _ => ?_
  refine .bind (.outside (hH.onTurn _ _ _) trivial) fun _ => ?_
  exact .bind (finishTurn_leads hH.toolEvent _ _ _ _ _ _) fun _ => .pure _

theorem streamTurns_leads (hb : L.budget = some b)
    (hpick : ∀ ms, (L.pick ms).Acts Act.IsOutside) (hH : H.Acts Act.IsOutside)
    (hchat : ∀ role step k text, (H.onChat role step k text).Infallible) (n step : Nat)
    (s : LoopState) (k : κ) : Leads .idle (L.streamTurns H n step s k) fun _ => .idle :=
  streamTurns_induction (Q := fun _ x => Leads .idle x fun _ => .idle) (fun _ => .pure _)
    (fun step s k _ hf => .bind (streamTurn_leads hb hpick hH hchat step s k)
      fun a => hf a.1 a.2) n step s k

theorem run_leads (hb : L.budget = some b) (hpick : ∀ ms, (L.pick ms).Acts Act.IsOutside)
    (messages : List Message) : Leads .idle (L.run messages) fun _ => .idle :=
  .bind (turns_leads (turn_leads hb hpick) _ _ _) fun _ => .pure _

theorem runStreaming_leads (hb : L.budget = some b)
    (hpick : ∀ ms, (L.pick ms).Acts Act.IsOutside) (hH : H.Acts Act.IsOutside)
    (hchat : ∀ role step k text, (H.onChat role step k text).Infallible) (messages : List Message)
    (k : κ) : Leads .idle (L.runStreaming H messages k) fun _ => .idle :=
  .bind (streamTurns_leads hb hpick hH hchat _ _ _ _) fun _ => .pure _

end Loop

theorem Leads.keeps {x : M W α} (h : Leads .idle x fun _ => .idle) (w : W) :
    KeepsBudgetProtocol (x.run w) := by
  obtain ⟨phase, hm, hends⟩ := h w
  refine ⟨phase, hm, ?_⟩
  cases hr : (x.run w).result with
  | ok a =>
    rw [hr] at hends
    obtain rfl : phase = .idle := hends
    exact ⟨trivial, fun _ => rfl⟩
  | error e =>
    rw [hr] at hends
    exact ⟨hends, fun hok => by cases hok⟩

/-! ## `SingleAgent` and `Trinity` -/

/-- Every run of the two agents under a budget keeps to the protocol, buffered or streamed. -/
theorem agents_keep_budget_protocol (b : BudgetTracker W) (A : SingleAgent W) (T : Trinity W)
    (p : Principal) (input : OrchInput) (w : W) :
    KeepsBudgetProtocol (({ A with budget := some b }.run p input).run w) ∧
      KeepsBudgetProtocol (({ A with budget := some b }.stream p input).run w) ∧
      KeepsBudgetProtocol (({ T with budget := some b }.run p input).run w) ∧
      KeepsBudgetProtocol (({ T with budget := some b }.stream p input).run w) := by
  have hyield : ∀ e, Leads (W := W) .idle (yield e) fun _ => .idle := fun e =>
    .outside (.emit trivial) trivial
  refine ⟨?_, ?_, ?_, ?_⟩
  · exact (Loop.run_leads rfl (SingleAgent.pick_acts (fun _ _ _ => trivial) _ _) _).keeps w
  · refine Leads.keeps (.bind (Loop.runStreaming_leads rfl ?_ ?_ ?_ _ _) fun _ => hyield _) w
    · exact SingleAgent.pick_acts (fun _ _ _ => trivial) _ _
    · exact SingleAgent.hooks_acts fun _ => trivial
    · exact fun _ _ _ _ => .emit _
  · exact (Loop.run_leads rfl (Trinity.pick_acts (fun _ _ _ => trivial) _ _) _).keeps w
  · refine Leads.keeps (.bind (Loop.runStreaming_leads rfl ?_ ?_ ?_ _ _) fun _ => hyield _) w
    · exact Trinity.pick_acts (fun _ _ _ => trivial) _ _
    · exact Trinity.hooks_acts (fun _ => trivial) (fun _ _ _ => trivial) (fun _ _ => trivial) _ _ _
    · exact fun _ _ _ _ => .emit _

end Tako.Orchestrator
