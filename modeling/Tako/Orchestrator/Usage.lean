import Tako.Orchestrator.Loop
import Tako.Theory.Tally

/-!
# The usage of provider calls

`OrchOutput::usage` is said to be cumulative over all provider calls, and `steps` their number
(`tako-orchestrator/src/types.rs`). Here is what a trace says about both. Counts are added with
saturation, as everywhere in the source.
-/

namespace Tako

theorem saturatingAdd32_toNat (a b : UInt32) :
    (saturatingAdd32 a b).toNat = min (a.toNat + b.toNat) (UInt32.size - 1) := by
  have ha := a.toNat_lt_size
  have hb := b.toNat_lt_size
  unfold saturatingAdd32
  split
  next hlt =>
    rw [UInt32.toNat_add, Nat.mod_eq_of_lt hlt]
    omega
  next =>
    have hmax : (0xffffffff : UInt32).toNat = UInt32.size - 1 := rfl
    rw [hmax]
    omega

theorem saturatingAdd32_comm (a b : UInt32) : saturatingAdd32 a b = saturatingAdd32 b a := by
  rw [← UInt32.toNat_inj, saturatingAdd32_toNat, saturatingAdd32_toNat, Nat.add_comm]

theorem saturatingAdd32_assoc (a b c : UInt32) :
    saturatingAdd32 (saturatingAdd32 a b) c = saturatingAdd32 a (saturatingAdd32 b c) := by
  simp only [← UInt32.toNat_inj, saturatingAdd32_toNat]
  omega

theorem saturatingAdd32_zero (a : UInt32) : saturatingAdd32 a 0 = a := by
  have ha := a.toNat_lt_size
  rw [← UInt32.toNat_inj, saturatingAdd32_toNat]
  have hzero : (0 : UInt32).toNat = 0 := rfl
  omega

/-- An addition leaves a count alone if it adds nothing, or the count is at its limit. -/
theorem saturatingAdd32_eq_left_iff (a b : UInt32) :
    saturatingAdd32 a b = a ↔ b = 0 ∨ a = 0xffffffff := by
  have ha := a.toNat_lt_size
  have hb := b.toNat_lt_size
  have hzero : (0 : UInt32).toNat = 0 := rfl
  have hmax : (0xffffffff : UInt32).toNat = UInt32.size - 1 := rfl
  simp only [← UInt32.toNat_inj, saturatingAdd32_toNat, hzero, hmax]
  omega

namespace Usage

theorem add_comm (u v : Usage) : u.add v = v.add u := by
  unfold add
  rw [saturatingAdd32_comm u.inputTokens, saturatingAdd32_comm u.outputTokens]

theorem add_assoc (u v t : Usage) : (u.add v).add t = u.add (v.add t) := by
  unfold add
  rw [saturatingAdd32_assoc, saturatingAdd32_assoc]

theorem add_zero (u : Usage) : u.add {} = u := by
  unfold add
  rw [saturatingAdd32_zero, saturatingAdd32_zero]

theorem zero_add (u : Usage) : add {} u = u := by rw [add_comm, add_zero]

/-- Adding `v` changes nothing: each of its counts is zero, or that of `u` is at its limit. -/
def Absorbs (u v : Usage) : Prop :=
  (v.inputTokens = 0 ∨ u.inputTokens = 0xffffffff) ∧
    (v.outputTokens = 0 ∨ u.outputTokens = 0xffffffff)

theorem add_eq_left_iff (u v : Usage) : u.add v = u ↔ u.Absorbs v := by
  obtain ⟨input, output⟩ := u
  rw [add, Usage.mk.injEq, saturatingAdd32_eq_left_iff, saturatingAdd32_eq_left_iff]
  exact Iff.rfl

/-- The usages, added up. -/
def sum (us : List Usage) : Usage := us.foldl add {}

theorem foldl_add (us : List Usage) (u : Usage) : us.foldl add u = u.add (sum us) := by
  unfold sum
  induction us generalizing u with
  | nil => exact (add_zero u).symm
  | cons v us ih => rw [List.foldl_cons, List.foldl_cons, ih, ih (add {} v), zero_add, add_assoc]

@[simp] theorem sum_nil : sum [] = {} := rfl

@[simp] theorem sum_cons (u : Usage) (us : List Usage) : sum (u :: us) = u.add (sum us) := by
  rw [sum, List.foldl_cons, foldl_add, zero_add]

@[simp] theorem sum_append (us vs : List Usage) : sum (us ++ vs) = (sum us).add (sum vs) := by
  rw [sum, List.foldl_append, foldl_add]
  rfl

/-- Usages of two kinds may be added up in any order. -/
theorem sum_split {τ : Type} {f g h : τ → Option Usage}
    (hsplit : ∀ t, (g t = none ∧ h t = f t) ∨ (h t = none ∧ g t = f t)) (l : List τ) :
    sum (l.filterMap f) = (sum (l.filterMap g)).add (sum (l.filterMap h)) := by
  induction l with
  | nil => exact (add_zero {}).symm
  | cons t l ih =>
    rcases hsplit t with ⟨hg, hh⟩ | ⟨hh, hg⟩
    · rw [List.filterMap_cons_none hg]
      cases hf : f t with
      | none => rw [List.filterMap_cons_none hf, List.filterMap_cons_none (hh.trans hf), ih]
      | some u =>
        rw [List.filterMap_cons_some hf, List.filterMap_cons_some (hh.trans hf), sum_cons, sum_cons,
          ih, ← add_assoc, ← add_assoc, add_comm u]
    · rw [List.filterMap_cons_none hh]
      cases hf : f t with
      | none => rw [List.filterMap_cons_none hf, List.filterMap_cons_none (hg.trans hf), ih]
      | some u =>
        rw [List.filterMap_cons_some hf, List.filterMap_cons_some (hg.trans hf), sum_cons, sum_cons,
          ih, add_assoc]

end Usage

namespace Orchestrator

variable {W : Type}

/-! ## Provider calls -/

/-- What the last `End` of the chunks says, or the usage before them. -/
def usageAfter (usage : Usage) : List (Result ChatChunk) → Usage
  | [] => usage
  | .ok (.end _ usage) :: chunks => usageAfter usage chunks
  | _ :: chunks => usageAfter usage chunks

/-- The usage of an answered call. -/
def Act.usage : Act W → Option Usage
  | .chat _ _ (.ok resp) => some resp.usage
  | .stream _ _ (.ok chunks) => some (usageAfter {} chunks)
  | _ => none

/-- An output's usage and steps are those of the calls. -/
structure OrchOutput.Counts (output : OrchOutput) (calls : List Usage) : Prop where
  usage : output.usage = .sum calls
  steps : output.steps = calls.length

/-- An output that counts some of the calls counts all of them exactly if there are no others. -/
theorem OrchOutput.Counts.counts_iff {output : OrchOutput} {calls calls' : List Usage}
    (h : output.Counts calls) (hsub : calls.Sublist calls') :
    output.Counts calls' ↔ calls' = calls := by
  refine ⟨fun h' => (hsub.eq_of_length (h.steps.symm.trans h'.steps)).symm, fun heq => heq ▸ h⟩

/-! ## The agent loop's account -/

/-- One more call on an account of usage and calls. -/
def charge (account : Usage × Nat) (usage : Usage) : Usage × Nat :=
  (account.1.add usage, account.2 + 1)

theorem foldl_charge (calls : List Usage) (account : Usage × Nat) :
    calls.foldl charge account = (account.1.add (.sum calls), account.2 + calls.length) := by
  induction calls generalizing account with
  | nil => rw [List.foldl_nil, Usage.sum_nil, Usage.add_zero, List.length_nil, Nat.add_zero]
  | cons usage calls ih =>
    rw [List.foldl_cons, ih, charge, Usage.sum_cons, List.length_cons, Usage.add_assoc]
    simp only [Prod.mk.injEq, true_and]
    omega

/-- A computation whose value carries the account of the calls. -/
abbrev Accounts (account : Usage × Nat) (g : α → Usage × Nat) (x : M W α) : Prop :=
  Traced.Tallied Act.usage charge account g x

/-- A computation that calls no provider. -/
abbrev Unbilled (x : M W α) : Prop := x.Acts fun t => t.usage = none

open Traced

def LoopState.account (s : LoopState) : Usage × Nat := (s.usage, s.steps)

def OrchOutput.account (output : OrchOutput) : Usage × Nat := (output.usage, output.steps)

namespace Loop

variable {ρ κ : Type} {L : Loop W ρ} {H : Hooks W ρ κ}

theorem finishTurn_accounts {event : OrchEvent → M W Unit} (hev : ∀ e, Unbilled (event e))
    (step : Nat) (model : String) (s : LoopState) (assistant : Message)
    (finishReason : FinishReason) (usage : Usage) :
    Accounts (charge s.account usage) LoopState.account
      (L.finishTurn event step model s assistant finishReason usage) := by
  unfold finishTurn
  dsimp only
  split
  · exact .pure rfl
  · exact .silent_bind
      (runTools_acts (fun _ _ _ _ _ => rfl) (fun _ _ _ => rfl) (fun _ _ _ => hev _)
        (fun _ _ _ _ => hev _) _ _ _ _) fun _ => .pure rfl

theorem chat_accounts (provider : LlmProvider W) (p : Principal) (req : ChatRequest)
    (account : Usage × Nat) :
    Accounts account (fun resp => charge account resp.usage) (chat provider p req) :=
  .call fun _ _ _ => rfl

theorem turn_accounts (hpick : ∀ messages, Unbilled (L.pick messages)) (step : Nat)
    (s : LoopState) : Accounts s.account LoopState.account (L.turn step s) := by
  unfold turn
  refine .silent_bind (hpick _) fun _ => .silent_bind (.read _) fun _ => ?_
  refine .silent_bind (preCheck_acts (fun _ _ _ => rfl) _ _ _ _) fun _ => ?_
  refine .bind (chat_accounts _ _ _ _) fun resp => ?_
  refine .silent_bind (record_acts (fun _ _ _ => rfl) _ _ _ _) fun _ => ?_
  exact finishTurn_accounts (fun _ => .pure _) _ _ _ _ _ _

theorem turns_accounts {turn : Nat → LoopState → M W LoopState}
    (h : ∀ step s, Accounts s.account LoopState.account (turn step s)) (n step : Nat)
    (s : LoopState) : Accounts s.account LoopState.account (turns turn n step s) :=
  turns_induction (Q := fun s x => Accounts s.account LoopState.account x) (fun _ => .pure rfl)
    (fun step s _ hf => .bind (h step s) hf) n step s

/-- A run's output counts its calls. -/
theorem run_accounts (hpick : ∀ messages, Unbilled (L.pick messages)) (messages : List Message) :
    Accounts ({}, 0) OrchOutput.account (L.run messages) :=
  .bind (turns_accounts (turn_accounts hpick) _ _ { messages }) fun _ => .pure rfl

/-! ### Streamed turns -/

/-- A text has no usage. -/
theorem receiveText_accounts (hH : H.Acts fun t => t.usage = none) (g : Usage → Usage × Nat)
    (role : ρ) (step : Nat) (r : Received) (k : κ) (text : Option String) :
    Accounts (g r.usage) (fun a => g a.1.usage) (receiveText H role step r k text) := by
  unfold receiveText
  split
  · exact .pure rfl
  · split
    · exact .pure rfl
    · exact .silent_bind (hH.onText _ _ _ _ _) fun _ => .pure rfl

theorem consume_accounts (hH : H.Acts fun t => t.usage = none) (account : Usage × Nat) (role : ρ)
    (step : Nat) (provider model : String) (chunks : List (Result ChatChunk)) (r : Received)
    (k : κ) :
    Accounts (charge account (usageAfter r.usage chunks)) (fun a => charge account a.1.usage)
      (consume H role step provider model chunks r k) := by
  induction chunks generalizing r k with
  | nil => exact .silent_bind (.emit rfl) fun _ => .pure rfl
  | cons chunk chunks ih =>
    refine .silent_bind (.emit rfl) fun _ => ?_
    match chunk with
    | .error e => exact .throw _
    | .ok (.delta text calls) =>
      exact .bind (receiveText_accounts hH (fun usage => charge account (usageAfter usage chunks))
        _ _ _ _ _) fun _ => ih _ _
    | .ok (.error message) => exact .throw _
    | .ok (.end finishReason usage) => exact ih _ _

theorem chatFallback_accounts (hH : H.Acts fun t => t.usage = none) (account : Usage × Nat)
    (role : ρ) (step : Nat) (provider : LlmProvider W) (model : String) (messages : List Message)
    (k : κ) :
    Accounts account (fun a => charge account a.2.2.1)
      (L.chatFallback H role step provider model messages k) := by
  unfold chatFallback
  refine .silent_bind (.read _) fun _ => .bind (chat_accounts _ _ _ _) fun resp => ?_
  dsimp only
  split
  · exact .pure rfl
  · exact .silent_bind (hH.onChat _ _ _ _) fun _ => .pure rfl

theorem respond_accounts (hH : H.Acts fun t => t.usage = none) (account : Usage × Nat) (role : ρ)
    (step : Nat) (provider : LlmProvider W) (model : String) (messages : List Message)
    (req : ChatRequest) (k : κ) :
    Accounts account (fun a => charge account a.2.2.1)
      (L.respond H role step provider model messages req k) := by
  unfold respond
  split
  · let started (r : Result (List (Result ChatChunk))) : Usage × Nat :=
      r.casesOn (fun _ => account) fun chunks => charge account (usageAfter {} chunks)
    refine .bind (g := started) (.attempt_call fun w => ?_) fun r => ?_
    · cases (provider.stream L.principal req w).1 <;> rfl
    · cases r with
      | ok chunks => exact .bind (consume_accounts hH account _ _ _ _ _ _ _) fun _ => .pure rfl
      | error e => exact chatFallback_accounts hH account _ _ _ _ _ _
  · exact chatFallback_accounts hH account _ _ _ _ _ _

theorem streamTurn_accounts (hpick : ∀ messages, Unbilled (L.pick messages))
    (hH : H.Acts fun t => t.usage = none) (step : Nat) (s : LoopState) (k : κ) :
    Accounts s.account (fun a => a.1.account) (L.streamTurn H step s k) := by
  unfold streamTurn
  refine .silent_bind (hH.turnStart _) fun _ => .silent_bind (hpick _) fun _ =>
    .silent_bind (.read _) fun _ => ?_
  refine .silent_bind (preCheck_acts (fun _ _ _ => rfl) _ _ _ _) fun _ => ?_
  refine .bind (respond_accounts hH s.account _ _ _ _ _ _ _) fun _ => ?_
  refine .silent_bind (record_acts (fun _ _ _ => rfl) _ _ _ _) fun _ =>
    .silent_bind (hH.onTurn _ _ _) fun _ => ?_
  exact .bind (finishTurn_accounts hH.toolEvent _ _ _ _ _ _) fun _ => .pure rfl

theorem streamTurns_accounts (hpick : ∀ messages, Unbilled (L.pick messages))
    (hH : H.Acts fun t => t.usage = none) (n step : Nat) (s : LoopState) (k : κ) :
    Accounts s.account LoopState.account (L.streamTurns H n step s k) :=
  streamTurns_induction (Q := fun s x => Accounts s.account LoopState.account x)
    (fun _ => .pure rfl)
    (fun step s k _ hf => .bind (streamTurn_accounts hpick hH step s k) fun a => hf a.1 a.2)
    n step s k

theorem runStreaming_accounts (hpick : ∀ messages, Unbilled (L.pick messages))
    (hH : H.Acts fun t => t.usage = none) (messages : List Message) (k : κ) :
    Accounts ({}, 0) OrchOutput.account (L.runStreaming H messages k) :=
  .bind (streamTurns_accounts hpick hH _ _ { messages } k) fun _ => .pure rfl

/-! ### How many calls -/

theorem finishTurn_steps (event : OrchEvent → M W Unit) (step : Nat) (model : String)
    (s : LoopState) (assistant : Message) (finishReason : FinishReason) (usage : Usage) :
    (L.finishTurn event step model s assistant finishReason usage).Values
      (s.steps < ·.steps) := by
  unfold finishTurn
  dsimp only
  split
  · exact .pure (Nat.lt_succ_self _)
  · exact .last fun _ => .pure (Nat.lt_succ_self _)

theorem turn_steps (step : Nat) (s : LoopState) : (L.turn step s).Values (s.steps < ·.steps) :=
  .last fun _ => .last fun _ => .last fun _ => .last fun _ => .last fun _ =>
    finishTurn_steps _ _ _ _ _ _ _

theorem turns_steps {turn : Nat → LoopState → M W LoopState}
    (h : ∀ step s, (turn step s).Values (s.steps < ·.steps)) (n step : Nat) (s : LoopState) :
    (turns turn n step s).Values fun s' => s.steps + min n 1 ≤ s'.steps := by
  induction n generalizing step s with
  | zero => exact .pure (Nat.le_refl _)
  | succ n ih =>
    refine .bind (h step s) fun s' hs' => ?_
    cases s'.final with
    | some m => exact .pure (by omega)
    | none => exact Ensures.weaken (ih (step + 1) s') fun _ _ hr a ha => by have := hr a ha; omega

theorem streamTurn_steps (step : Nat) (s : LoopState) (k : κ) :
    (L.streamTurn H step s k).Values (s.steps < ·.1.steps) :=
  .last fun _ => .last fun _ => .last fun _ => .last fun _ => .last fun _ => .last fun _ =>
    .last fun _ => .bind (finishTurn_steps _ _ _ _ _ _ _) fun _ h => .pure h

theorem streamTurns_steps (n step : Nat) (s : LoopState) (k : κ) :
    (L.streamTurns H n step s k).Values fun s' => s.steps + min n 1 ≤ s'.steps := by
  induction n generalizing step s k with
  | zero => exact .pure (Nat.le_refl _)
  | succ n ih =>
    refine .bind (streamTurn_steps step s k) fun a hs' => ?_
    obtain ⟨s', k'⟩ := a
    dsimp only at hs' ⊢
    cases s'.final with
    | some m => exact .pure (by omega)
    | none =>
      exact Ensures.weaken (ih (step + 1) s' k') fun _ _ hr a ha => by have := hr a ha; omega

/-- A run makes a call. -/
theorem run_steps (hmax : 0 < L.maxSteps) (messages : List Message) :
    (L.run messages).Values (0 < ·.steps) := by
  refine .bind (turns_steps turn_steps _ _ _) fun s hs => .pure ?_
  change 0 < s.steps
  dsimp only at hs
  omega

theorem runStreaming_steps (hmax : 0 < L.maxSteps) (messages : List Message) (k : κ) :
    (L.runStreaming H messages k).Values (0 < ·.steps) := by
  refine .bind (streamTurns_steps _ _ _ _) fun s hs => .pure ?_
  change 0 < s.steps
  dsimp only at hs
  omega

end Loop

end Orchestrator

end Tako
