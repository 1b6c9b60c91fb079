import Mathlib.Data.List.Induction
import Tako.Orchestrator.Sample

/-!
# Tool gating

Between a policy evaluation that lets a call pass and the invocation of the tool nothing happens
but events, and every such evaluation is followed by its invocation (`Gate`). So a tool runs as
called exactly when the policy's value does not refuse it, whether or not the value permits it.
-/

namespace Tako.Orchestrator

open Traced Governance

variable {W ρ κ : Type}

/-! ## Traces -/

instance : DecidablePred (Act.IsYield (W := W))
  | .yielded _ => .isTrue trivial
  | .route _ _ _ | .preCheck _ _ _ | .chat _ _ _ | .stream _ _ _ | .next _ | .record _ _ _
  | .evaluate _ _ _ | .invoke _ _ _ | .evaluateStreaming _ _ | .score _ _ _ => .isFalse id

/-- The last action of a trace, events aside. -/
def lastAction (l : List (Act W)) : Option (Act W) := l.reverse.find? fun t => ¬t.IsYield

theorem lastAction_concat_yield {t : Act W} (h : t.IsYield) (l : List (Act W)) :
    lastAction (l ++ [t]) = lastAction l := by
  simp [lastAction, h]

theorem lastAction_concat {t : Act W} (h : ¬t.IsYield) (l : List (Act W)) :
    lastAction (l ++ [t]) = some t := by
  simp [lastAction, h]

/-- The context of a policy evaluation is that of this call. -/
def IsCall (codec : Codec) (ctx : PolicyContext) (name : String) (args : Json) : Prop :=
  ctx.stage = .preTool ∧ ctx.tools = [name] ∧ ctx.toolArgsHash = some (codec.hashValue args)

instance (codec : Codec) (ctx : PolicyContext) (name : String) (args : Json) :
    Decidable (IsCall codec ctx name args) := inferInstanceAs (Decidable (_ ∧ _))

/-! ## The gate -/

/-- Whether the last policy evaluation has let a call pass that was not made yet. -/
inductive Gate (W : Type) where
  | closed
  | opened (w : W) (ctx : PolicyContext)

def Gate.next (codec : Codec) : Gate W → Act W → Option (Gate W)
  | .closed, .evaluate w ctx (.ok d) => some (if d.Blocks then .closed else .opened w ctx)
  | .closed, .evaluate _ _ (.error _) => some .closed
  | .closed, .invoke _ _ _ => none
  | .closed, _ => some .closed
  | .opened w ctx, .yielded _ => some (.opened w ctx)
  | .opened _ ctx, .invoke name args _ => if IsCall codec ctx name args then some .closed else none
  | .opened _ _, _ => none

/-- Not about policies or tools. -/
def Act.IsUngated : Act W → Prop
  | .evaluate _ _ _ | .invoke _ _ _ => False
  | _ => True

theorem Act.IsUngated.next_eq {t : Act W} (h : t.IsUngated) (codec : Codec) :
    Gate.closed.next codec t = some .closed := by
  cases t with
  | evaluate | invoke => exact h.elim
  | _ => rfl

theorem Act.IsYield.next_eq {t : Act W} (h : t.IsYield) (codec : Codec) (g : Gate W) :
    g.next codec t = some g := by
  cases t with
  | yielded => cases g <;> rfl
  | _ => exact h.elim

/-- What a trace that leaves the gate open ends with. -/
theorem Gate.lastAction_of_opened {codec : Codec} {l : List (Act W)}
    (h : l.foldlM (Gate.next codec) .closed = some (.opened w ctx)) :
    ∃ d, ¬d.Blocks ∧ lastAction l = some (.evaluate w ctx (.ok d)) := by
  induction l using List.reverseRecOn with
  | nil => cases h
  | append_singleton l t ih =>
    rw [List.foldlM_append, Option.bind_eq_bind, Option.bind_eq_some_iff] at h
    obtain ⟨g, hg, ht⟩ := h
    simp only [List.foldlM_cons, List.foldlM_nil] at ht
    cases g with
    | closed =>
      cases t with
      | evaluate w' ctx' r =>
        cases r with
        | ok d =>
          simp only [Gate.next] at ht
          by_cases hd : d.Blocks
          · rw [if_pos hd] at ht
            cases ht
          · rw [if_neg hd] at ht
            cases ht
            exact ⟨d, hd, lastAction_concat id l⟩
        | error e => cases ht
      | _ => cases ht
    | opened w' ctx' =>
      cases t with
      | yielded e =>
        cases ht
        rw [lastAction_concat_yield (t := .yielded e) trivial]
        exact ih hg
      | invoke name args r =>
        simp only [Gate.next] at ht
        split at ht <;> cases ht
      | _ => cases ht

/-- An invocation in an accepted trace comes right after an evaluation that lets it pass. -/
theorem Gate.lastAction_of_invoke {codec : Codec} {pre post : List (Act W)} {g : Gate W}
    (h : (pre ++ .invoke name args r :: post).foldlM (Gate.next codec) .closed = some g) :
    ∃ w ctx d, ¬d.Blocks ∧ lastAction pre = some (.evaluate w ctx (.ok d)) ∧
      IsCall codec ctx name args := by
  rw [List.foldlM_append, Option.bind_eq_bind, Option.bind_eq_some_iff] at h
  obtain ⟨g', hpre, hpost⟩ := h
  rw [List.foldlM_cons, Option.bind_eq_bind, Option.bind_eq_some_iff] at hpost
  obtain ⟨g'', hinvoke, -⟩ := hpost
  cases g' with
  | closed => cases hinvoke
  | opened w ctx =>
    simp only [Gate.next] at hinvoke
    split at hinvoke
    · next hcall =>
      obtain ⟨d, hd, hlast⟩ := lastAction_of_opened hpre
      exact ⟨w, ctx, d, hd, hlast, hcall⟩
    · cases hinvoke

/-- What an open gate waits for. -/
theorem Gate.invoke_of_opened {codec : Codec} {l : List (Act W)}
    (h : l.foldlM (Gate.next codec) (.opened w ctx) = some .closed) :
    ∃ ys name args r post, l = ys ++ .invoke name args r :: post ∧ (∀ y ∈ ys, y.IsYield) ∧
      IsCall codec ctx name args := by
  induction l with
  | nil => cases h
  | cons t l ih =>
    rw [List.foldlM_cons, Option.bind_eq_bind, Option.bind_eq_some_iff] at h
    obtain ⟨g, ht, hl⟩ := h
    cases t with
    | yielded e =>
      cases ht
      obtain ⟨ys, name, args, r, post, rfl, hys, hcall⟩ := ih hl
      refine ⟨.yielded e :: ys, name, args, r, post, rfl, ?_, hcall⟩
      exact List.forall_mem_cons.2 ⟨trivial, hys⟩
    | invoke name args r =>
      simp only [Gate.next] at ht
      split at ht
      · next hcall => exact ⟨[], name, args, r, l, rfl, fun _ hy => (List.not_mem_nil hy).elim, hcall⟩
      · cases ht
    | _ => cases ht

/-- An evaluation that lets a call pass is followed by that call's invocation. -/
theorem Gate.invoke_of_evaluate {codec : Codec} {pre post : List (Act W)} (hd : ¬d.Blocks)
    (h : (pre ++ .evaluate w ctx (.ok d) :: post).foldlM (Gate.next codec) .closed =
      some .closed) :
    ∃ ys name args r post', post = ys ++ .invoke name args r :: post' ∧ (∀ y ∈ ys, y.IsYield) ∧
      IsCall codec ctx name args := by
  rw [List.foldlM_append, Option.bind_eq_bind, Option.bind_eq_some_iff] at h
  obtain ⟨g, -, hpost⟩ := h
  rw [List.foldlM_cons, Option.bind_eq_bind, Option.bind_eq_some_iff] at hpost
  obtain ⟨g', heval, hpost⟩ := hpost
  cases g with
  | closed =>
    simp only [Gate.next, if_neg hd, Option.some.injEq] at heval
    subst heval
    exact invoke_of_opened hpost
  | opened w' ctx' => cases heval

theorem lastAction_append_yields {ys : List (Act W)} (hys : ∀ y ∈ ys, y.IsYield)
    (l : List (Act W)) : lastAction (l ++ ys) = lastAction l := by
  induction ys using List.reverseRecOn with
  | nil => rw [List.append_nil]
  | append_singleton ys y ih =>
    rw [← List.append_assoc, lastAction_concat_yield (hys y (by simp))]
    exact ih fun y' hy' => hys y' (by simp [hy'])

/-! ## The loops pass the gate -/

/-- From a closed gate to a closed gate. -/
def Gates (codec : Codec) (x : M W α) : Prop :=
  Monitored (Gate.next codec) .closed x fun _ g => g = .closed

namespace Gates

variable {codec : Codec} {α β : Type}

theorem bind {x : M W α} {f : α → M W β} (hx : Gates codec x) (hf : ∀ a, Gates codec (f a)) :
    Gates codec (x >>= f) := by
  refine Monitored.bind hx (fun _ _ h => h) ?_
  rintro a g rfl
  exact hf a

theorem ungated {x : M W α} (h : x.Acts Act.IsUngated) : Gates codec x :=
  .of_acts (h.weaken fun _ _ hl t ht => (hl t ht).next_eq codec)

theorem pure (a : α) : Gates codec (Pure.pure a : M W α) := Monitored.pure rfl

end Gates

/-- How the evaluation of a context leaves the gate. -/
def Decided (ctx : PolicyContext) : Result PolicyDecision → Gate W → Prop
  | .ok d, g => if d.Blocks then g = .closed else ∃ w, g = .opened w ctx
  | .error _, g => g = .closed

/-- How the check of a call leaves the gate. -/
def Checked (ctx : PolicyContext) : Result Unit → Gate W → Prop
  | .ok (), g => ∃ w, g = .opened w ctx
  | .error _, g => g = .closed

theorem evaluate_decided (codec : Codec) (engine : PolicyEngine W) (p : Principal)
    (ctx : PolicyContext) :
    Monitored (Gate.next codec) .closed (evaluate engine p ctx) (Decided ctx) := by
  refine .call fun w => ?_
  cases (engine.evaluate p ctx w).1 with
  | ok d =>
    refine ⟨_, rfl, ?_⟩
    by_cases hd : d.Blocks
    · simp only [Decided, if_pos hd]
    · simp only [Decided, if_neg hd]
      exact ⟨w, rfl⟩
  | error e => exact ⟨_, rfl, rfl⟩

namespace Loop

variable {L : Loop W ρ} {H : Hooks W ρ κ}

theorem enforce_eq_ok (name : String) (d : PolicyDecision) :
    enforce name d = .ok () ↔ ¬d.Blocks := by
  cases d <;> simp [enforce, PolicyDecision.Blocks]

/-- The gate is open after a passed check, for the call that was checked. -/
theorem gate_checked (hp : L.policy = some engine) (model : String) (messages : List Message)
    (name : String) (args : Json) :
    Monitored (Gate.next L.codec) .closed (L.gate model messages name args)
      (Checked (L.preToolContext model messages name args)) := by
  unfold gate
  rw [hp]
  refine .bind (evaluate_decided _ _ _ _) (fun _ _ h => h) fun d g hg => ?_
  by_cases hd : d.Blocks
  · obtain rfl : g = .closed := by simpa only [Decided, if_pos hd] using hg
    cases hr : enforce name d with
    | ok u => exact absurd hd ((enforce_eq_ok name d).1 hr)
    | error e => exact .throw rfl
  · obtain ⟨w, rfl⟩ : ∃ w, g = .opened w _ := by simpa only [Decided, if_neg hd] using hg
    rw [(enforce_eq_ok name d).2 hd]
    exact .pure ⟨w, rfl⟩

/-- Events, as the loops yield them. -/
structure Quiet (event : OrchEvent → M W Unit) : Prop where
  acts : ∀ e, (event e).Acts Act.IsYield
  infallible : ∀ e, (event e).Infallible

theorem Quiet.monitored {event : OrchEvent → M W Unit} (hev : Quiet event) (codec : Codec)
    (g : Gate W) (e : OrchEvent) :
    Monitored (Gate.next codec) g (event e) fun r g' => g' = g ∧ r.isOk = true :=
  .of_acts_infallible ((hev.acts e).weaken fun _ _ hl t ht => (hl t ht).next_eq codec g)
    (hev.infallible e)

theorem runTools_gates (hp : L.policy = some engine) {event : OrchEvent → M W Unit}
    (hev : Quiet event) (step : Nat) (model : String) (messages : List Message)
    (calls : List (String × String × Json)) :
    Gates L.codec (L.runTools event step model messages calls) := by
  induction calls with
  | nil => exact .pure _
  | cons call calls ih =>
    obtain ⟨id, name, args⟩ := call
    unfold runTools
    refine Monitored.bind (gate_checked hp _ _ _ _) (fun _ _ h => h) ?_
    rintro ⟨⟩ g ⟨w, rfl⟩
    refine Monitored.bind (hev.monitored _ _ _) (fun _ _ h => by cases h.2) ?_
    rintro ⟨⟩ g ⟨rfl, -⟩
    refine Monitored.bind (Q := fun _ g => g = .closed) (.attempt (.call fun w' => ?_))
      (fun _ _ h => h) ?_
    · exact ⟨_, if_pos ⟨rfl, rfl, rfl⟩, rfl⟩
    · rintro r g rfl
      refine Monitored.bind (hev.monitored _ _ _) (fun _ _ h => by cases h.2) ?_
      rintro ⟨⟩ g ⟨rfl, -⟩
      exact Gates.bind ih fun _ => .pure _

theorem finishTurn_gates (hp : L.policy = some engine) {event : OrchEvent → M W Unit}
    (hev : Quiet event) (step : Nat) (model : String) (s : LoopState) (assistant : Message)
    (fr : FinishReason) (usage : Usage) :
    Gates L.codec (L.finishTurn event step model s assistant fr usage) := by
  unfold finishTurn
  dsimp only
  split
  · exact .pure _
  · exact .bind (runTools_gates hp hev _ _ _ _) fun _ => .pure _

theorem turn_gates (hp : L.policy = some engine)
    (hpick : ∀ ms, (L.pick ms).Acts Act.IsUngated) (step : Nat) (s : LoopState) :
    Gates L.codec (L.turn step s) := by
  unfold turn
  refine .bind (.ungated (hpick _)) fun _ => .bind (.ungated (.read _)) fun _ => ?_
  refine .bind (.ungated (preCheck_acts (fun _ _ _ => trivial) _ _ _ _)) fun _ => ?_
  refine .bind (.ungated (.call fun _ => trivial)) fun _ => ?_
  refine .bind (.ungated (record_acts (fun _ _ _ => trivial) _ _ _ _)) fun _ => ?_
  exact finishTurn_gates hp ⟨fun _ => .pure _, fun _ => .pure _⟩ _ _ _ _ _ _

theorem turns_gates {codec : Codec} {turn : Nat → LoopState → M W LoopState}
    (h : ∀ step s, Gates codec (turn step s)) (n step : Nat) (s : LoopState) :
    Gates codec (turns turn n step s) :=
  turns_induction (Q := fun _ x => Gates codec x) (fun _ => .pure _)
    (fun step s _ hf => .bind (h step s) hf) n step s

theorem streamTurn_gates (hp : L.policy = some engine)
    (hpick : ∀ ms, (L.pick ms).Acts Act.IsUngated) (hH : H.Acts Act.IsUngated)
    (hev : Quiet H.toolEvent) (step : Nat) (s : LoopState) (k : κ) :
    Gates L.codec (L.streamTurn H step s k) := by
  unfold streamTurn
  refine .bind (.ungated (hH.turnStart _)) fun _ => .bind (.ungated (hpick _)) fun _ => ?_
  refine .bind (.ungated (.read _)) fun _ => ?_
  refine .bind (.ungated (preCheck_acts (fun _ _ _ => trivial) _ _ _ _)) fun _ => ?_
  refine .bind (.ungated (respond_acts hH (fun _ => trivial) _ _ _ _ _ _ _ (fun _ => trivial)
    fun _ _ => trivial)) fun _ => ?_
  refine .bind (.ungated (record_acts (fun _ _ _ => trivial) _ _ _ _)) fun _ => ?_
  refine .bind (.ungated (hH.onTurn _ _ _)) fun _ => ?_
  exact .bind (finishTurn_gates hp hev _ _ _ _ _ _) fun _ => .pure _

theorem streamTurns_gates (hp : L.policy = some engine)
    (hpick : ∀ ms, (L.pick ms).Acts Act.IsUngated) (hH : H.Acts Act.IsUngated)
    (hev : Quiet H.toolEvent) (n step : Nat) (s : LoopState) (k : κ) :
    Gates L.codec (L.streamTurns H n step s k) :=
  streamTurns_induction (Q := fun _ x => Gates L.codec x) (fun _ => .pure _)
    (fun step s k _ hf => .bind (streamTurn_gates hp hpick hH hev step s k) fun a => hf a.1 a.2)
    n step s k

end Loop

/-! ## `SingleAgent` -/

/-- An evaluation says what the engine says. -/
def Act.FromEngine (engine : PolicyEngine W) (p : Principal) : Act W → Prop
  | .evaluate w ctx r => r = (engine.evaluate p ctx w).1
  | _ => True

namespace SingleAgent

variable (A : SingleAgent W) (engine : PolicyEngine W) (p : Principal) (input : OrchInput)

theorem quiet_hooks : Loop.Quiet (hooks : Hooks W Unit Unit).toolEvent :=
  ⟨fun _ => .emit trivial, fun _ => .emit _⟩

theorem run_gates : Gates A.codec ({ A with policy := some engine }.run p input) := by
  refine .bind (Loop.turns_gates (Loop.turn_gates rfl ?_) _ _ _) fun _ => .pure _
  exact pick_acts (fun _ _ _ => trivial) _ _

theorem stream_gates : Gates A.codec ({ A with policy := some engine }.stream p input) := by
  refine .bind (.bind (Loop.streamTurns_gates rfl ?_ ?_ quiet_hooks _ _ _ _) fun _ => .pure _)
    fun _ => .ungated (.emit trivial)
  · exact pick_acts (fun _ _ _ => trivial) _ _
  · exact hooks_acts fun _ => trivial

theorem fromEngine_of_not_isEvaluate {engine : PolicyEngine W} {t : Act W} (h : ¬t.IsEvaluate) :
    t.FromEngine engine p := by
  cases t with
  | evaluate => exact absurd trivial h
  | _ => trivial

theorem run_fromEngine :
    ({ A with policy := some engine }.run p input).Acts (Act.FromEngine engine p) := by
  refine run_acts (fun _ => fromEngine_of_not_isEvaluate p) ?_ _
  rintro e ⟨⟩ w ctx -
  rfl

theorem stream_fromEngine :
    ({ A with policy := some engine }.stream p input).Acts (Act.FromEngine engine p) := by
  refine stream_acts (fun _ => fromEngine_of_not_isEvaluate p) ?_ _
  rintro e ⟨⟩ w ctx -
  rfl

end SingleAgent

/-! ## Policies that are Rego bundles -/

/-- Every invocation comes right after the evaluation of that call, whose value permits it. -/
def Gated (codec : Codec) (B : OpaBundle W) (p : Principal) (trace : List (Act W)) : Prop :=
  ∀ pre name args r post, trace = pre ++ .invoke name args r :: post →
    ∃ w ctx d v, lastAction pre = some (.evaluate w ctx (.ok d)) ∧ IsCall codec ctx name args ∧
      (B.value p ctx w).1 = .ok v ∧ Permits v

/-- Whenever the policy is asked, its value permits or refuses. -/
def Decisive (B : OpaBundle W) (p : Principal) (trace : List (Act W)) : Prop :=
  ∀ w ctx r, .evaluate w ctx r ∈ trace → ∀ v, (B.value p ctx w).1 = .ok v → Permits v ∨ Refuses v

theorem gated_iff {codec : Codec} {B : OpaBundle W} {p : Principal} {x : M W α}
    (hg : Gates codec x) (hv : x.Acts (Act.FromEngine B.engine p)) (w : W) :
    Gated codec B p (x.run w).trace ↔ Decisive B p (x.run w).trace := by
  obtain ⟨g, hm, rfl⟩ := hg w
  constructor
  · intro hgated w' ctx r hmem v hval
    obtain rfl : r = .ok (parseDecision v) := (hv w _ hmem).trans (B.evaluate_of_value hval)
    by_cases hd : (parseDecision v).Blocks
    · exact .inr ((blocks_parseDecision_iff v).1 hd)
    · obtain ⟨pre, post, htrace⟩ := List.append_of_mem hmem
      rw [htrace] at hm
      obtain ⟨ys, name, args, r, post', rfl, hys, -⟩ := Gate.invoke_of_evaluate hd hm
      obtain ⟨w'', ctx', d, v', hlast, -, hval', hpermits⟩ :=
        hgated (pre ++ [.evaluate w' ctx (.ok (parseDecision v))] ++ ys) name args r post'
          (by simp [htrace])
      rw [lastAction_append_yields hys, lastAction_concat id, Option.some.injEq] at hlast
      cases hlast
      rw [hval] at hval'
      cases hval'
      exact .inl hpermits
  · intro hdec pre name args r post htrace
    rw [htrace] at hm
    obtain ⟨w', ctx, d, hd, hlast, hcall⟩ := Gate.lastAction_of_invoke hm
    have hmem : .evaluate w' ctx (.ok d) ∈ (x.run w).trace := by
      rw [htrace]
      refine List.mem_append_left _ (List.mem_reverse.1 ?_)
      exact List.mem_of_find?_eq_some hlast
    obtain ⟨v, hval, rfl⟩ := B.evaluate_eq_ok (hv w _ hmem).symm
    refine ⟨w', ctx, _, v, hlast, hcall, hval, ?_⟩
    rcases hdec w' ctx _ hmem v hval with h | h
    · exact h
    · exact absurd ((blocks_parseDecision_iff v).2 h) hd

/-- A run under a Rego policy is gated exactly if each value that the policy gave permits or refuses
its call. -/
theorem tool_gating_iff (B : OpaBundle W) (A : SingleAgent W) (p : Principal) (input : OrchInput)
    (w : W) :
    (Gated A.codec B p (({ A with policy := some B.engine }.run p input).run w).trace ↔
      Decisive B p (({ A with policy := some B.engine }.run p input).run w).trace) ∧
    (Gated A.codec B p (({ A with policy := some B.engine }.stream p input).run w).trace ↔
      Decisive B p (({ A with policy := some B.engine }.stream p input).run w).trace) :=
  ⟨gated_iff (A.run_gates B.engine p input) (A.run_fromEngine B.engine p input) w,
    gated_iff (A.stream_gates B.engine p input) (A.stream_fromEngine B.engine p input) w⟩

/-- A run under a policy whose value is always `v`. -/
def sampleTrace (v : Json) : List (Act Nat) :=
  (({ Sample.agent Sample.toolThenDone with
      policy := some (Sample.bundle v).engine }.run Sample.acme Sample.input).run 0).trace

/-- A policy that answers with the bare string. -/
def bareApproval : Json := .string "require_approval"

theorem sampleTrace_bareApproval : sampleTrace bareApproval =
    (sampleTrace bareApproval).take 2 ++
      .invoke "rm" (.object []) (.ok .null) :: (sampleTrace bareApproval).drop 3 :=
  rfl

theorem not_permits_bareApproval : ¬Permits (some bareApproval) := by
  intro h
  generalize hv : some bareApproval = v at h
  cases h with
  | undefined | null | object => cases hv
  | allow => exact absurd hv (by simp [bareApproval])

/-- The tool is invoked although the policy asks for an approval, with a bare string. -/
theorem bare_require_approval_runs_tool :
    ¬∀ (B : OpaBundle Nat) (A : SingleAgent Nat) (p : Principal) (input : OrchInput) (w : Nat),
      Gated A.codec B p (({ A with policy := some B.engine }.run p input).run w).trace := by
  intro h
  have hrun : Gated Sample.codec (Sample.bundle bareApproval) Sample.acme _ :=
    h _ (Sample.agent Sample.toolThenDone) _ Sample.input 0
  obtain ⟨w, ctx, d, v, -, -, hval, hpermits⟩ := hrun _ _ _ _ _ sampleTrace_bareApproval
  obtain rfl : some bareApproval = v := Except.ok.inj hval
  exact not_permits_bareApproval hpermits

end Tako.Orchestrator
