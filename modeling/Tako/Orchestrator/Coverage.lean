import Tako.Orchestrator.Gating

/-!
# Which stages a policy is asked at

An agent that is built with a policy asks it before each tool, and never before a provider's call
(`SingleAgent.policy_coverage_iff`).
-/

namespace Tako.Orchestrator

open Traced

variable {W ρ κ : Type}

/-! ## Coverage -/

/-- Each provider call is preceded by a `PreChat` evaluation of its turn, each invocation by the
`PreTool` evaluation of that call, and nothing that was denied is called or invoked. Between two
turns a tool is invoked, since a turn without tools is the last. -/
structure Covered (codec : Codec) (trace : List (Act W)) : Prop where
  preChat : ∀ pre t post, trace = pre ++ t :: post → t.IsProviderCall →
    ∃ before w ctx r after, pre = before ++ .evaluate w ctx r :: after ∧ ctx.stage = .preChat ∧
      ∀ a ∈ after, ¬a.IsInvoke
  preTool : ∀ pre name args r post, trace = pre ++ .invoke name args r :: post →
    ∃ w ctx d, lastAction pre = some (.evaluate w ctx d) ∧ IsCall codec ctx name args
  denied : ∀ pre w ctx d post, trace = pre ++ .evaluate w ctx (.ok d) :: post → d.Blocks →
    ∀ t ∈ post, ¬t.IsProviderCall ∧ ¬t.IsInvoke

/-- No call, no invocation and no evaluation. -/
def Act.IsAside : Act W → Prop
  | .chat _ _ _ | .stream _ _ _ | .invoke _ _ _ | .evaluate _ _ _ => False
  | _ => True

theorem covered_of_aside {codec : Codec} {trace : List (Act W)} (h : ∀ t ∈ trace, t.IsAside) :
    Covered codec trace where
  preChat pre t post htrace hcall := by
    have ht := h t (by simp [htrace])
    cases t with
    | chat | stream => exact ht.elim
    | _ => exact hcall.elim
  preTool pre name args r post htrace :=
    (h (.invoke name args r) (by simp [htrace])).elim
  denied pre w ctx d post htrace _ := (h (.evaluate w ctx (.ok d)) (by simp [htrace])).elim

/-- An evaluation is one of a tool's call. -/
def Act.IsToolStage : Act W → Prop
  | .evaluate _ ctx _ => ctx.stage = .preTool
  | _ => True

/-- A provider's call is not covered by a policy that is only asked about tools. -/
theorem not_covered_of_call {codec : Codec} {trace : List (Act W)}
    (hstage : ∀ t ∈ trace, t.IsToolStage) (ht : t ∈ trace) (hcall : t.IsProviderCall) :
    ¬Covered codec trace := by
  intro h
  obtain ⟨pre, post, htrace⟩ := List.append_of_mem ht
  obtain ⟨before, w, ctx, r, after, rfl, hpre, -⟩ := h.preChat pre t post htrace hcall
  have hctx : ctx.stage = .preTool := hstage (.evaluate w ctx r) (by simp [htrace])
  rw [hpre] at hctx
  cases hctx

/-! ## `SingleAgent` -/

namespace SingleAgent

variable (A : SingleAgent W) (p : Principal)

/-- A run does not get to its first provider call: the router fails or names an unknown provider,
or the budget refuses the first request. -/
def TurnedAway (streams : LlmProvider W → Bool) (input : OrchInput) (w : W) : Prop :=
  ∃ e, (((A.loop p).prepare streams input.conversation).run w).result = .error e

theorem turnedAway_or (streams : LlmProvider W → Bool) (input : OrchInput) (w : W) :
    A.TurnedAway p streams input w ∨
      (∃ a, (((A.loop p).prepare streams input.conversation).run w).result = .ok a) ∧
        ¬A.TurnedAway p streams input w := by
  unfold TurnedAway
  cases h : (((A.loop p).prepare streams input.conversation).run w).result with
  | ok a => exact .inr ⟨⟨a, rfl⟩, fun ⟨e, he⟩ => by cases he⟩
  | error e => exact .inl ⟨e, rfl⟩

theorem isToolStage_of_not_isEvaluate {t : Act W} (h : ¬t.IsEvaluate) : t.IsToolStage := by
  cases t with
  | evaluate => exact absurd trivial h
  | _ => trivial

theorem prepare_aside (streams : LlmProvider W → Bool) (messages : List Message) :
    ((A.loop p).prepare streams messages).Acts Act.IsAside :=
  Loop.prepare_acts (pick_acts (fun _ _ _ => trivial) A p) (fun _ _ _ => trivial) _ _

theorem run_covered_iff (input : OrchInput) (w : W) :
    Covered A.codec ((A.run p input).run w).trace ↔ A.TurnedAway p (fun _ => false) input w := by
  obtain ⟨n, hn⟩ := A.maxSteps.exists_eq
  rcases A.turnedAway_or p (fun _ => false) input w with ⟨e, h⟩ | ⟨⟨a, h⟩, hnot⟩
  · refine iff_of_true (covered_of_aside ?_) ⟨e, h⟩
    unfold run
    rw [Loop.run_trace_of_error (L := A.loop p) _ w hn h]
    exact A.prepare_aside p _ _ w
  · obtain ⟨t, ht, hsends⟩ := Loop.run_sends (L := A.loop p) hn h
    refine iff_of_false (not_covered_of_call ?_ ht hsends.isProviderCall) hnot
    exact run_acts (fun _ => isToolStage_of_not_isEvaluate) (fun _ _ _ _ h => h) input w

theorem stream_covered_iff (input : OrchInput) (w : W) :
    Covered A.codec ((A.stream p input).run w).trace ↔
      A.TurnedAway p (fun provider => provider.capabilities.supportsStreaming) input w := by
  obtain ⟨n, hn⟩ := A.maxSteps.exists_eq
  rcases A.turnedAway_or p (hooks (W := W)).streams input w with ⟨e, h⟩ | ⟨⟨a, h⟩, hnot⟩
  · refine iff_of_true (covered_of_aside ?_) ⟨e, h⟩
    unfold stream
    rw [Loop.runStreaming_trace_of_error (L := A.loop p) hn rfl h]
    exact List.forall_mem_cons.2 ⟨trivial, A.prepare_aside p _ _ w⟩
  · obtain ⟨t, ht, hsends⟩ := Loop.runStreaming_sends (L := A.loop p) (H := hooks) hn rfl h ()
    refine iff_of_false (not_covered_of_call ?_ (mem_trace_bind _ ht) hsends.isProviderCall) hnot
    exact stream_acts (fun _ => isToolStage_of_not_isEvaluate) (fun _ _ _ _ h => h) input w

/-- A run under a policy is covered exactly if it ends before its first provider call. -/
theorem policy_coverage_iff (engine : PolicyEngine W) (input : OrchInput) (w : W) :
    (Covered A.codec (({ A with policy := some engine }.run p input).run w).trace ↔
      A.TurnedAway p (fun _ => false) input w) ∧
    (Covered A.codec (({ A with policy := some engine }.stream p input).run w).trace ↔
      A.TurnedAway p (fun provider => provider.capabilities.supportsStreaming) input w) :=
  ⟨run_covered_iff { A with policy := some engine } p input w,
    stream_covered_iff { A with policy := some engine } p input w⟩

/-- The provider is called although the policy was not asked. -/
theorem provider_called_unasked :
    ¬∀ (engine : PolicyEngine Nat) (A : SingleAgent Nat) (p : Principal) (input : OrchInput)
      (w : Nat), Covered A.codec (({ A with policy := some engine }.run p input).run w).trace := by
  intro h
  have hrun := (h (Sample.bundle (.string "allow")).engine
    (Sample.agent fun _ => some Sample.done) Sample.acme Sample.input 0).preChat [] _ _ rfl trivial
  obtain ⟨before, w, ctx, r, after, hnil, -⟩ := hrun
  simp at hnil

end SingleAgent

end Tako.Orchestrator
