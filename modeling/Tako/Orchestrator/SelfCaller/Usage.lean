import Tako.Orchestrator.AbMctsUsage
import Tako.Orchestrator.Sample
import Tako.Orchestrator.SelfCaller.Iterations
import Tako.Orchestrator.Texts

/-!
# The usage of a `SelfCaller`

A `SelfCaller` returns the output of the accepted iteration, or none of what was counted when the
guard is confident early. So its usage and steps are those of all provider calls if and only if no
other iteration made one (`SelfCaller.run_counts_iff`, `SelfCaller.stream_counts_iff`).
-/

namespace Tako.Orchestrator

open Generator

variable {W τ ι : Type}

/-! ## What is counted -/

/-- The outputs count the provider calls, as `OrchOutput` says: `bill` tells which actions are calls,
with their usage. -/
structure Counting (bill : τ → Option Usage) (O : Orchestrator W τ) : Prop where
  run : ∀ p input, (O.run p input).Settles bill (fun calls _ out => out.Counts calls) [] []
  stream : ∀ p input, (O.stream p input).Settles bill
    (fun calls evs _ => ∀ out, lastFinal evs = some out → out.Counts calls) [] []

namespace SelfCaller

/-- The calls of what is wrapped. -/
def withinUsage (bill : Act τ → Option Usage) : Act τ → Option Usage :=
  within fun a => bill (.within a)

/-- All calls were made by what is wrapped in the last iteration. If the guard was confident early,
it was one call without usage. -/
def OneIteration (bill : Act τ → Option Usage) (l : List (Act τ ⊕ ι)) : Prop :=
  match lastAct l with
  | some (.evaluateStreaming _ _ _) => seen bill l = [{}]
  | _ => seen bill l = seen (withinUsage bill) (lastIteration l)

theorem seen_withinUsage_sublist (bill : Act τ → Option Usage) (l : List (Act τ ⊕ ι)) :
    (seen (withinUsage bill) l).Sublist (seen bill l) := by
  induction l with
  | nil => exact .refl []
  | cons t l ih =>
    cases t with
    | inr i => exact ih
    | inl a =>
      rw [seen_cons, seen_cons]
      refine .append ?_ ih
      cases a with
      | within a => exact .refl _
      | _ => exact List.nil_sublist _

/-- How an output comes about: from an iteration that is accepted, or from one in which the guard
was confident early. -/
inductive Answered (bill : Act τ → Option Usage) (out : OrchOutput) :
    List (Act τ ⊕ ι) → Prop where
  | accepted {pre post : List (Act τ ⊕ ι)} (hpost : ∀ t ∈ post, IsCall t = false)
    (hlast : lastAct post = some (.evaluate q' text r))
    (hout : out.Counts (seen (withinUsage bill) post)) :
    Answered bill out (pre ++ .inl (.inner q input) :: post)
  | early {pre post : List (Act τ ⊕ ι)}
    (hlast : lastAct post = some (.evaluateStreaming q' text r)) (husage : out.usage = {})
    (hsteps : out.steps = 1) : Answered bill out (pre ++ .inl (.inner q input) :: post)

variable {bill : Act τ → Option Usage}

theorem Answered.after {out : OrchOutput} {l : List (Act τ ⊕ ι)} (h : Answered bill out l)
    (before : List (Act τ ⊕ ι)) : Answered bill out (before ++ l) := by
  cases h with
  | accepted hpost hlast hout =>
    rw [← List.append_assoc]
    exact .accepted hpost hlast hout
  | early hlast husage hsteps =>
    rw [← List.append_assoc]
    exact .early hlast husage hsteps

/-- An iteration whose output the guard has scored. -/
theorem Answered.evaluated {out : OrchOutput} {l : List (Act τ ⊕ ι)}
    (hcalls : ∀ t ∈ l, IsCall t = false) (hout : out.Counts (seen (withinUsage bill) l))
    (q : Principal) (input : OrchInput) (text : String) (r : Result Rat) :
    Answered bill out (.inl (.inner q input) :: (l ++ [.inl (.evaluate q text r)])) := by
  have hseen : seen (withinUsage bill) (l ++ [.inl (.evaluate q text r)]) =
      seen (withinUsage bill) l := by
    rw [seen_append]
    exact List.append_nil _
  refine (show Answered bill out ([] ++ .inl (.inner q input) :: _) from
    .accepted ?_ (lastAct_append l (show lastAct [.inl (.evaluate q text r)] = _ from rfl)) (hseen.symm ▸ hout))
  exact List.forall_mem_append.2 ⟨hcalls, List.forall_mem_singleton.2 rfl⟩

theorem Answered.counts_iff {out : OrchOutput} {l : List (Act τ ⊕ ι)} (h : Answered bill out l) :
    out.Counts (seen bill l) ↔ OneIteration bill l := by
  unfold OneIteration
  cases h with
  | @accepted _ _ _ q input pre post hpost hlast hout =>
    have hsub : (seen (withinUsage bill) post).Sublist
        (seen bill (pre ++ .inl (.inner q input) :: post)) := by
      rw [seen_append, seen_cons]
      exact (seen_withinUsage_sublist bill post).trans
        ((List.sublist_append_right _ _).trans (List.sublist_append_right _ _))
    rw [lastAct_iteration pre q input hlast, lastIteration_eq q input hpost]
    exact hout.counts_iff hsub
  | @early _ _ _ q input pre post hlast husage hsteps =>
    rw [lastAct_iteration pre q input hlast]
    generalize seen bill _ = calls
    refine ⟨fun hcounts => ?_, fun hcalls => ?_⟩
    · obtain ⟨usage, rfl⟩ := List.length_eq_one_iff.1 (hcounts.steps.symm.trans hsteps)
      have hsum := hcounts.usage.symm.trans husage
      rw [Usage.sum_cons, Usage.sum_nil, Usage.add_zero] at hsum
      rw [hsum]
    · refine hcalls ▸ ⟨husage, hsteps⟩

/-! ## `run` -/

variable {C : SelfCaller W τ}

/-- Nothing is called between two calls of what is wrapped. -/
theorem isCall_within (x : Generator W (Act τ) TakoError ι α) (w : W) :
    ∀ t ∈ ((x.relabel .within).play.run w).trace, IsCall t = false := by
  rw [play_relabel]
  refine List.forall_mem_map.2 fun t _ => ?_
  cases t <;> rfl

theorem seen_within (bill : Act τ → Option Usage) (x : Generator W (Act τ) TakoError ι α) (w : W) :
    seen (withinUsage bill) ((x.relabel .within).play.run w).trace =
      seen (fun a => bill (.within a)) (x.play.run w).trace := by
  rw [play_relabel]
  exact seen_map _ _ _

theorem runFrom_answered (h : Counting (fun a => bill (.within a)) C.inner) {p : Principal}
    {start n offset : Nat} (hn : n + offset = C.maxDepth.toNat + 1)
    (hoffset : offset ≤ C.maxDepth.toNat) {input : OrchInput} {last : Option OrchOutput} {w : W}
    {out : OrchOutput} (hr : ((C.runFrom p start n offset input last).play.run w).result = .ok out) :
    Answered bill out ((C.runFrom p start n offset input last).play.run w).trace := by
  induction n generalizing offset input last w with
  | zero => omega
  | succ n ih =>
    rw [runFrom, run_emit_bind] at hr ⊢
    generalize bumpedPrincipal p (saturatingAdd start offset) = q at hr ⊢
    cases hinner : ((C.inner.run q input).play.run w).result with
    | error e =>
      rw [run_relabel_bind_error _ _ hinner] at hr
      cases hr
    | ok o =>
      have hcounts := (h.run q input).play hinner
      rw [List.nil_append, ← seen_within] at hcounts
      have hcalls := isCall_within (C.inner.run q input) w
      rw [run_relabel_bind_ok _ _ hinner, evaluate] at hr ⊢
      generalize ((C.inner.run q input).play.run w).world = w' at hr ⊢
      generalize (((C.inner.run q input).relabel Act.within).play.run w).trace = l at *
      cases hc : (C.confidence.evaluate q o.text w').1 with
      | error e =>
        rw [run_call_bind_error _ _ hc] at hr
        cases hr
      | ok conf =>
        rw [run_call_bind_ok _ _ hc] at hr ⊢
        split at hr
        · next hstop =>
          rw [if_pos hstop]
          cases hr
          exact .evaluated hcalls hcounts q input out.text (.ok conf)
        · next hgo =>
          rw [if_neg hgo]
          have hrest := ih (show n + (offset + 1) = _ by omega) (by simp at hgo; omega) hr
          exact ((hrest.after [.inl (.evaluate q o.text (.ok conf))]).after l).after
            [.inl (.inner q input)]

/-- The output of a run counts all calls exactly if they were made in one iteration. -/
theorem run_counts_iff (h : Counting (fun a => bill (.within a)) C.inner) (p : Principal)
    (input : OrchInput) (w : W) (out : OrchOutput)
    (hr : ((C.run p input).play.run w).result = .ok out) :
    out.Counts (seen bill ((C.run p input).play.run w).trace) ↔
      OneIteration bill ((C.run p input).play.run w).trace :=
  (runFrom_answered h (show C.maxDepth.toNat + 1 + 0 = C.maxDepth.toNat + 1 from rfl) (Nat.zero_le _)
    hr).counts_iff

/-! ## `stream` -/

theorem Ended.answered {out : OrchOutput} {l : List (Act τ ⊕ OrchEvent)}
    (h : Ended (fun a => bill (.within a))
      (fun calls evs _ => ∀ out, lastFinal evs = some out → out.Counts calls) out l) :
    Answered bill out l := by
  cases h with
  | accepted hcalls hlast hfinal htext hQ => exact .accepted hcalls hlast (hQ out hfinal)
  | early hcalls hlast hout => exact .early hlast (by rw [hout]) (by rw [hout])

/-- The output of a `Final` event counts all calls exactly if they were made in one iteration. -/
theorem stream_counts_iff (h : Counting (fun a => bill (.within a)) C.inner) (p : Principal)
    (input : OrchInput) (w : W) (out : OrchOutput)
    (hmem : .inr (.final out) ∈ ((C.stream p input).play.run w).trace) :
    out.Counts (seen bill ((C.stream p input).play.run w).trace) ↔
      OneIteration bill ((C.stream p input).play.run w).trace :=
  (stream_ends h.stream hmem).answered.counts_iff

end SelfCaller

/-! ## Both orchestrators -/

/-- The output of a `SelfCaller` counts all provider calls exactly if they were made in one
iteration, and that of an `AbMcts` exactly if its first rollout is the last. -/
theorem usage_and_steps_iff {W' G : Type} (bill : SelfCaller.Act τ → Option Usage)
    (C : SelfCaller W τ) (hC : Counting (fun a => bill (.within a)) C.inner) (A : AbMcts W' G)
    (p : Principal) (input : OrchInput) :
    (∀ w out, ((C.run p input).play.run w).result = .ok out →
      (out.Counts (seen bill ((C.run p input).play.run w).trace) ↔
        SelfCaller.OneIteration bill ((C.run p input).play.run w).trace)) ∧
    (∀ w out, .inr (.final out) ∈ ((C.stream p input).play.run w).trace →
      (out.Counts (seen bill ((C.stream p input).play.run w).trace) ↔
        SelfCaller.OneIteration bill ((C.stream p input).play.run w).trace)) ∧
    (∀ rng w out, ((A.run p input rng).run w).result = .ok out →
      (out.Counts (((A.run p input rng).run w).trace.filterMap Act.usage) ↔
        A.StopsAtFirst ((A.run p input rng).run w).trace)) ∧
    (∀ rng w out, .yielded (.final out) ∈ ((A.stream p input rng).run w).trace →
      (out.Counts (((A.stream p input rng).run w).trace.filterMap Act.usage) ↔
        A.StopsAtFirst ((A.stream p input rng).run w).trace)) :=
  ⟨SelfCaller.run_counts_iff hC p input, SelfCaller.stream_counts_iff hC p input,
    AbMcts.run_counts_iff input, AbMcts.stream_counts_iff input⟩

/-- One call, then the answer. -/
def oneCall : Orchestrator Unit (SelfCaller.Act Unit) where
  run _ _ := do
    .emit (.other ())
    pure ⟨"ok", .assistant "ok", ⟨10, 2⟩, 1⟩
  stream _ _ := do
    .emit (.other ())
    .yield (.assistantText 0 "ok")
    .yield (.final ⟨"ok", .assistant "ok", ⟨10, 2⟩, 1⟩)

/-- Each of its calls has twelve tokens. -/
def twelveTokens : SelfCaller.Act Unit → Option Usage
  | .within (.other ()) => some ⟨10, 2⟩
  | _ => none

/-- A guard that is never confident, and `maxDepth` more iterations. -/
def doubting (maxDepth : UInt8) : SelfCaller Unit Unit where
  maxDepth
  minConfidence := 1
  confidence := ⟨fun _ _ w => (.ok 0, w), fun _ _ w => (.ok none, w)⟩
  inner := oneCall

theorem doubting_counting (maxDepth : UInt8) :
    Counting (fun a => twelveTokens (.within a)) (doubting maxDepth).inner where
  run _ _ _ := ⟨rfl, rfl⟩
  stream _ _ _ out hout := by
    cases hout
    exact ⟨rfl, rfl⟩

/-- A search of one rollout. -/
def oneRollout : AbMcts Nat Nat :=
  { Sample.mcts (fun _ => some { Sample.done with usage := ⟨10, 2⟩ }) defaultMaxSteps with
    maxIterations := .atLeastOne 1 }

theorem oneRollout_ok :
    ∃ out, ((oneRollout.run Sample.acme Sample.input 0).run 0).result = .ok out := by
  have h : ((oneRollout.run Sample.acme Sample.input 0).run 0).result.isOk = true := by
    decide +kernel
  cases hr : ((oneRollout.run Sample.acme Sample.input 0).run 0).result with
  | ok out => exact ⟨out, rfl⟩
  | error e =>
    rw [hr] at h
    cases h

theorem oneRollout_final : ∃ out, .yielded (.final out) ∈
    ((oneRollout.stream Sample.acme Sample.input 0).run 0).trace := by
  have h : (lastFinal (((oneRollout.stream Sample.acme Sample.input 0).run 0).trace.filterMap
      Act.event)).isSome = true := by
    decide +kernel
  obtain ⟨out, hout⟩ := Option.isSome_iff_exists.1 h
  obtain ⟨t, ht, hevent⟩ := List.mem_filterMap.1 (mem_of_lastFinal hout)
  cases t with
  | yielded e =>
    cases hevent
    exact ⟨out, ht⟩
  | _ => cases hevent

theorem single_iteration_counted :
    OrchOutput.Counts ⟨"ok", .assistant "ok", ⟨10, 2⟩, 1⟩
      (seen twelveTokens (((doubting 0).run Sample.acme Sample.input).play.run ()).trace) ∧
    OrchOutput.Counts ⟨"ok", .assistant "ok", ⟨10, 2⟩, 1⟩
      (seen twelveTokens (((doubting 0).stream Sample.acme Sample.input).play.run ()).trace) ∧
    (∃ out, ((oneRollout.run Sample.acme Sample.input 0).run 0).result = .ok out ∧
      out.Counts (((oneRollout.run Sample.acme Sample.input 0).run 0).trace.filterMap Act.usage)) ∧
    (∃ out, .yielded (.final out) ∈ ((oneRollout.stream Sample.acme Sample.input 0).run 0).trace ∧
      out.Counts (((oneRollout.stream Sample.acme Sample.input 0).run 0).trace.filterMap
        Act.usage)) := by
  obtain ⟨hrun, hstream, hsearch, hsearched⟩ := usage_and_steps_iff twelveTokens (doubting 0)
    (doubting_counting 0) oneRollout Sample.acme Sample.input
  obtain ⟨out, hout⟩ := oneRollout_ok
  obtain ⟨out', hout'⟩ := oneRollout_final
  refine ⟨(hrun () _ rfl).2 rfl, (hstream () _ ?_).2 rfl,
    ⟨out, hout, (hsearch 0 0 out hout).2 (.inl rfl)⟩,
    ⟨out', hout', (hsearched 0 0 out' hout').2 (.inl rfl)⟩⟩
  exact List.mem_of_getLast? rfl

/-- The first iteration's call is lost, though the wrapped orchestrator counts it. -/
theorem rejected_iteration_lost : ¬∀ (bill : SelfCaller.Act Unit → Option Usage)
    (C : SelfCaller Unit Unit), Counting (fun a => bill (.within a)) C.inner →
    ∀ (p : Principal) (input : OrchInput) (w : Unit) (out : OrchOutput),
      ((C.run p input).play.run w).result = .ok out →
        out.Counts (seen bill ((C.run p input).play.run w).trace) := by
  intro h
  have hcounts := h twelveTokens (doubting 1) (doubting_counting 1) Sample.acme Sample.input () _ rfl
  cases hcounts.steps

end Tako.Orchestrator
