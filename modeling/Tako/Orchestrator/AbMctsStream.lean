import Tako.Orchestrator.AbMcts
import Tako.Orchestrator.RunStream

/-!
# `AbMcts::stream` builds the tree of `AbMcts::run`

The two searches draw the same samples, and each rollout of `stream` is one of `run`
(`AbMcts.rollout_sim`). So they agree on the whole search after any number of iterations.
-/

namespace Tako.Orchestrator

open Traced

variable {W G : Type}

namespace AbMcts

/-- A search whose parts do the same in related worlds, whose providers' streams are chunkings, and
whose verifier's streaming evaluation neither fails nor leaves a mark. -/
structure Streamable (R : W → W → Prop) (A : AbMcts W G) (p : Principal) : Prop extends
    Indifferent R p A.tools A.policy none where
  providers : ∀ provider ∈ A.provider :: A.candidates,
    Orchestrator.Streamable R A.codec p none (·.capabilities.supportsStreaming) provider
  router : ∀ r ∈ A.router, ∀ req cs, Respects R (r.route p req cs)
  score : ∀ prompt output, Respects R (A.verifier.score p prompt output)
  evaluateStreaming : ∀ text w w', R w w' →
    (∃ s, (A.verifier.evaluateStreaming p text w').1 = .ok s) ∧
      R w (A.verifier.evaluateStreaming p text w').2

variable {R : W → W → Prop} {A : AbMcts W G} {p : Principal}

theorem pickRolloutProvider_sim (hA : A.Streamable R p) (messages : List Message) :
    Sim R Act.settledCall
      (fun a b => a = b ∧
        Orchestrator.Streamable R A.codec p none (·.capabilities.supportsStreaming) a)
      (A.pickRolloutProvider p messages) (A.pickRolloutProvider p messages) := by
  unfold pickRolloutProvider
  split
  · exact .pure ⟨rfl, hA.providers _ List.mem_cons_self⟩
  · next router hrouter =>
    refine .bind (.call_of_respects (hA.router router hrouter _ _) fun _ _ _ => rfl) ?_
    rintro decision _ rfl
    split
    · next provider hfind => exact .pure ⟨rfl, hA.providers _ (List.mem_of_find?_eq_some hfind)⟩
    · exact .throw _

theorem rolloutLoop_streamable (hA : A.Streamable R p) {streams : LlmProvider W → Bool}
    (hp : Orchestrator.Streamable R A.codec p none streams picked) :
    (A.rolloutLoop p picked).Streamable R streams where
  toIndifferent := hA.toIndifferent
  pick _ := .pure ⟨rfl, hp⟩

theorem rolloutHooks_silent (hA : A.Streamable R p) (iteration branch : Nat) :
    (A.rolloutHooks p iteration branch).Silent R where
  turnStart _ := .pure trivial
  onText _ _ cumulative delta _ := by
    refine .bind (.emit rfl) fun _ _ => .bind (P := fun _ => True) (.call ?_ fun _ _ => rfl) ?_
    · intro w w' hR
      obtain ⟨⟨s, hs⟩, hw⟩ := hA.evaluateStreaming (cumulative ++ delta) w w' hR
      exact ⟨⟨s, hs, trivial⟩, hw⟩
    · intro score _
      cases score with
      | none => exact .bind (P := fun _ => True) (.pure trivial) fun _ _ => .pure trivial
      | some score => exact .bind (.emit rfl) fun _ _ => .pure trivial
  onChat _ _ _ _ := .bind (.emit rfl) fun _ _ => .pure trivial
  onTurn _ _ _ := .pure trivial
  toolEvent _ := .pure trivial

/-- A rollout of `stream` is one of `run`. -/
theorem rollout_sim (hA : A.Streamable R p) (iteration branch : Nat) (messages : List Message) :
    Sim R Act.settledCall Eq (A.rollout p messages)
      (A.rolloutStreaming p iteration branch messages) := by
  refine .bind (pickRolloutProvider_sim hA messages) ?_
  rintro picked _ ⟨rfl, hp⟩
  split
  · next hs =>
    have hpicked : Orchestrator.Streamable R A.codec p none (fun _ => true) picked :=
      ⟨hp.chat, fun _ => hp.stream hs, hp.price⟩
    exact Loop.runStreaming_sim (rolloutLoop_streamable hA hpicked) (rolloutHooks_silent hA _ _) _ _
  · rw [← Traced.bind_pure ((A.rolloutLoop p picked).run messages), Traced.bind_assoc]
    refine .bind (Loop.run_sim (rolloutLoop_streamable hA hp) messages) ?_
    rintro output _ rfl
    rw [Traced.pure_bind]
    split
    · exact .silent_bind (.emit rfl) fun _ _ => .pure rfl
    · exact .pure rfl

theorem iterateStreaming_sim (hA : A.Streamable R p) (prompt : String) (iteration : Nat)
    (s : Search G) :
    Sim R Act.settledCall Eq (A.iterate p prompt iteration s)
      (A.iterateStreaming p prompt iteration s) := by
  refine .silent_bind (.emit rfl) fun _ _ => .bind (rollout_sim hA _ _ _) ?_
  rintro output _ rfl
  refine .bind (.call_of_respects (hA.score _ _) fun _ _ _ => rfl) ?_
  rintro score _ rfl
  refine .bind (Q := fun _ _ => True) ?_ fun _ _ _ => .pure rfl
  exact Silent.sim (P := fun _ => True) (.emit rfl) ()

theorem iterations_sim {iterate iterate' : Nat → Search G → M W (Search G)}
    (h : ∀ i s, Sim R Act.settledCall Eq (iterate i s) (iterate' i s)) (n i : Nat)
    (s : Search G) :
    Sim R Act.settledCall Eq (A.iterations iterate n i s) (A.iterations iterate' n i s) := by
  induction n generalizing i s with
  | zero => exact .pure rfl
  | succ n ih =>
    refine .bind (h i s) ?_
    rintro s' _ rfl
    split
    · exact .pure rfl
    · exact ih _ _

theorem searchStreaming_sim (hA : A.Streamable R p) (input : OrchInput) (rng : G) :
    Sim R Act.settledCall Eq (A.search p input rng) (A.searchStreaming p input rng) :=
  iterations_sim (iterateStreaming_sim hA _) _ _ _

/-- `stream` ends with the tree of `run`, and with its output or error. -/
theorem stream_builds_tree_of_run (R : W → W → Prop) (A : AbMcts W G) (p : Principal)
    (hA : A.Streamable R p) (input : OrchInput) (rng : G) (w w' : W) (hR : R w w') :
    ((A.search p input rng).run w).result = ((A.searchStreaming p input rng).run w').result ∧
      Agrees Act.settledCall ((A.run p input rng).run w) ((A.stream p input rng).run w') := by
  refine ⟨(searchStreaming_sim hA input rng w w' hR).1.eq, ?_⟩
  have hrun : Sim R Act.settledCall Eq (A.run p input rng)
      (A.searchStreaming p input rng >>= fun s => Traced.ofExcept s.output) := by
    refine .bind (searchStreaming_sim hA input rng) ?_
    rintro s _ rfl
    exact .ofExcept _
  unfold stream
  rw [← Traced.bind_assoc]
  exact agrees_of_sim hrun hR

theorem streamable_sample (p : Principal) (limit : StepLimit) :
    (Sample.mcts Sample.toolThenDone limit).Streamable Eq p where
  toIndifferent := indifferent_sample p
  providers := List.forall_mem_singleton.2 (streamable_scripted p fun _ _ => streamed_toolThenDone)
  router _ h := by cases h
  score _ _ := respects_eq _
  evaluateStreaming _ _ _ h := ⟨⟨none, rfl⟩, h⟩

theorem stream_builds_tree_of_run_sample :
    (((Sample.mcts Sample.toolThenDone defaultMaxSteps).search Sample.acme Sample.input 0).run
        0).result =
      (((Sample.mcts Sample.toolThenDone defaultMaxSteps).searchStreaming Sample.acme Sample.input
        0).run 0).result ∧
    Agrees Act.settledCall
      (((Sample.mcts Sample.toolThenDone defaultMaxSteps).run Sample.acme Sample.input 0).run 0)
      (((Sample.mcts Sample.toolThenDone defaultMaxSteps).stream Sample.acme Sample.input 0).run
        0) :=
  stream_builds_tree_of_run Eq _ _ (streamable_sample _ _) _ _ _ _ rfl

end AbMcts

end Tako.Orchestrator
