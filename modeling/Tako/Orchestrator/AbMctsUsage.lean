import Mathlib.Algebra.Order.BigOperators.Group.List
import Tako.Orchestrator.AbMctsTree
import Tako.Orchestrator.Usage

/-!
# The usage of a tree search

`AbMcts` adds up the usage of all rollouts, but its steps are those of the best one
(`tako-orchestrator/src/ab_mcts.rs`). They are the number of all provider calls if and only if there
was one rollout (`AbMcts.output_counts_iff`).
-/

namespace Tako.Orchestrator

open Traced

variable {W G : Type}

/-! ## The account of a search -/

/-- The calls of a rollout on an account. -/
theorem accounts_from {g : α → Usage × Nat} {x : M W α} (h : Accounts ({}, 0) g x)
    (account : Usage × Nat) :
    Accounts account (fun a => (account.1.add (g a).1, account.2 + (g a).2)) x := by
  refine Ensures.weaken h fun r l hr a ha => ?_
  dsimp only
  rw [hr a ha, tally, tally, foldl_charge, foldl_charge, Usage.zero_add, Nat.zero_add]

theorem map_modify_of_eq {β : Type} (f : Node → β) {g : Node → Node}
    (hg : ∀ node, f (g node) = f node) (nodes : List Node) (n : Nat) : (nodes.modify n g).map f = nodes.map f := by
  refine List.ext_getElem? fun i => ?_
  rw [List.getElem?_map, List.getElem?_modify, List.getElem?_map]
  cases nodes[i]? with
  | none => rfl
  | some node =>
    change some (f (if n = i then g node else node)) = some (f node)
    split
    · rw [hg]
    · rfl

namespace Search

/-- The steps of the nodes' rollouts; the root has none. -/
def steps (s : Search G) : List Nat := s.nodes.map Node.rolloutSteps

def account (s : Search G) : Usage × Nat := (s.usage, s.steps.sum)

theorem steps_update (s : Search G) (rng : G) (parent : Nat) (path : List Nat) (output : OrchOutput)
    (score : Rat) : (s.update rng parent path output score).steps = s.steps ++ [output.steps] := by
  have hback (path : List Nat) (nodes : List Node) :
      (backPropagate score path nodes).map Node.rolloutSteps = nodes.map Node.rolloutSteps := by
    induction path generalizing nodes with
    | nil => rfl
    | cons n path ih =>
      refine (ih _).trans ?_
      exact map_modify_of_eq Node.rolloutSteps (g := Node.credit score) (fun _ => rfl) nodes n
  refine (hback _ _).trans ?_
  unfold insertLeaf
  refine (map_modify_of_eq _ ?_ _ _).trans List.map_append
  exact fun _ => rfl

theorem account_update (s : Search G) (rng : G) (parent : Nat) (path : List Nat)
    (output : OrchOutput) (score : Rat) :
    (s.update rng parent path output score).account =
      (s.usage.add output.usage, s.steps.sum + output.steps) := by
  rw [account, steps_update, List.sum_append, List.sum_singleton]
  rfl

end Search

namespace AbMcts

variable {A : AbMcts W G} {p : Principal}

theorem rollout_accounts (messages : List Message) :
    Accounts ({}, 0) OrchOutput.account (A.rollout p messages) :=
  .silent_bind (pickRolloutProvider_acts (fun _ _ _ => rfl) _) fun _ =>
    Loop.run_accounts (fun _ => .pure _) _

theorem rolloutStreaming_accounts (iteration branch : Nat) (messages : List Message) :
    Accounts ({}, 0) OrchOutput.account (A.rolloutStreaming p iteration branch messages) := by
  refine .silent_bind (pickRolloutProvider_acts (fun _ _ _ => rfl) _) fun picked => ?_
  split
  · exact Loop.runStreaming_accounts (fun _ => .pure _)
      (rolloutHooks_acts (fun _ _ => rfl) (fun _ => rfl) fun _ => rfl) _ _
  · refine .bind (Loop.run_accounts (fun _ => .pure _) _) fun output => ?_
    split
    · exact .silent_bind (.emit rfl) fun _ => .pure rfl
    · exact .pure rfl

theorem iterateWith_accounts {prompt : String} {rollout : Nat → List Message → M W OrchOutput}
    {scored : Nat → Rat → M W Unit}
    (hr : ∀ n messages, Accounts ({}, 0) OrchOutput.account (rollout n messages))
    (hs : ∀ n x, Unbilled (scored n x)) (s : Search G) :
    Accounts s.account Search.account (A.iterateWith p prompt rollout scored s) := by
  refine .bind (accounts_from (hr _ _) _) fun output => .silent_bind (.call fun _ => rfl) fun _ =>
    .silent_bind (hs _ _) fun _ => .pure ?_
  exact Search.account_update _ _ _ _ _ _

theorem iterations_accounts {iterate : Nat → Search G → M W (Search G)}
    (h : ∀ i s, Accounts s.account Search.account (iterate i s)) (n i : Nat) (s : Search G) :
    Accounts s.account Search.account (A.iterations iterate n i s) := by
  induction n generalizing i s with
  | zero => exact .pure rfl
  | succ n ih =>
    refine .bind (h i s) fun s' => ?_
    split
    · exact .pure rfl
    · exact ih _ _

theorem iterate_accounts (prompt : String) (i : Nat) (s : Search G) :
    Accounts s.account Search.account (A.iterate p prompt i s) :=
  iterateWith_accounts (fun _ => rollout_accounts) (fun _ _ => .pure _) s

theorem iterateStreaming_accounts (prompt : String) (i : Nat) (s : Search G) :
    Accounts s.account Search.account (A.iterateStreaming p prompt i s) :=
  .silent_bind (.emit rfl) fun _ =>
    iterateWith_accounts (rolloutStreaming_accounts i) (fun _ _ => .emit rfl) s

/-! ## The steps of the best rollout -/

/-- Every rollout has made a call. -/
def Worked (s : Search G) : Prop := ∃ steps, s.steps = 0 :: steps ∧ ∀ n ∈ steps, 0 < n

theorem Worked.start (input : OrchInput) (rng : G) : Worked (Search.start input rng) :=
  ⟨[], rfl, List.forall_mem_nil _⟩

theorem Worked.update {s : Search G} (h : Worked s) {output : OrchOutput} (hout : 0 < output.steps)
    (rng : G) (parent : Nat) (path : List Nat) (score : Rat) :
    Worked (s.update rng parent path output score) := by
  obtain ⟨steps, hsteps, hpos⟩ := h
  refine ⟨steps ++ [output.steps], ?_, ?_⟩
  · rw [Search.steps_update, hsteps, List.cons_append]
  · exact List.forall_mem_append.2 ⟨hpos, List.forall_mem_singleton.2 hout⟩

theorem rollout_steps (messages : List Message) : (A.rollout p messages).Values (0 < ·.steps) :=
  .last fun picked => Loop.run_steps (L := A.rolloutLoop p picked) A.maxStepsPerRollout.2 messages

theorem rolloutStreaming_steps (iteration branch : Nat) (messages : List Message) :
    (A.rolloutStreaming p iteration branch messages).Values (0 < ·.steps) := by
  refine .last fun picked => ?_
  have hmax : 0 < (A.rolloutLoop p picked).maxSteps := A.maxStepsPerRollout.2
  split
  · exact Loop.runStreaming_steps hmax _ _
  · refine .bind (Loop.run_steps hmax messages) fun output hout => ?_
    split
    · exact .last fun _ => .pure hout
    · exact .pure hout

theorem iterateWith_worked {prompt : String} {rollout : Nat → List Message → M W OrchOutput}
    {scored : Nat → Rat → M W Unit}
    (hr : ∀ n messages, (rollout n messages).Values (0 < ·.steps)) {s : Search G} (h : Worked s) :
    (A.iterateWith p prompt rollout scored s).Values Worked :=
  .bind (hr _ _) fun _ hout => .last fun _ => .last fun _ => .pure (h.update hout _ _ _ _)

theorem iterate_worked (prompt : String) (i : Nat) {s : Search G} (h : Worked s) :
    (A.iterate p prompt i s).Values Worked := iterateWith_worked (fun _ => rollout_steps) h

theorem iterateStreaming_worked (prompt : String) (i : Nat) {s : Search G} (h : Worked s) :
    (A.iterateStreaming p prompt i s).Values Worked :=
  .last fun _ => iterateWith_worked (rolloutStreaming_steps i) h

theorem iterations_worked {iterate : Nat → Search G → M W (Search G)}
    (hit : ∀ i s, Worked s → (iterate i s).Values Worked) (n i : Nat) {s : Search G}
    (h : Worked s) : (A.iterations iterate n i s).Values Worked := by
  induction n generalizing i s with
  | zero => exact .pure h
  | succ n ih =>
    refine .bind (hit i s h) fun s' hs' => ?_
    split
    · exact .pure hs'
    · exact ih _ hs'

/-- One of several positive numbers is not their sum. -/
theorem length_eq_one_of_sum {l : List Nat} {k : Nat} (hpos : ∀ n ∈ l, 0 < n)
    (h : l[k]? = some l.sum) : l.length = 1 := by
  cases l with
  | nil => cases h
  | cons a l =>
    obtain ⟨ha, hl⟩ := List.forall_mem_cons.1 hpos
    rw [List.sum_cons] at h
    cases k with
    | zero =>
      have hlen := List.length_le_sum_of_one_le l hl
      have hsum := Option.some.inj h
      rw [List.length_cons]
      omega
    | succ k =>
      rw [List.getElem?_cons_succ] at h
      have hle := List.le_sum_of_mem (List.mem_of_getElem? h)
      omega

/-- The output of a search counts all calls exactly if there was one rollout. -/
theorem Grown.output_counts_iff {s : Search G} {rollouts : List (String × Rat)}
    (h : A.Grown rollouts s) (hne : rollouts ≠ []) (hworked : Worked s) {l : List (Act W)}
    (haccount : s.account = tally Act.usage charge ({}, 0) l) {out : OrchOutput}
    (hout : s.output = .ok out) :
    out.Counts (l.filterMap Act.usage) ↔ rollouts.length = 1 := by
  obtain ⟨steps, hsteps, hpos⟩ := hworked
  rw [tally, foldl_charge, Usage.zero_add, Nat.zero_add, Search.account, Prod.mk.injEq, hsteps,
    List.sum_cons, Nat.zero_add] at haccount
  obtain ⟨husage, hsum⟩ := haccount
  have hlen : steps.length = rollouts.length := by
    have hsize := h.size
    rw [← List.length_map Node.rolloutSteps, ← Search.steps, hsteps, List.length_cons] at hsize
    omega
  rcases h.best with ⟨hnil, -⟩ | ⟨k, text, hleaf, hk, -⟩
  · exact absurd hnil hne
  have hlt : k < rollouts.length := (List.getElem?_eq_some_iff.1 hk).1
  rw [Search.output, hleaf] at hout
  cases hout
  have hstep : steps[k]? = some (nodeAt s.nodes (k + 1)).rolloutSteps := by
    have hnode : s.steps[k + 1]? = some (nodeAt s.nodes (k + 1)).rolloutSteps := by
      rw [Search.steps, List.getElem?_map, nodeAt,
        List.getElem?_eq_getElem (by rw [h.size]; omega)]
      rfl
    rwa [hsteps, List.getElem?_cons_succ] at hnode
  refine ⟨fun hcounts => ?_, fun hone => ⟨husage, ?_⟩⟩
  · rw [← hlen]
    refine length_eq_one_of_sum hpos (k := k) ?_
    rw [hstep, hsum]
    exact congrArg some hcounts.steps
  · obtain ⟨a, rfl⟩ := List.length_eq_one_iff.1 (hlen.trans hone)
    obtain rfl : k = 0 := by omega
    rw [List.getElem?_cons_zero, Option.some_inj] at hstep
    rw [← hsum, List.sum_singleton, hstep]

/-! ## Searches of one rollout -/

/-- The search may make no second rollout, or the first has the wanted confidence. -/
def StopsAtFirst (A : AbMcts W G) (l : List (Act W)) : Prop :=
  A.maxIterations.1 = 1 ∨ ∃ r ∈ (rolloutsOf l).head?, A.minConfidence ≤ r.2

theorem iterations_one_iff {iterate : Nat → Search G → M W (Search G)} (hit : A.Iterates iterate)
    (input : OrchInput) (rng : G) (w : W) {s : Search G}
    (hok : ((A.iterations iterate A.maxIterations 0 (.start input rng)).run w).result = .ok s) :
    (rolloutsOf ((A.iterations iterate A.maxIterations 0 (.start input rng)).run w).trace).length =
        1 ↔
      A.StopsAtFirst ((A.iterations iterate A.maxIterations 0 (.start input rng)).run w).trace := by
  obtain ⟨n, hn⟩ := StepLimit.exists_eq A.maxIterations
  unfold StopsAtFirst
  rw [hn] at hok ⊢
  unfold iterations at hok ⊢
  cases hfirst : ((iterate 0 (.start input rng)).run w).result with
  | error e =>
    rw [run_bind_error _ hfirst] at hok
    cases hok
  | ok s₁ =>
    obtain ⟨x, hx, hpos, hexp⟩ := hit _ _ _ _ hfirst
    have hgrown := (Grown.start (A := A) input rng).expand hpos hexp
    have hbest : s₁.bestScore = x.2 := by
      rcases hgrown.best with ⟨hnil, -⟩ | ⟨k, text, -, hk, -⟩
      · cases hnil
      · have hmem := List.mem_singleton.1 (List.mem_of_getElem? hk)
        exact congrArg Prod.snd hmem
    rw [run_bind_ok _ hfirst] at hok ⊢
    rw [hbest] at hok ⊢
    split at hok
    · next hconf =>
      rw [if_pos hconf, run_pure, List.append_nil, hx]
      exact ⟨fun _ => .inr ⟨x, rfl, hconf⟩, fun _ => rfl⟩
    · next hconf =>
      rw [if_neg hconf, rolloutsOf_append, hx]
      cases n with
      | zero =>
        rw [iterations, run_pure]
        exact ⟨fun _ => .inl rfl, fun _ => rfl⟩
      | succ n =>
        -- the second rollout
        unfold iterations at hok ⊢
        cases hsecond : ((iterate 1 s₁).run ((iterate 0 (.start input rng)).run w).world).result with
        | error e =>
          rw [run_bind_error _ hsecond] at hok
          cases hok
        | ok s₂ =>
          obtain ⟨y, hy, -, -⟩ := hit _ _ _ _ hsecond
          rw [run_bind_ok _ hsecond, rolloutsOf_append, hy]
          refine ⟨fun h => ?_, fun h => ?_⟩
          · simp at h
          · rcases h with h | ⟨r, hr, hle⟩
            · omega
            · cases hr
              exact absurd hle hconf

/-! ## `run` and `stream` -/

theorem iterations_counts_iff {iterate : Nat → Search G → M W (Search G)}
    (hit : A.Iterates iterate) (hacc : ∀ i s, Accounts s.account Search.account (iterate i s))
    (hworked : ∀ i s, Worked s → (iterate i s).Values Worked) (input : OrchInput) (rng : G) (w : W)
    {s : Search G} {out : OrchOutput} {l : List (Act W)}
    (hl : ((A.iterations iterate A.maxIterations 0 (.start input rng)).run w).trace = l)
    (hok : ((A.iterations iterate A.maxIterations 0 (.start input rng)).run w).result = .ok s)
    (hout : s.output = .ok out) :
    out.Counts (l.filterMap Act.usage) ↔ A.StopsAtFirst l := by
  subst hl
  obtain ⟨i, hreach⟩ := iterations_reaches_start hok
  obtain ⟨hgrown, hlen⟩ := hreach.grown hit
  have hne := List.ne_nil_of_length_eq_add_one hlen
  have haccount := iterations_accounts hacc A.maxIterations 0 (.start input rng) w s hok
  have hs := iterations_worked hworked A.maxIterations 0 (.start input rng) w s hok
  exact (hgrown.output_counts_iff hne hs haccount hout).trans (iterations_one_iff hit input rng w hok)

theorem run_counts_iff (input : OrchInput) (rng : G) (w : W) (out : OrchOutput)
    (h : ((A.run p input rng).run w).result = .ok out) :
    out.Counts (((A.run p input rng).run w).trace.filterMap Act.usage) ↔
      A.StopsAtFirst ((A.run p input rng).run w).trace := by
  unfold run at h ⊢
  cases hs : ((A.search p input rng).run w).result with
  | error e =>
    rw [run_bind_error _ hs] at h
    cases h
  | ok s =>
    rw [run_bind_ok _ hs, run_ofExcept] at h ⊢
    refine iterations_counts_iff (iterates_iterate _) (iterate_accounts _)
      (fun _ _ => iterate_worked _ _) input rng w (List.append_nil _).symm hs h

theorem iterations_acts {P : Act W → Prop} {iterate : Nat → Search G → M W (Search G)}
    (h : ∀ i s, (iterate i s).Acts P) (n i : Nat) (s : Search G) :
    (A.iterations iterate n i s).Acts P := by
  induction n generalizing i s with
  | zero => exact .pure _
  | succ n ih =>
    refine .bind (h i s) fun s' => ?_
    split
    · exact .pure _
    · exact ih _ _

/-- The search itself does not end the stream. -/
theorem searchStreaming_goesOn (input : OrchInput) (rng : G) (out : OrchOutput) :
    (A.searchStreaming p input rng).Acts (· ≠ .yielded (.final out)) := by
  have hit (i : Nat) (s : Search G) :
      (A.iterateStreaming p input.promptText i s).Acts (· ≠ .yielded (.final out)) := by
    refine .bind (.emit (by nofun)) fun _ => .bind ?_ fun _ => .bind (.call fun _ => by nofun)
      fun _ => .bind (.emit (by nofun)) fun _ => .pure _
    refine Ensures.weaken (rolloutStreaming_acts _ _ _) fun _ _ h t ht => ?_
    rintro rfl
    exact h _ ht
  exact iterations_acts hit _ _ _

/-- A `Final` event has the output of the search before it. -/
theorem final_of_mem {input : OrchInput} {rng : G} {w : W} {out : OrchOutput}
    (h : .yielded (.final out) ∈ ((A.stream p input rng).run w).trace) :
    ∃ s, ((A.searchStreaming p input rng).run w).result = .ok s ∧ s.output = .ok out ∧
      ((A.stream p input rng).run w).trace =
        ((A.searchStreaming p input rng).run w).trace ++ [.yielded (.final out)] := by
  have hgoes := searchStreaming_goesOn (A := A) (p := p) input rng out w
  unfold stream at h ⊢
  cases hs : ((A.searchStreaming p input rng).run w).result with
  | error e =>
    rw [run_bind_error _ hs] at h
    exact absurd rfl (hgoes _ h)
  | ok s =>
    rw [run_bind_ok _ hs] at h ⊢
    refine ⟨s, rfl, ?_⟩
    cases hout : s.output with
    | error e =>
      rw [hout] at h
      exact absurd rfl (hgoes _ ((List.mem_append.1 h).resolve_right List.not_mem_nil))
    | ok out' =>
      rw [hout] at h
      cases List.mem_singleton.1 ((List.mem_append.1 h).resolve_left fun h => hgoes _ h rfl)
      exact ⟨rfl, rfl⟩

theorem stream_counts_iff (input : OrchInput) (rng : G) (w : W) (out : OrchOutput)
    (h : .yielded (.final out) ∈ ((A.stream p input rng).run w).trace) :
    out.Counts (((A.stream p input rng).run w).trace.filterMap Act.usage) ↔
      A.StopsAtFirst ((A.stream p input rng).run w).trace := by
  obtain ⟨s, hs, hout, htrace⟩ := final_of_mem h
  have hcounts := iterations_counts_iff (iterates_iterateStreaming _) (iterateStreaming_accounts _)
    (fun _ _ => iterateStreaming_worked _ _) input rng w rfl hs hout
  have hrollouts : rolloutsOf ((A.stream p input rng).run w).trace =
      rolloutsOf ((A.searchStreaming p input rng).run w).trace := by
    rw [htrace, rolloutsOf_append]
    exact List.append_nil _
  unfold StopsAtFirst
  rw [hrollouts, htrace, List.filterMap_append]
  change out.Counts (_ ++ []) ↔ _
  rw [List.append_nil]
  exact hcounts

end AbMcts

end Tako.Orchestrator
