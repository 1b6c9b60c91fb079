import Mathlib.Algebra.Order.Ring.Rat
import Mathlib.Tactic.Ring
import Tako.Theory.ArenaTree
import Tako.Orchestrator.AbMcts

/-!
# The search tree of `AbMcts`

`Grown` is what holds of the tree after every iteration (`AbMcts.Reaches.grown`): it is a tree, no
node is too wide, and the Beta parameters of a node count the rollouts in its subtree and sum their
scores.
-/

namespace Tako.Orchestrator

open Traced ArenaTree

variable {W G : Type}

/-! ## Nodes after an update -/

def childrenOf (nodes : List Node) (i : Nat) : List Nat := (nodeAt nodes i).children

theorem nodeAt_modify (nodes : List Node) (f : Node → Node) {i : Nat} (hi : i < nodes.length)
    (n : Nat) :
    nodeAt (nodes.modify n f) i = if n = i then f (nodeAt nodes i) else nodeAt nodes i := by
  unfold nodeAt
  rw [List.getElem?_modify, List.getElem?_eq_getElem hi]
  split <;> rfl

theorem nodeAt_of_length_le {nodes : List Node} {i : Nat} (hi : nodes.length ≤ i) :
    nodeAt nodes i = { messages := [] } := by
  rw [nodeAt, List.getElem?_eq_none hi, Option.getD_none]

/-- A node that a score was propagated to. -/
def Node.credit (score : Rat) (node : Node) : Node :=
  { node with alpha := node.alpha + score, beta := node.beta + (1 - score) }

theorem length_backPropagate (score : Rat) (path : List Nat) (nodes : List Node) :
    (backPropagate score path nodes).length = nodes.length := by
  induction path generalizing nodes with
  | nil => rfl
  | cons n path ih => exact (ih _).trans (List.length_modify _ _ _)

theorem nodeAt_backPropagate (score : Rat) {path : List Nat} (hpath : path.Nodup)
    (nodes : List Node) {i : Nat} (hi : i < nodes.length) :
    nodeAt (backPropagate score path nodes) i =
      if i ∈ path then (nodeAt nodes i).credit score else nodeAt nodes i := by
  induction hpath generalizing nodes with
  | nil => simp [backPropagate]
  | @cons n path hn _ ih =>
    have hi' : i < (nodes.modify n (Node.credit score)).length := by rwa [List.length_modify]
    refine (ih _ hi').trans ?_
    rw [nodeAt_modify nodes _ hi]
    by_cases hin : n = i
    · subst hin
      have hnot : n ∉ path := fun h => hn n h rfl
      simp [hnot]
    · simp [hin, Ne.symm hin]

theorem length_insertLeaf (nodes : List Node) (parent : Nat) (leaf : Node) :
    (insertLeaf nodes parent leaf).length = nodes.length + 1 := by
  simp [insertLeaf]

theorem nodeAt_insertLeaf {nodes : List Node} {parent : Nat} (hparent : parent < nodes.length)
    (leaf : Node) {i : Nat} (hi : i ≤ nodes.length) :
    nodeAt (insertLeaf nodes parent leaf) i =
      if i = nodes.length then leaf
      else if i = parent then
        { nodeAt nodes i with children := (nodeAt nodes i).children ++ [nodes.length] }
      else nodeAt nodes i := by
  have hi' : i < (nodes ++ [leaf]).length := by
    rw [List.length_append, List.length_singleton]
    omega
  rw [insertLeaf, nodeAt_modify _ _ hi']
  by_cases hlen : i = nodes.length
  · rw [if_neg (by omega), if_pos hlen, hlen, nodeAt, List.getElem?_concat_length, Option.getD_some]
  · have hnode : nodeAt (nodes ++ [leaf]) i = nodeAt nodes i := by
      rw [nodeAt, List.getElem?_append_left (by omega), nodeAt]
    rw [hnode, if_neg hlen]
    by_cases hp : parent = i
    · rw [if_pos hp, if_pos hp.symm]
    · rw [if_neg hp, if_neg (Ne.symm hp)]

section Update

variable {s : Search G} {rng : G} {parent : Nat} {path : List Nat} {output : OrchOutput}
  {score : Rat}

/-- The leaf of a rollout. -/
def Search.leaf (s : Search G) (parent : Nat) (output : OrchOutput) : Node where
  messages := (nodeAt s.nodes parent).messages ++ [output.message]
  outputText := some output.text
  outputMessage := some output.message
  rolloutSteps := output.steps

theorem length_update :
    (s.update rng parent path output score).nodes.length = s.nodes.length + 1 :=
  (length_backPropagate _ _ _).trans (length_insertLeaf _ _ _)

theorem nodeAt_update_leaf (hparent : parent < s.nodes.length)
    (hpath : (path ++ [s.nodes.length]).Nodup) :
    nodeAt (s.update rng parent path output score).nodes s.nodes.length =
      (s.leaf parent output).credit score := by
  refine (nodeAt_backPropagate score hpath _ (by rw [length_insertLeaf]; omega)).trans ?_
  rw [if_pos (by simp), nodeAt_insertLeaf hparent _ le_rfl, if_pos rfl]
  rfl

/-- An old node: its children and its credit. -/
theorem nodeAt_update (hparent : parent < s.nodes.length)
    (hpath : (path ++ [s.nodes.length]).Nodup) {i : Nat} (hi : i < s.nodes.length) :
    nodeAt (s.update rng parent path output score).nodes i =
      let node := if i = parent then
          { nodeAt s.nodes i with children := (nodeAt s.nodes i).children ++ [s.nodes.length] }
        else nodeAt s.nodes i
      if i ∈ path then node.credit score else node := by
  refine (nodeAt_backPropagate score hpath _ (by rw [length_insertLeaf]; omega)).trans ?_
  rw [nodeAt_insertLeaf hparent _ hi.le, if_neg hi.ne]
  have hmem : i ∈ path ++ [s.nodes.length] ↔ i ∈ path := by
    simp [hi.ne]
  simp only [hmem]

theorem childrenOf_update (hparent : parent < s.nodes.length)
    (hpath : (path ++ [s.nodes.length]).Nodup) :
    childrenOf (s.update rng parent path output score).nodes =
      addLeaf s.nodes.length parent (childrenOf s.nodes) := by
  funext i
  unfold childrenOf addLeaf
  rcases Nat.lt_trichotomy i s.nodes.length with hi | rfl | hi
  · rw [nodeAt_update hparent hpath hi]
    by_cases hp : i = parent
    · subst hp
      rw [Function.update_self]
      dsimp only
      split <;> simp [Node.credit]
    · rw [Function.update_of_ne hp]
      dsimp only
      rw [if_neg hp]
      split <;> simp [Node.credit]
  · rw [nodeAt_update_leaf hparent hpath, Function.update_of_ne hparent.ne',
      nodeAt_of_length_le le_rfl]
    rfl
  · rw [nodeAt_of_length_le (by rw [length_update]; omega), Function.update_of_ne (by omega),
      nodeAt_of_length_le hi.le]

end Update

/-! ## Selection -/

namespace AbMcts

variable (A : AbMcts W G)

/-- The descent from `current` ends, in the result. -/
inductive Selects (nodes : List Node) : Nat → List Nat → G → Nat × List Nat × G → Prop
  | stop : A.choose nodes current g = (none, g') → Selects nodes current path g (current, path, g')
  | descend : A.choose nodes current g = (some next, g') →
    Selects nodes next (path ++ [next]) g' r → Selects nodes current path g r

variable {A} {nodes : List Node}

theorem sampleChildren_some {children : List Nat} {best : Option (Nat × Rat)} {g : G}
    (h : (A.sampleChildren nodes children best g).1 = some (c, x)) :
    c ∈ children ∨ ∃ x', best = some (c, x') := by
  induction children generalizing best g with
  | nil => exact .inr ⟨x, h⟩
  | cons c' children ih =>
    rcases ih h with hc | ⟨x', hbest⟩
    · exact .inl (List.mem_cons_of_mem _ hc)
    · cases best with
      | none =>
        cases hbest
        exact .inl List.mem_cons_self
      | some b =>
        simp only [keepBest] at hbest
        split at hbest
        · cases hbest
          exact .inl List.mem_cons_self
        · cases hbest
          exact .inr ⟨_, rfl⟩

theorem sampleChildren_none {children : List Nat} {best : Option (Nat × Rat)} {g : G}
    (h : (A.sampleChildren nodes children best g).1 = none) : children = [] ∧ best = none := by
  induction children generalizing best g with
  | nil => exact ⟨rfl, h⟩
  | cons c children ih =>
    obtain ⟨-, hbest⟩ := ih h
    cases best with
    | none => cases hbest
    | some b =>
      simp only [keepBest] at hbest
      split at hbest <;> cases hbest

theorem mem_of_choose (h : A.choose nodes current g = (some next, g')) :
    next ∈ childrenOf nodes current := by
  unfold choose at h
  simp only [Prod.mk.injEq] at h
  obtain ⟨h, -⟩ := h
  split at h
  · cases h
  · obtain ⟨⟨c, x⟩, hbest, rfl⟩ := Option.map_eq_some_iff.1 h
    rcases sampleChildren_some hbest with hc | ⟨x', hx'⟩
    · exact hc
    · cases hx'

/-- Where the descent stops, there is room for one more child. -/
theorem width_of_choose (h : A.choose nodes current g = (none, g'))
    (hw : (childrenOf nodes current).length ≤ max 1 A.branchingFactor.toNat) :
    (childrenOf nodes current).length + 1 ≤ max 1 A.branchingFactor.toNat := by
  unfold choose at h
  simp only [Prod.mk.injEq] at h
  obtain ⟨h, -⟩ := h
  generalize hbest : (A.sampleChildren nodes (nodeAt nodes current).children none
    (A.sampleBeta 1 1 g).2).1 = best at h
  cases best with
  | none =>
    have hnil : childrenOf nodes current = [] := (sampleChildren_none hbest).1
    rw [hnil]
    exact le_max_left _ _
  | some b =>
    split at h
    · next hexpand =>
      simp only [shouldExpand, Bool.and_eq_true, decide_eq_true_eq] at hexpand
      have hlt := A.branchingFactor.toNat_lt
      -- the width is far below the `u32` range, so the cast does not wrap
      have hsmall : (childrenOf nodes current).length < 2 ^ 32 := by omega
      have hroom : (childrenOf nodes current).length < A.branchingFactor.toNat := by
        have hlt' := UInt32.lt_iff_toNat_lt.1 hexpand.1
        rw [Nat.toUInt32_eq] at hlt'
        exact (UInt32.toNat_ofNat_of_lt' hsmall).symm.trans_lt hlt'
      omega
    · cases h

theorem select_selects (h : Tree nodes.length (childrenOf nodes)) {current fuel : Nat}
    (hc : current < nodes.length) (hf : nodes.length ≤ current + fuel) (path : List Nat) (g : G) :
    A.Selects nodes current path g (A.select nodes fuel current path g) := by
  induction fuel generalizing current path g with
  | zero => omega
  | succ fuel ih =>
    unfold select
    split
    · next hchoose => exact .stop hchoose
    · next hchoose =>
      have := h.lt current _ (mem_of_choose hchoose)
      exact .descend hchoose (ih this.2 (by omega) _ _)

theorem Selects.isPath {path : List Nat} (h : A.Selects nodes current path g r)
    (hp : Path (childrenOf nodes) path current) : Path (childrenOf nodes) r.2.1 r.1 := by
  induction h with
  | stop => exact hp
  | descend hchoose _ ih => exact ih (hp.push (mem_of_choose hchoose))

theorem Selects.stopped (h : A.Selects nodes current path g r) :
    ∃ g', A.choose nodes r.1 g' = (none, r.2.2) := by
  induction h with
  | stop hchoose => exact ⟨_, hchoose⟩
  | descend _ _ ih => exact ih

end AbMcts

/-! ## Rollouts -/

/-- A rollout as its verification shows it: its text and its clamped score. -/
def Act.rollout : Act W → Option (String × Rat)
  | .score _ output (.ok r) => some (output, clampUnit r)
  | _ => none

/-- What a rollout may do: it verifies nothing and does not end the stream. -/
def Act.InRollout : Act W → Prop
  | .score _ _ _ | .yielded (.final _) => False
  | _ => True

theorem Act.InRollout.rollout_eq_none {t : Act W} (h : t.InRollout) : t.rollout = none := by
  cases t with
  | score => exact h.elim
  | _ => rfl

/-- The rollouts of a search, in order. -/
def rolloutsOf (trace : List (Act W)) : List (String × Rat) := trace.filterMap Act.rollout

/-- The score of the rollout that added node `j`. -/
def scoreOf (rollouts : List (String × Rat)) (j : Nat) : Rat :=
  ((rollouts[j - 1]?).map (·.2)).getD 0

theorem rolloutsOf_append (l l' : List (Act W)) :
    rolloutsOf (l ++ l') = rolloutsOf l ++ rolloutsOf l' :=
  List.filterMap_append

theorem rolloutsOf_eq_nil {trace : List (Act W)} (h : ∀ t ∈ trace, t.rollout = none) :
    rolloutsOf trace = [] :=
  List.filterMap_eq_nil_iff.2 h

theorem clampUnit_nonneg (x : Rat) : 0 ≤ clampUnit x := by
  unfold clampUnit
  split
  · exact le_rfl
  · next h =>
    split
    · decide
    · exact not_lt.1 h

theorem scoreOf_append (hj : 0 < j) (hlt : j < rollouts.length + 1) :
    scoreOf (rollouts ++ [r]) j = scoreOf rollouts j := by
  rw [scoreOf, List.getElem?_append_left (by omega), scoreOf]

theorem scoreOf_last : scoreOf (rollouts ++ [r]) (rollouts.length + 1) = r.2 := by
  rw [scoreOf, Nat.add_sub_cancel, List.getElem?_concat_length]
  rfl

namespace AbMcts

variable {A : AbMcts W G} {p : Principal}

theorem pickRolloutProvider_acts {P : Act W → Prop} (hroute : ∀ req cs r, P (.route req cs r))
    (messages : List Message) : (A.pickRolloutProvider p messages).Acts P := by
  unfold pickRolloutProvider
  split
  · exact .pure _
  · refine .bind (.call fun _ => hroute _ _ _) fun decision => ?_
    split
    · exact .pure _
    · exact .throw _

/-- An agent loop verifies nothing. -/
theorem rolloutLoop_acts (picked : LlmProvider W) :
    (A.rolloutLoop p picked).Acts Act.InRollout where
  pick _ := .pure _
  preCheck _ _ _ := trivial
  chat _ _ _ := trivial
  stream _ _ _ := trivial
  next _ := trivial
  record _ _ _ := trivial
  evaluate _ _ _ _ _ := trivial
  invoke _ _ _ := trivial

/-- A streamed rollout asks the verifier's hook, and yields texts and scores. -/
theorem rolloutHooks_acts {P : Act W → Prop} {iteration branch : Nat}
    (hcall : ∀ text r, P (.evaluateStreaming text r))
    (htext : ∀ delta, P (.yielded (.assistantText iteration delta)))
    (hscore : ∀ score, P (.yielded (.verifierScore iteration branch score))) :
    (A.rolloutHooks p iteration branch).Acts P where
  turnStart _ := .pure _
  onText _ _ cumulative delta _ := by
    refine .bind (.emit (htext _)) fun _ => .bind (.call fun _ => hcall _ _) fun score => ?_
    cases score with
    | none => exact .pure _
    | some score => exact .bind (.emit (hscore _)) fun _ => .pure _
  onChat _ _ _ _ := .bind (.emit (htext _)) fun _ => .pure _
  onTurn _ _ _ := .pure _
  toolEvent _ := .pure _

theorem rollout_acts (messages : List Message) : (A.rollout p messages).Acts Act.InRollout :=
  .bind (pickRolloutProvider_acts (fun _ _ _ => trivial) _) fun picked =>
    Loop.run_acts (rolloutLoop_acts picked) _

theorem rolloutStreaming_acts (iteration branch : Nat) (messages : List Message) :
    (A.rolloutStreaming p iteration branch messages).Acts Act.InRollout := by
  refine .bind (pickRolloutProvider_acts (fun _ _ _ => trivial) _) fun picked => ?_
  split
  · exact Loop.runStreaming_acts (rolloutLoop_acts picked)
      (rolloutHooks_acts (fun _ _ => trivial) (fun _ => trivial) fun _ => trivial) _ _
  · refine .bind (Loop.run_acts (rolloutLoop_acts picked) _) fun output => ?_
    split
    · exact .bind (.emit trivial) fun _ => .pure _
    · exact .pure _

/-- One more rollout from where the descent ends. -/
def Expands (A : AbMcts W G) (r : String × Rat) (s s' : Search G) : Prop :=
  ∃ output : OrchOutput, output.text = r.1 ∧
    s' = s.update (A.descend s).2.2 (A.descend s).1 (A.descend s).2.1 output r.2

/-- An iteration that succeeds leaves one rollout in the trace and in the tree. -/
def Iterates (A : AbMcts W G) (iterate : Nat → Search G → M W (Search G)) : Prop :=
  ∀ i s, (iterate i s).Ensures fun r l =>
    ∀ s', r = .ok s' → ∃ x, rolloutsOf l = [x] ∧ 0 ≤ x.2 ∧ A.Expands x s s'

theorem iterateWith_expands {prompt : String} {rollout : Nat → List Message → M W OrchOutput}
    {scored : Nat → Rat → M W Unit}
    (hr : ∀ n messages, (rollout n messages).Acts Act.InRollout)
    (hs : ∀ n x, (scored n x).Acts (·.rollout = none)) (s : Search G) :
    (A.iterateWith p prompt rollout scored s).Ensures fun r l =>
      ∀ s', r = .ok s' → ∃ x, rolloutsOf l = [x] ∧ 0 ≤ x.2 ∧ A.Expands x s s' := by
  refine .bind (hr _ _) (fun _ _ _ _ h => by cases h) fun output l hl => ?_
  refine .bind (Q := fun r l => ∀ x, r = .ok x → rolloutsOf l = [(output.text, clampUnit x)])
    (.call fun w x hx => ?_) (fun _ _ _ _ h => by cases h) fun x l' hl' => ?_
  · simp [rolloutsOf, Act.rollout, hx]
  · refine .bind (hs _ _) (fun _ _ _ _ h => by cases h) fun _ l'' hl'' => .pure ?_
    intro s' hs'
    cases hs'
    refine ⟨(output.text, clampUnit x), ?_, clampUnit_nonneg x, output, rfl, rfl⟩
    rw [List.append_nil, rolloutsOf_append, rolloutsOf_append,
      rolloutsOf_eq_nil fun t ht => (hl t ht).rollout_eq_none, hl' x rfl, rolloutsOf_eq_nil hl'']
    rfl

theorem iterates_iterate (prompt : String) : A.Iterates (A.iterate p prompt) :=
  fun _ => iterateWith_expands (fun _ => rollout_acts) fun _ _ => .pure _

theorem iterates_iterateStreaming (prompt : String) :
    A.Iterates (A.iterateStreaming p prompt) := by
  intro i s
  refine .bind (Q := fun _ l => rolloutsOf l = []) (.emit rfl) (fun _ _ _ _ h => by cases h) ?_
  intro _ l hl
  refine (iterateWith_expands (rolloutStreaming_acts i) (fun _ _ => .emit rfl) s).weaken ?_
  intro r l' h s' hs'
  obtain ⟨x, hx, hpos, hs⟩ := h s' hs'
  exact ⟨x, by rw [rolloutsOf_append, hl, hx, List.nil_append], hpos, hs⟩

/-! ## The invariant -/

/-- What holds of the tree after the rollouts. The best leaf is that of the first rollout with the
best score. -/
structure Grown (A : AbMcts W G) (rollouts : List (String × Rat)) (s : Search G) : Prop where
  size : s.nodes.length = rollouts.length + 1
  tree : Tree s.nodes.length (childrenOf s.nodes)
  width : ∀ i, (childrenOf s.nodes i).length ≤ max 1 A.branchingFactor.toNat
  count : Tally s.nodes.length (childrenOf s.nodes) (fun _ => (1 : Rat))
    fun i => (nodeAt s.nodes i).alpha + (nodeAt s.nodes i).beta - 2
  sum : Tally s.nodes.length (childrenOf s.nodes) (scoreOf rollouts)
    fun i => (nodeAt s.nodes i).alpha - 1
  text : ∀ k, (nodeAt s.nodes (k + 1)).outputText = rollouts[k]?.map (·.1)
  best : rollouts = [] ∧ s.bestScore = -1 ∨ ∃ k text, s.bestLeaf = some (k + 1) ∧
    rollouts[k]? = some (text, s.bestScore) ∧ ∀ r ∈ rollouts, r.2 ≤ s.bestScore

theorem childrenOf_start (input : OrchInput) (rng : G) :
    childrenOf (Search.start input rng).nodes = fun _ => [] := by
  funext i
  cases i <;> rfl

theorem Grown.start (input : OrchInput) (rng : G) : A.Grown [] (.start input rng) where
  size := rfl
  tree := by
    rw [childrenOf_start]
    exact Tree.root
  width i := by
    rw [childrenOf_start]
    exact Nat.zero_le _
  count := by
    rw [childrenOf_start]
    refine .root _ _ ?_
    change (1 : Rat) + 1 - 2 = 0
    decide +kernel
  sum := by
    rw [childrenOf_start]
    refine .root _ _ ?_
    change (1 : Rat) - 1 = 0
    decide +kernel
  text k := rfl
  best := .inl ⟨rfl, rfl⟩

section Update

variable {s : Search G} {rng : G} {parent : Nat} {path : List Nat} {output : OrchOutput}
  {score : Rat}

/-- A quantity that starts at 0, does not depend on a node's children and grows with each credit is
summed up over the subtrees. -/
theorem tally_update (htree : Tree s.nodes.length (childrenOf s.nodes))
    (hpath : Path (childrenOf s.nodes) path parent) {value value' : Nat → Rat} {f : Node → Rat}
    (hcredit : ∀ node, f (node.credit score) = f node + value' s.nodes.length)
    (hchildren : ∀ node children, f { node with children } = f node)
    (hleaf : f (s.leaf parent output) = 0)
    (hvalue : ∀ j, 0 < j → j < s.nodes.length → value' j = value j)
    (ht : Tally s.nodes.length (childrenOf s.nodes) value fun i => f (nodeAt s.nodes i)) :
    Tally (s.update rng parent path output score).nodes.length
      (childrenOf (s.update rng parent path output score).nodes) value'
      fun i => f (nodeAt (s.update rng parent path output score).nodes i) := by
  have hparent := hpath.lt htree
  have hnodup := hpath.nodup_concat htree
  have hold : ∀ i < s.nodes.length, f (nodeAt (s.update rng parent path output score).nodes i) =
      if i ∈ path then f (nodeAt s.nodes i) + value' s.nodes.length else f (nodeAt s.nodes i) := by
    intro i hi
    rw [nodeAt_update hparent hnodup hi]
    dsimp only
    split <;> split <;> simp only [hcredit, hchildren]
  rw [childrenOf_update hparent hnodup, length_update]
  refine ht.addLeaf htree hparent hvalue ?_ (fun i hi hb => ?_) (fun i hi hb => ?_)
  · rw [nodeAt_update_leaf hparent hnodup, hcredit, hleaf, zero_add]
  · rw [hold i hi, if_pos ((hpath.mem_iff htree).2 hb)]
  · rw [hold i hi, if_neg (mt (hpath.mem_iff htree).1 hb)]

/-- What neither children nor credit change is the leaf's at the leaf, and as before elsewhere. -/
theorem project_update {β : Type} (f : Node → β) (hcredit : ∀ node, f (node.credit score) = f node)
    (hchildren : ∀ node children, f { node with children } = f node)
    (hparent : parent < s.nodes.length) (hpath : (path ++ [s.nodes.length]).Nodup) (i : Nat) :
    f (nodeAt (s.update rng parent path output score).nodes i) =
      if i = s.nodes.length then f (s.leaf parent output) else f (nodeAt s.nodes i) := by
  rcases Nat.lt_trichotomy i s.nodes.length with hi | rfl | hi
  · rw [nodeAt_update hparent hpath hi, if_neg hi.ne]
    dsimp only
    split <;> split <;> simp only [hcredit, hchildren]
  · rw [nodeAt_update_leaf hparent hpath, if_pos rfl, hcredit]
  · rw [nodeAt_of_length_le (by rw [length_update]; omega), if_neg (by omega),
      nodeAt_of_length_le hi.le]

end Update

/-- The best leaf after one more rollout. -/
theorem Grown.best_update (h : A.Grown rollouts s) (hr : 0 ≤ r.2) :
    ∃ k text, (s.update rng parent path output r.2).bestLeaf = some (k + 1) ∧
      (rollouts ++ [r])[k]? = some (text, (s.update rng parent path output r.2).bestScore) ∧
      ∀ x ∈ rollouts ++ [r], x.2 ≤ (s.update rng parent path output r.2).bestScore := by
  unfold Search.update
  dsimp only
  rcases lt_or_ge s.bestScore r.2 with hlt | hge
  · rw [if_pos hlt, if_pos hlt, h.size]
    refine ⟨rollouts.length, r.1, rfl, List.getElem?_concat_length, fun x hx => ?_⟩
    rcases List.mem_append.1 hx with hx | hx
    · rcases h.best with ⟨rfl, -⟩ | ⟨-, -, -, -, hmax⟩
      · cases hx
      · exact (hmax x hx).trans hlt.le
    · exact (congrArg Prod.snd (List.mem_singleton.1 hx)).le
  · rw [if_neg (not_lt.2 hge), if_neg (not_lt.2 hge)]
    rcases h.best with ⟨-, hbest⟩ | ⟨k, text, hleaf, hk, hmax⟩
    · have hneg : (-1 : Rat) < 0 := by decide +kernel
      exact absurd (hr.trans hge) (not_le.2 (hbest ▸ hneg))
    · obtain ⟨hlt, -⟩ := List.getElem?_eq_some_iff.1 hk
      refine ⟨k, text, hleaf, by rw [List.getElem?_append_left hlt, hk], fun x hx => ?_⟩
      rcases List.mem_append.1 hx with hx | hx
      · exact hmax x hx
      · exact (congrArg Prod.snd (List.mem_singleton.1 hx)).le.trans hge

theorem Grown.selects (h : A.Grown rollouts s) :
    A.Selects s.nodes 0 [0] s.rng (A.descend s) :=
  select_selects h.tree h.tree.pos (Nat.le_add_left _ _) _ _

theorem Grown.expand (h : A.Grown rollouts s) (hr : 0 ≤ r.2) (he : A.Expands r s s') :
    A.Grown (rollouts ++ [r]) s' := by
  obtain ⟨output, hout, rfl⟩ := he
  obtain ⟨g, hstop⟩ := h.selects.stopped
  have hpath := h.selects.isPath .root
  generalize A.descend s = d at *
  obtain ⟨parent, path, rng⟩ := d
  dsimp only at hstop hpath ⊢
  have hparent := hpath.lt h.tree
  have hnodup := hpath.nodup_concat h.tree
  have hvalue : ∀ j, 0 < j → j < s.nodes.length →
      scoreOf (rollouts ++ [r]) j = scoreOf rollouts j :=
    fun j h0 hj => scoreOf_append h0 (h.size ▸ hj)
  have hlast : scoreOf (rollouts ++ [r]) s.nodes.length = r.2 := by
    rw [h.size, scoreOf_last]
  refine ⟨?_, ?_, fun i => ?_, ?_, ?_, fun k => ?_, ?_⟩
  · rw [length_update, h.size, List.length_append, List.length_singleton]
  · rw [length_update, childrenOf_update hparent hnodup]
    exact h.tree.addLeaf hparent
  · rw [childrenOf_update hparent hnodup, addLeaf]
    by_cases hi : i = parent
    · subst hi
      rw [Function.update_self, List.length_append, List.length_singleton]
      exact width_of_choose hstop (h.width i)
    · rw [Function.update_of_ne hi]
      exact h.width i
  · refine tally_update (f := fun node => node.alpha + node.beta - 2) h.tree hpath
      (fun node => ?_) (fun _ _ => rfl) ?_ (fun _ _ _ => rfl) h.count
    · simp only [Node.credit]
      ring
    · change (1 : Rat) + 1 - 2 = 0
      decide +kernel
  · refine tally_update (f := fun node => node.alpha - 1) h.tree hpath
      (fun node => ?_) (fun _ _ => rfl) ?_ hvalue h.sum
    · simp only [Node.credit, hlast]
      ring
    · change (1 : Rat) - 1 = 0
      decide +kernel
  · rw [project_update (·.outputText) (fun _ => rfl) (fun _ _ => rfl) hparent hnodup, h.text,
      h.size]
    rcases Nat.lt_trichotomy k rollouts.length with hk | rfl | hk
    · rw [if_neg (by omega), List.getElem?_append_left hk]
    · rw [if_pos rfl, List.getElem?_concat_length, Option.map_some, ← hout]
      rfl
    · rw [if_neg (by omega), List.getElem?_eq_none hk.le, List.getElem?_eq_none]
      simpa using Nat.succ_le_of_lt hk
  · exact .inr (h.best_update hr)

/-! ## The states of a search -/

/-- There is an iteration after the first `i`. -/
def GoesOn (A : AbMcts W G) (i : Nat) (s : Search G) : Prop :=
  i < A.maxIterations ∧ (i = 0 ∨ s.bestScore < A.minConfidence)

/-- The search from `s₀` in the world `w₀` comes to `s` after `i` iterations, with a world and a
trace. -/
inductive Reaches (A : AbMcts W G) (iterate : Nat → Search G → M W (Search G)) (s₀ : Search G)
    (w₀ : W) : Nat → Search G → W → List (Act W) → Prop
  | start : Reaches A iterate s₀ w₀ 0 s₀ w₀ []
  | step : Reaches A iterate s₀ w₀ i s w l → A.GoesOn i s →
    ((iterate i s).run w).result = .ok s' →
    Reaches A iterate s₀ w₀ (i + 1) s' ((iterate i s).run w).world
      (l ++ ((iterate i s).run w).trace)

variable {iterate : Nat → Search G → M W (Search G)}

theorem Reaches.grown (h : A.Reaches iterate (.start input rng) w₀ i s w l)
    (hit : A.Iterates iterate) :
    A.Grown (rolloutsOf l) s ∧ (rolloutsOf l).length = i := by
  induction h with
  | start => exact ⟨.start input rng, rfl⟩
  | step _ _ hok ih =>
    obtain ⟨x, hx, hpos, hexp⟩ := hit _ _ _ _ hok
    obtain ⟨hgrown, hlen⟩ := ih
    rw [rolloutsOf_append, hx]
    exact ⟨hgrown.expand hpos hexp, by rw [List.length_append, hlen, List.length_singleton]⟩

/-- A search that succeeds has come to its result. -/
theorem iterations_reaches (h : A.Reaches iterate s₀ w₀ i s w l) (hi : i + n = A.maxIterations)
    (hc : i = 0 ∨ s.bestScore < A.minConfidence)
    (hok : ((A.iterations iterate n i s).run w).result = .ok s') :
    ∃ i', i ≤ i' ∧ (0 < n → i < i') ∧
      A.Reaches iterate s₀ w₀ i' s' ((A.iterations iterate n i s).run w).world
        (l ++ ((A.iterations iterate n i s).run w).trace) := by
  induction n generalizing i s w l with
  | zero =>
    cases hok
    exact ⟨i, le_rfl, fun h0 => absurd h0 (lt_irrefl 0), by simpa [iterations, run_pure] using h⟩
  | succ n ih =>
    unfold iterations at hok ⊢
    cases hit : ((iterate i s).run w).result with
    | error e =>
      rw [run_bind_error _ hit] at hok
      cases hok
    | ok s₁ =>
      have hstep := h.step ⟨by omega, hc⟩ hit
      rw [run_bind_ok _ hit] at hok ⊢
      split at hok
      · next hconf =>
        cases hok
        rw [if_pos hconf]
        exact ⟨i + 1, by omega, fun _ => by omega, by simpa [run_pure] using hstep⟩
      · next hconf =>
        rw [if_neg hconf]
        obtain ⟨i', hle, -, hreach⟩ := ih hstep (by omega) (.inr (not_le.1 hconf)) hok
        exact ⟨i', by omega, fun _ => by omega, by rwa [List.append_assoc] at hreach⟩

/-- What a search leaves in its trace goes on from any state that it comes to. -/
theorem Reaches.trace_eq (h : A.Reaches iterate s₀ w₀ i s w l) (hon : A.GoesOn i s) :
    ((A.iterations iterate A.maxIterations 0 s₀).run w₀).trace =
      l ++ ((A.iterations iterate (A.maxIterations - i) i s).run w).trace := by
  induction h with
  | start => rfl
  | @step i s w l s' hreach hi hok ih =>
    obtain ⟨hlt, hconf⟩ := hon
    rw [ih hi, show A.maxIterations.1 - i = A.maxIterations - (i + 1) + 1 by omega, iterations,
      run_bind_ok _ hok, if_neg (not_le.2 (hconf.resolve_left (Nat.succ_ne_zero i))),
      List.append_assoc]

theorem Reaches.mem_trace (h : A.Reaches iterate s₀ w₀ i s w l) (hon : A.GoesOn i s)
    (ht : t ∈ ((iterate i s).run w).trace) :
    t ∈ ((A.iterations iterate A.maxIterations 0 s₀).run w₀).trace := by
  have hlt := hon.1
  rw [h.trace_eq hon, show A.maxIterations.1 - i = A.maxIterations - (i + 1) + 1 by omega,
    iterations]
  exact List.mem_append_right _ (mem_trace_bind _ ht)

/-- What a search has built after `i` rollouts. -/
structure Sound (A : AbMcts W G) (i : Nat) (rollouts : List (String × Rat)) (s : Search G) :
    Prop where
  length : rollouts.length = i
  size : s.nodes.length = i + 1
  tree : Tree s.nodes.length (childrenOf s.nodes)
  width : ∀ j, (childrenOf s.nodes j).length ≤ max 1 A.branchingFactor.toNat
  count : ∀ j < s.nodes.length, (nodeAt s.nodes j).alpha + (nodeAt s.nodes j).beta =
    2 + (subtree s.nodes.length (childrenOf s.nodes) j).card
  sum : ∀ j < s.nodes.length, (nodeAt s.nodes j).alpha =
    1 + ∑ k ∈ subtree s.nodes.length (childrenOf s.nodes) j, scoreOf rollouts k
  descends : A.Selects s.nodes 0 [0] s.rng (A.descend s)
  best : 0 < i → ∃ k out, s.bestLeaf = some (k + 1) ∧ s.output = .ok out ∧
    rollouts[k]? = some (out.text, s.bestScore) ∧ ∀ r ∈ rollouts, r.2 ≤ s.bestScore

theorem Grown.sound (h : A.Grown rollouts s) (hlen : rollouts.length = i) :
    A.Sound i rollouts s where
  length := hlen
  size := hlen ▸ h.size
  tree := h.tree
  width := h.width
  count j hj := by
    have hcount := h.count j hj
    rw [Finset.sum_const, nsmul_eq_mul, mul_one] at hcount
    rw [← hcount]
    ring
  sum j hj := by
    rw [← h.sum j hj]
    ring
  descends := h.selects
  best hi := by
    rcases h.best with ⟨rfl, -⟩ | ⟨k, text, hleaf, hk, hmax⟩
    · exact absurd hlen hi.ne
    · have htext := h.text k
      rw [hk, Option.map_some] at htext
      refine ⟨k, _, hleaf, by rw [Search.output, hleaf], ?_, hmax⟩
      rw [hk, htext, Option.getD_some]

/-- The whole search, from its start. -/
theorem iterations_reaches_start
    (hok : ((A.iterations iterate A.maxIterations 0 s₀).run w).result = .ok s) :
    ∃ i, A.Reaches iterate s₀ w (i + 1) s ((A.iterations iterate A.maxIterations 0 s₀).run w).world
      ((A.iterations iterate A.maxIterations 0 s₀).run w).trace := by
  obtain ⟨i, -, hpos, hreach⟩ := iterations_reaches .start (Nat.zero_add _) (.inl rfl) hok
  obtain ⟨i, rfl⟩ := Nat.exists_eq_add_one.2 (hpos A.maxIterations.2)
  exact ⟨i, hreach⟩

/-- Every search builds a sound tree, and `run` and `stream` end with the best leaf of one. -/
theorem search_tree_sound (A : AbMcts W G) (p : Principal) (input : OrchInput) (rng : G) (w : W) :
    (∀ i s w' l, A.Reaches (A.iterate p input.promptText) (.start input rng) w i s w' l →
      A.Sound i (rolloutsOf l) s) ∧
    (∀ i s w' l, A.Reaches (A.iterateStreaming p input.promptText) (.start input rng) w i s w' l →
      A.Sound i (rolloutsOf l) s) ∧
    (∀ out, ((A.run p input rng).run w).result = .ok out →
      ∃ i s w' l, A.Reaches (A.iterate p input.promptText) (.start input rng) w (i + 1) s w' l ∧
        s.output = .ok out) ∧
    (((A.stream p input rng).run w).result = .ok () →
      ∃ i s w' l out,
        A.Reaches (A.iterateStreaming p input.promptText) (.start input rng) w (i + 1) s w' l ∧
        s.output = .ok out ∧
        ((A.stream p input rng).run w).trace = l ++ [.yielded (.final out)]) := by
  refine ⟨fun i s w' l h => ?_, fun i s w' l h => ?_, fun out hout => ?_, fun hout => ?_⟩
  · obtain ⟨hgrown, hlen⟩ := h.grown (iterates_iterate _)
    exact hgrown.sound hlen
  · obtain ⟨hgrown, hlen⟩ := h.grown (iterates_iterateStreaming _)
    exact hgrown.sound hlen
  · unfold run at hout
    cases hs : ((A.search p input rng).run w).result with
    | error e =>
      rw [run_bind_error _ hs] at hout
      cases hout
    | ok s =>
      obtain ⟨i, hreach⟩ := iterations_reaches_start hs
      rw [run_bind_ok _ hs, run_ofExcept] at hout
      exact ⟨i, s, _, _, hreach, hout⟩
  · unfold stream at hout ⊢
    cases hs : ((A.searchStreaming p input rng).run w).result with
    | error e =>
      rw [run_bind_error _ hs] at hout
      cases hout
    | ok s =>
      obtain ⟨i, hreach⟩ := iterations_reaches_start hs
      rw [run_bind_ok _ hs] at hout ⊢
      cases hs' : s.output with
      | error e =>
        rw [hs'] at hout
        cases hout
      | ok out =>
        exact ⟨i, s, _, _, out, hreach, hs', rfl⟩

end AbMcts

end Tako.Orchestrator
