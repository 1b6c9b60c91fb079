import Tako.Orchestrator.SelfCaller.Basic

/-!
# How deep `SelfCaller`s recurse

Each `SelfCaller` of a nest adds its own iterations to the depth that it finds, and makes them for
each iteration of the one that wraps it. So the innermost orchestrator is run as often as the
product of all their bounds, at a depth up to their sum. It is kept to the largest `max_depth` if
and only if at most one `SelfCaller` has any (`SelfCaller.keepsToMaxDepth_iff`).
-/

namespace Tako.Orchestrator

open Generator

variable {W τ : Type}

/-! ## The depth in the metadata -/

theorem saturatingAdd_lt (m n : Nat) : saturatingAdd m n < 256 := by
  unfold saturatingAdd
  omega

theorem readDepth_lt (p : Principal) : readDepth p < 256 := by
  unfold readDepth
  cases h : (p.metadata.lookup depthKey).bind Num.parseU8 with
  | none => exact (by decide : 0 < 256)
  | some n =>
    obtain ⟨s, -, hs⟩ := Option.bind_eq_some_iff.1 h
    exact Num.parseU8_lt hs

theorem readDepth_bumped (p : Principal) (h : depth < 256) :
    readDepth (bumpedPrincipal p depth) = depth := by
  rw [readDepth, bumpedPrincipal]
  dsimp only
  rw [SortedMap.lookup_upsert_self, Option.bind_some, Num.parseU8_repr h, Option.getD_some]

/-! ## Nests -/

namespace SelfCallerBuilder

def build (b : SelfCallerBuilder W) (inner : Orchestrator W (SelfCaller.Act τ)) : SelfCaller W τ :=
  { b with inner }

/-- `SelfCaller`s, each wrapped by the one before it. -/
def nest : List (SelfCallerBuilder W) → Orchestrator W (SelfCaller.Act τ) →
    Orchestrator W (SelfCaller.Act τ)
  | [], O => O
  | b :: bs, O => (b.build (nest bs O)).toOrchestrator

end SelfCallerBuilder

namespace SelfCaller

open SelfCallerBuilder (nest)

/-- A call of the orchestrator that is wrapped by `k` and one `SelfCaller`s. -/
def innermost : Nat → Act τ → Option Principal
  | 0, .inner p _ => some p
  | k + 1, .within a => innermost k a
  | _, _ => none

/-- How often the innermost orchestrator can be run. -/
def totalRuns : List UInt8 → Nat
  | [] => 1
  | m :: ms => (m.toNat + 1) * totalRuns ms

def totalDepth : List UInt8 → Nat
  | [] => 0
  | m :: ms => m.toNat + totalDepth ms

def largestDepth : List UInt8 → Nat
  | [] => 0
  | m :: ms => max m.toNat (largestDepth ms)

/-- A call, at a depth up to `n`. -/
def UpToDepth (k n : Nat) (a : Act τ) : Prop := ∀ p, innermost k a = some p → readDepth p ≤ n

/-- However its guards answer, `x` calls the innermost orchestrator at most `runs` times, and at a
depth up to `depth`. -/
structure Bounded (k runs depth : Nat) (x : Generator W (Act τ) TakoError ι α) : Prop where
  spends : x.Spends (innermost k) runs
  acts : x.Acts (UpToDepth k depth)

namespace Bounded

variable {x : Generator W (Act τ) TakoError ι α} {k runs depth : Nat}

theorem mono (h : Bounded k runs depth x) (hruns : runs ≤ runs') (hdepth : depth ≤ depth') :
    Bounded k runs' depth' x :=
  ⟨h.spends.mono hruns, h.acts.weaken fun _ ha p hp => Nat.le_trans (ha p hp) hdepth⟩

theorem bind {f : α → Generator W (Act τ) TakoError ι β} (hx : Bounded k runs depth x)
    (hf : ∀ a, Bounded k runs' depth (f a)) : Bounded k (runs + runs') depth (x >>= f) :=
  ⟨hx.spends.bind fun a => (hf a).spends, hx.acts.bind fun a => (hf a).acts⟩

theorem of_acts (h : x.Acts fun a => innermost k a = none) : Bounded k 0 depth x :=
  ⟨.of_acts h 0, h.weaken fun _ ha _ hp => nomatch ha.symm.trans hp⟩

theorem free_bind {f : α → Generator W (Act τ) TakoError ι β}
    (hx : x.Acts fun a => innermost k a = none) (hf : ∀ a, Bounded k runs depth (f a)) :
    Bounded k runs depth (x >>= f) := by
  rw [← Nat.zero_add runs]
  exact (of_acts hx).bind hf

/-- An action, and what is left for the rest. -/
theorem act_iff {step : W → Act τ × W} {rest : W → Generator W (Act τ) TakoError ι α} :
    Bounded k runs depth (.act step rest) ↔ ∀ w, UpToDepth k depth (step w).1 ∧
      if (innermost k (step w).1).isSome then 0 < runs ∧ Bounded k (runs - 1) depth (rest w)
      else Bounded k runs depth (rest w) := by
  refine ⟨fun h w => ⟨(h.acts w).1, ?_⟩, fun h => ⟨fun w => ?_, fun w => ⟨(h w).1, ?_⟩⟩⟩
  · have hw := h.spends w
    split at hw
    · next hsome => exact (if_pos hsome).symm ▸ ⟨hw.1, hw.2, (h.acts w).2⟩
    · next hnone => exact (if_neg hnone).symm ▸ ⟨hw, (h.acts w).2⟩
  · have hw := (h w).2
    split at hw
    · next hsome => exact (if_pos hsome).symm ▸ ⟨hw.1, hw.2.spends⟩
    · next hnone => exact (if_neg hnone).symm ▸ hw.spends
  · have hw := (h w).2
    split at hw
    · exact hw.2.acts
    · exact hw.acts

theorem item_iff {i : ι} {rest : Generator W (Act τ) TakoError ι α} :
    Bounded k runs depth (.item i rest) ↔ Bounded k runs depth rest :=
  ⟨fun h => ⟨h.1, h.2⟩, fun h => ⟨h.1, h.2⟩⟩

theorem done (a : α) : Bounded k runs depth (.done a : Generator W (Act τ) TakoError ι α) :=
  ⟨trivial, trivial⟩

theorem fail (e : TakoError) : Bounded k runs depth (.fail e : Generator W (Act τ) TakoError ι α) :=
  ⟨trivial, trivial⟩

theorem yield_bind (i : ι) {f : Unit → Generator W (Act τ) TakoError ι β}
    (hf : Bounded k runs depth (f ())) : Bounded k runs depth (.yield i >>= f) := item_iff.2 hf

end Bounded

variable {C : SelfCaller W τ} {k runs depth : Nat}

theorem evaluate_free (C : SelfCaller W τ) (p : Principal) (text : String) :
    (C.evaluate p text : Generator W (Act τ) TakoError ι Rat).Acts
      fun a => innermost k a = none :=
  .call fun _ => by cases k <;> rfl

theorem evaluateStreaming_free (C : SelfCaller W τ) (p : Principal) (text : String) :
    (C.evaluateStreaming p text : Generator W (Act τ) TakoError ι (Option Rat)).Acts
      fun a => innermost k a = none :=
  .call fun _ => by cases k <;> rfl

/-- The loop over the inner stream adds nothing to what the inner stream does. -/
theorem consume_bounded (C : SelfCaller W τ) (p : Principal)
    {g : Generator W (Act τ) TakoError OrchEvent Unit} (h : Bounded k runs depth (g.relabel .within))
    (accumulated : String) (captured : Option OrchOutput) :
    Bounded k runs depth (C.consume p g accumulated captured) := by
  induction g generalizing runs accumulated captured with
  | done => exact .done _
  | fail e => exact .fail e
  | act step rest ih =>
    rw [relabel, Bounded.act_iff] at h
    rw [consume, Bounded.act_iff]
    refine fun w => ⟨(h w).1, ?_⟩
    have hw := (h w).2
    split at hw
    · next hsome => exact (if_pos hsome).symm ▸ ⟨hw.1, ih w hw.2 _ _⟩
    · next hnone => exact (if_neg hnone).symm ▸ ih w hw _ _
  | item e rest ih =>
    rw [relabel, Bounded.item_iff] at h
    cases e with
    | final output => exact ih h _ _
    | assistantText step delta =>
      rw [consume, Bounded.item_iff]
      refine .free_bind (evaluateStreaming_free C _ _) fun score => ?_
      cases score with
      | none => exact ih h _ _
      | some score =>
        dsimp only
        split
        · exact .done _
        · exact ih h _ _
    | _ => exact Bounded.item_iff.2 (ih h _ _)

/-! ## The loops -/

/-- What `C` does whenever it calls what it wraps. -/
structure Calls (C : SelfCaller W τ) (k runs total : Nat) : Prop where
  run : ∀ p input, Bounded k runs (saturatingAdd (readDepth p) total)
    (.emit (.inner p input) >>= fun _ => (C.inner.run p input).relabel .within)
  stream : ∀ p input, Bounded k runs (saturatingAdd (readDepth p) total)
    (.emit (.inner p input) >>= fun _ => (C.inner.stream p input).relabel .within)

/-- What `O` does whenever it is called. -/
structure Called (O : Orchestrator W (Act τ)) (k runs total : Nat) : Prop where
  run : ∀ p input, Bounded k runs (saturatingAdd (readDepth p) total) (O.run p input)
  stream : ∀ p input, Bounded k runs (saturatingAdd (readDepth p) total) (O.stream p input)

theorem saturatingAdd_mono (h : m ≤ n) : saturatingAdd l m ≤ saturatingAdd l n := by
  unfold saturatingAdd
  omega

theorem saturatingAdd_assoc : saturatingAdd (saturatingAdd l m) n = saturatingAdd l (m + n) := by
  unfold saturatingAdd
  omega

namespace Calls

variable {total n offset : Nat} {input : OrchInput}

/-- The calls of the iteration at `offset`. -/
theorem run_at (h : Calls C k runs total) (p : Principal) (start : Nat) (input : OrchInput)
    (hoffset : offset ≤ m) :
    Bounded k runs (saturatingAdd start (m + total))
      (.emit (.inner (bumpedPrincipal p (saturatingAdd start offset)) input) >>= fun _ =>
        (C.inner.run (bumpedPrincipal p (saturatingAdd start offset)) input).relabel .within) := by
  have hcall := h.run (bumpedPrincipal p (saturatingAdd start offset)) input
  rw [readDepth_bumped p (saturatingAdd_lt _ _), saturatingAdd_assoc] at hcall
  exact hcall.mono (Nat.le_refl _) (saturatingAdd_mono (by omega))

theorem consume_at (h : Calls C k runs total) (p : Principal) (start : Nat) (input : OrchInput)
    (hoffset : offset ≤ m) :
    Bounded k runs (saturatingAdd start (m + total))
      (.emit (.inner (bumpedPrincipal p (saturatingAdd start offset)) input) >>= fun _ =>
        C.consume (bumpedPrincipal p (saturatingAdd start offset))
          (C.inner.stream (bumpedPrincipal p (saturatingAdd start offset)) input) "" none) := by
  have hcall := h.stream (bumpedPrincipal p (saturatingAdd start offset)) input
  rw [readDepth_bumped p (saturatingAdd_lt _ _), saturatingAdd_assoc] at hcall
  replace hcall := hcall.mono (Nat.le_refl _)
    (saturatingAdd_mono (show offset + total ≤ m + total by omega))
  refine Bounded.act_iff.2 fun w => ⟨(Bounded.act_iff.1 hcall w).1, ?_⟩
  have hw := (Bounded.act_iff.1 hcall w).2
  split at hw
  · next hsome => exact (if_pos hsome).symm ▸ ⟨hw.1, consume_bounded C _ hw.2 _ _⟩
  · next hnone => exact (if_neg hnone).symm ▸ consume_bounded C _ hw _ _

/-- `n` iterations are left. -/
theorem runFrom (h : Calls C k runs total) (p : Principal) (start : Nat)
    (last : Option OrchOutput) (hn : n + offset = C.maxDepth.toNat + 1) :
    Bounded k (n * runs) (saturatingAdd start (C.maxDepth.toNat + total))
      (C.runFrom p start n offset input last) := by
  induction n generalizing offset input last with
  | zero =>
    cases last with
    | none => exact .fail _
    | some out => exact .done _
  | succ n ih =>
    rw [Nat.succ_mul, Nat.add_comm]
    refine (h.run_at p start input (show offset ≤ C.maxDepth.toNat by omega)).bind fun out => ?_
    refine .free_bind (evaluate_free C _ _) fun conf => ?_
    split
    · exact .done _
    · exact ih _ (by omega)

theorem streamFrom (h : Calls C k runs total) (p : Principal) (start : Nat)
    (last : Option OrchOutput) (hn : n + offset = C.maxDepth.toNat + 1) :
    Bounded k (n * runs) (saturatingAdd start (C.maxDepth.toNat + total))
      (C.streamFrom p start n offset input last) := by
  induction n generalizing offset input last with
  | zero =>
    cases last with
    | none => exact .fail _
    | some out => exact .yield_bind _ (.done _)
  | succ n ih =>
    rw [Nat.succ_mul, Nat.add_comm]
    refine (h.consume_at p start input (show offset ≤ C.maxDepth.toNat by omega)).bind
      fun consumed => ?_
    cases consumed with
    | early score accumulated => exact .yield_bind _ (.yield_bind _ (.done _))
    | ended captured =>
      cases captured with
      | none => exact .fail _
      | some out =>
        refine .free_bind (evaluate_free C _ _) fun conf => .yield_bind _ ?_
        split
        · exact .yield_bind _ (.done _)
        · exact ih _ (by omega)

theorem toOrchestrator (h : Calls C k runs total) :
    Called C.toOrchestrator k ((C.maxDepth.toNat + 1) * runs) (C.maxDepth.toNat + total) where
  run p _ := h.runFrom p (readDepth p) none rfl
  stream p _ := h.streamFrom p (readDepth p) none rfl

end Calls

/-- What is wrapped by one more `SelfCaller`. -/
theorem Bounded.within {x : Generator W (Act τ) TakoError ι α} (h : Bounded k runs depth x)
    (a : Act τ) (ha : innermost (k + 1) a = none) :
    Bounded (k + 1) runs depth (.emit a >>= fun _ => x.relabel .within) :=
  .free_bind (.emit ha) fun _ => ⟨.relabel h.spends, .relabel h.acts⟩

theorem saturatingAdd_zero (p : Principal) : saturatingAdd (readDepth p) 0 = readDepth p :=
  Nat.min_eq_right (Nat.le_of_lt_succ (readDepth_lt p))

/-- What the innermost orchestrator does is none of its calls. -/
theorem once (p : Principal) (input : OrchInput) (x : Generator W (Act τ) TakoError ι α) :
    Bounded 0 1 (saturatingAdd (readDepth p) 0)
      (.emit (.inner p input) >>= fun _ => x.relabel .within) := by
  have hx : (x.relabel .within).Acts fun a => innermost 0 a = none := .relabel (.of fun _ => rfl)
  refine Bounded.act_iff.2 fun w => ⟨fun q hq => ?_, ?_⟩
  · cases hq
    exact Nat.le_of_eq (saturatingAdd_zero p).symm
  · exact ⟨Nat.one_pos, .of_acts hx⟩

theorem innermost_calls (b : SelfCallerBuilder W) (O : Orchestrator W (Act τ)) :
    Calls (b.build O) 0 1 0 where
  run p input := once p input (O.run p input)
  stream p input := once p input (O.stream p input)

theorem nest_calls (b : SelfCallerBuilder W) (bs : List (SelfCallerBuilder W))
    (O : Orchestrator W (Act τ)) :
    Calls (b.build (nest bs O)) bs.length (totalRuns (bs.map (·.maxDepth)))
      (totalDepth (bs.map (·.maxDepth))) := by
  induction bs generalizing b with
  | nil => exact innermost_calls b O
  | cons b' bs ih =>
    have h := (ih b').toOrchestrator
    exact ⟨fun p input => (h.run p input).within _ rfl,
      fun p input => (h.stream p input).within _ rfl⟩

theorem nest_called (b : SelfCallerBuilder W) (bs : List (SelfCallerBuilder W))
    (O : Orchestrator W (Act τ)) :
    Called (nest (b :: bs) O) bs.length (totalRuns ((b :: bs).map (·.maxDepth)))
      (totalDepth ((b :: bs).map (·.maxDepth))) :=
  (nest_calls b bs O).toOrchestrator

/-! ## A nest that makes every iteration -/

/-- A guard that is never confident. -/
def never : ConfidenceGuard Unit := ⟨fun _ _ w => (.ok 0, w), fun _ _ w => (.ok none, w)⟩

def unsure (m : UInt8) : SelfCallerBuilder Unit :=
  { maxDepth := m, minConfidence := 1, confidence := never }

def sampleOutput : OrchOutput := ⟨"", .assistant "", {}, 1⟩

def answering : Orchestrator Unit (Act Empty) where
  run _ _ := pure sampleOutput
  stream _ _ := .yield (.final sampleOutput)

/-- `x` gives an output; it calls the innermost orchestrator `runs` times, and once at `depth`. -/
structure Exhausts (k runs depth : Nat) (x : Generator Unit (Act Empty) TakoError Empty OrchOutput) :
    Prop where
  output : ∃ out, (x.play.run ()).result = .ok out
  runs : (seen (innermost k) (x.play.run ()).trace).length = runs
  depth : ∃ p ∈ seen (innermost k) (x.play.run ()).trace, readDepth p = depth

variable {m : UInt8} {O : Orchestrator Unit (Act Empty)} {total n offset : Nat}

namespace Exhausts

variable {x : Generator Unit (Act Empty) TakoError Empty OrchOutput}
  {f : OrchOutput → Generator Unit (Act Empty) TakoError Empty OrchOutput}

theorem last (hx : Exhausts k runs depth x)
    (hout : ∀ out, ∃ out', ((f out).play.run ()).result = .ok out')
    (hseen : ∀ out, seen (innermost k) ((f out).play.run ()).trace = []) :
    Exhausts k runs depth (x >>= f) := by
  obtain ⟨⟨out, hok⟩, hruns, hdepth⟩ := hx
  have hsame := seen_bind (innermost k) f hok
  rw [hseen out, List.append_nil] at hsame
  exact ⟨(result_bind f hok).symm ▸ hout out, hsame ▸ hruns, hsame ▸ hdepth⟩

theorem more (hx : Exhausts k runs depth' x) (hf : ∀ out, Exhausts k runs' depth (f out)) :
    Exhausts k (runs + runs') depth (x >>= f) := by
  obtain ⟨⟨out, hok⟩, hruns, -⟩ := hx
  obtain ⟨hout, hruns', q, hq, hdepth⟩ := hf out
  refine ⟨(result_bind f hok).symm ▸ hout, ?_, q, ?_, hdepth⟩
  · rw [seen_bind _ f hok, List.length_append, hruns, hruns']
  · rw [seen_bind _ f hok]
    exact List.mem_append_right _ hq

end Exhausts

/-- A score of zero ends no loop. -/
theorem unsure_done (m : UInt8) (O : Orchestrator Unit (Act Empty)) (offset : Nat) :
    (decide (((unsure m).build O).minConfidence ≤ 0) ||
      decide (((unsure m).build O).maxDepth.toNat ≤ offset)) = decide (m.toNat ≤ offset) := by
  have hscore : ¬((unsure m).build O).minConfidence ≤ (0 : Rat) := by
    change ¬(1 : Rat) ≤ 0
    decide
  rw [decide_eq_false hscore, Bool.false_or]
  rfl

/-- The guard's score leaves nothing to see. -/
theorem seen_unsure_evaluate (k : Nat) (p : Principal) (text : String)
    (f : Rat → Generator Unit (Act Empty) TakoError Empty OrchOutput) :
    seen (innermost k) ((((unsure m).build O).evaluate p text >>= f).play.run ()).trace =
      seen (innermost k) ((f 0).play.run ()).trace := by
  rw [seen_bind (a := (0 : Rat)) _ f rfl]
  cases k <;> rfl

theorem exhausts_runFrom (p : Principal) (start : Nat) (input : OrchInput)
    (last : Option OrchOutput)
    (h : ∀ q input, Exhausts k runs (saturatingAdd (readDepth q) total)
      (.emit (.inner q input) >>= fun _ => (O.run q input).relabel .within))
    (hn : n + offset = m.toNat + 1) (hoffset : offset ≤ m.toNat) :
    Exhausts k (n * runs) (saturatingAdd start (m.toNat + total))
      (((unsure m).build O).runFrom p start n offset input last) := by
  induction n generalizing offset input last with
  | zero => omega
  | succ n ih =>
    have hcall := h (bumpedPrincipal p (saturatingAdd start offset)) input
    rw [readDepth_bumped p (saturatingAdd_lt _ _), saturatingAdd_assoc] at hcall
    by_cases hlast : m.toNat ≤ offset
    · obtain rfl : n = 0 := by omega
      obtain rfl : offset = m.toNat := by omega
      rw [Nat.zero_add, Nat.one_mul]
      refine hcall.last (fun out => ⟨out, ?_⟩) fun out => ?_
      · refine (result_bind (a := (0 : Rat)) _ rfl).trans ?_
        rw [unsure_done, decide_eq_true hlast]
        rfl
      · refine (seen_unsure_evaluate k _ _ _).trans ?_
        rw [unsure_done, decide_eq_true hlast]
        rfl
    · rw [Nat.succ_mul, Nat.add_comm]
      refine hcall.more fun out => ?_
      obtain ⟨houtput, hruns, hdepth⟩ := ih (((unsure m).build O).revise input out.text) (some out)
        (show n + (offset + 1) = _ by omega) (by omega)
      refine ⟨?_, ?_, ?_⟩
      · rw [result_bind (a := (0 : Rat)) _ rfl, unsure_done, decide_eq_false hlast]
        exact houtput
      · rw [seen_unsure_evaluate, unsure_done, decide_eq_false hlast]
        exact hruns
      · rw [seen_unsure_evaluate, unsure_done, decide_eq_false hlast]
        exact hdepth

theorem Exhausts.within {x : Generator Unit (Act Empty) TakoError Empty OrchOutput}
    (h : Exhausts k runs depth x) (a : Act Empty) (ha : innermost (k + 1) a = none) :
    Exhausts (k + 1) runs depth (.emit a >>= fun _ => x.relabel .within) := by
  have hplay : ((.emit a >>= fun _ => x.relabel .within) :
      Generator Unit (Act Empty) TakoError Empty OrchOutput).play.run () =
      ⟨((x.relabel Act.within).play.run ()).result, ((x.relabel Act.within).play.run ()).world,
        .inl a :: ((x.relabel Act.within).play.run ()).trace⟩ := rfl
  have hseen : seen (innermost (k + 1)) ((x.play.run ()).trace.map (Sum.map Act.within id)) =
    seen (innermost k) (x.play.run ()).trace := seen_map _ _ _
  obtain ⟨hout, hruns, hdepth⟩ := h
  constructor
  all_goals rw [hplay, play_relabel]
  · exact hout
  · rwa [seen_cons, ha, hseen]
  · rwa [seen_cons, ha, hseen]

theorem exhausts_nest (m : UInt8) (ms : List UInt8) (p : Principal) (input : OrchInput) :
    Exhausts ms.length (totalRuns (m :: ms)) (saturatingAdd (readDepth p) (totalDepth (m :: ms)))
      ((nest ((m :: ms).map unsure) answering).run p input) := by
  induction ms generalizing m p input with
  | nil =>
    have hcall := fun (q : Principal) (input : OrchInput) =>
      (⟨⟨sampleOutput, rfl⟩, rfl, q, List.mem_singleton_self q, (saturatingAdd_zero q).symm⟩ :
        Exhausts 0 1 (saturatingAdd (readDepth q) 0) (.emit (.inner q input) >>= fun _ =>
          (answering.run q input).relabel .within))
    exact exhausts_runFrom p (readDepth p) input none hcall rfl (Nat.zero_le _)
  | cons m' ms ih =>
    exact exhausts_runFrom p (readDepth p) input none
      (fun q input => (ih m' q input).within _ rfl) rfl (Nat.zero_le _)

/-! ## The bound -/

/-- The bound that one `SelfCaller` of this maximal depth keeps. -/
def Bound (depth : Nat) (calls : List Principal) : Prop :=
  calls.length ≤ depth + 1 ∧ ∀ p ∈ calls, readDepth p ≤ depth

/-- Whatever the innermost orchestrator and the guards of a nest with these maximal depths do, a
request of `p` calls the innermost orchestrator within the bound for the largest of them. -/
def KeepsToMaxDepth (ms : List UInt8) (p : Principal) : Prop :=
  ∀ (W τ : Type) (bs : List (SelfCallerBuilder W)) (O : Orchestrator W (Act τ)) (input : OrchInput)
    (w : W), bs.map (·.maxDepth) = ms →
      Bound (largestDepth ms)
        (seen (innermost (ms.length - 1)) (((nest bs O).run p input).play.run w).trace) ∧
      Bound (largestDepth ms)
        (seen (innermost (ms.length - 1)) (((nest bs O).stream p input).play.run w).trace)

theorem Bounded.play {x : Generator W (Act τ) TakoError ι α} (h : Bounded k runs depth x) (w : W) :
    (seen (innermost k) (x.play.run w).trace).length ≤ runs ∧
      ∀ p ∈ seen (innermost k) (x.play.run w).trace, readDepth p ≤ depth := by
  refine ⟨h.spends.play w, fun p hp => ?_⟩
  obtain ⟨t, ht, hpt⟩ := List.mem_filterMap.1 hp
  cases t with
  | inl a => exact h.acts.play w a ht p hpt
  | inr i => cases hpt

theorem largestDepth_lt_totalRuns (ms : List UInt8) : largestDepth ms < totalRuns ms := by
  induction ms with
  | nil => exact Nat.one_pos
  | cons m ms ih =>
    have hm : m.toNat + 1 ≤ (m.toNat + 1) * totalRuns ms :=
      Nat.le_mul_of_pos_right _ (by omega)
    have hms : totalRuns ms ≤ (m.toNat + 1) * totalRuns ms :=
      Nat.le_mul_of_pos_left _ (Nat.succ_pos _)
    rw [largestDepth, totalRuns]
    omega

theorem countP_cons (m : UInt8) (ms : List UInt8) :
    0 < m.toNat ∧ (m :: ms).countP (0 < ·) = ms.countP (0 < ·) + 1 ∨
    m.toNat = 0 ∧ (m :: ms).countP (0 < ·) = ms.countP (0 < ·) := by
  by_cases hm : 0 < m
  · exact .inl ⟨UInt8.lt_iff_toNat_lt.1 hm, List.countP_cons_of_pos (decide_eq_true hm)⟩
  · refine .inr ⟨?_, List.countP_cons_of_neg (by simpa using hm)⟩
    exact Nat.eq_zero_of_not_pos fun hpos => hm (UInt8.lt_iff_toNat_lt.2 hpos)

theorem largestDepth_pos_iff (ms : List UInt8) :
    0 < largestDepth ms ↔ 0 < ms.countP (0 < ·) := by
  induction ms with
  | nil => exact Iff.rfl
  | cons m ms ih =>
    rw [largestDepth]
    obtain ⟨hm, hcount⟩ | ⟨hm, hcount⟩ := countP_cons m ms
    · rw [hcount]
      omega
    · rw [hcount, hm, Nat.zero_max, ih]

theorem largestDepth_le (ms : List UInt8) : largestDepth ms ≤ 255 := by
  induction ms with
  | nil => exact Nat.zero_le _
  | cons m ms ih => exact Nat.max_le.2 ⟨Nat.le_of_lt_succ m.toNat_lt, ih⟩

theorem saturatingAdd_le_iff {ms : List UInt8} :
    saturatingAdd n (largestDepth ms) ≤ largestDepth ms ↔ n = 0 ∨ largestDepth ms = 255 := by
  have := largestDepth_le ms
  unfold saturatingAdd
  omega

/-- The bounds of one `SelfCaller`, where no other makes a second iteration. -/
theorem totals_of_countP_le {ms : List UInt8} (h : ms.countP (0 < ·) ≤ 1) :
    totalRuns ms = largestDepth ms + 1 ∧ totalDepth ms = largestDepth ms := by
  induction ms with
  | nil => exact ⟨rfl, rfl⟩
  | cons m ms ih =>
    rw [totalRuns, totalDepth, largestDepth]
    obtain ⟨hm, hcount⟩ | ⟨hm, hcount⟩ := countP_cons m ms
    · have hnone : largestDepth ms = 0 := by
        have := largestDepth_pos_iff ms
        omega
      obtain ⟨hruns, hdepth⟩ := ih (by omega)
      rw [hruns, hdepth, hnone]
      omega
    · obtain ⟨hruns, hdepth⟩ := ih (by omega)
      rw [hruns, hdepth, hm]
      omega

theorem lt_totalRuns {ms : List UInt8} (h : 1 < ms.countP (0 < ·)) :
    largestDepth ms + 1 < totalRuns ms := by
  induction ms with
  | nil => cases h
  | cons m ms ih =>
    rw [totalRuns, largestDepth]
    obtain ⟨hm, hcount⟩ | ⟨hm, hcount⟩ := countP_cons m ms
    · have hmore := (largestDepth_pos_iff ms).2 (by omega)
      have hless := largestDepth_lt_totalRuns ms
      have hm2 : (m.toNat + 1) * 2 ≤ (m.toNat + 1) * totalRuns ms := Nat.mul_le_mul_left _ (by omega)
      have hruns : 2 * totalRuns ms ≤ (m.toNat + 1) * totalRuns ms :=
        Nat.mul_le_mul_right _ (by omega)
      omega
    · have := ih (by omega)
      rw [hm]
      omega

/-- The largest maximal depth is kept exactly if it is the only one and no depth is added to it. -/
theorem keepsToMaxDepth_iff (m : UInt8) (ms : List UInt8) (p : Principal) :
    KeepsToMaxDepth (m :: ms) p ↔ (m :: ms).countP (0 < ·) ≤ 1 ∧
      (readDepth p = 0 ∨ largestDepth (m :: ms) = 255) := by
  constructor
  · intro h
    obtain ⟨-, hruns, q, hq, hdepth⟩ := exhausts_nest m ms p ⟨[], none⟩
    have hmap : ((m :: ms).map unsure).map (·.maxDepth) = m :: ms := by
      rw [List.map_map]
      exact List.map_id _
    obtain ⟨⟨hlength, hall⟩, -⟩ := h Unit Empty _ answering ⟨[], none⟩ () hmap
    have hcount : (m :: ms).countP (0 < ·) ≤ 1 := by
      by_contra hmore
      have := lt_totalRuns (Nat.lt_of_not_le hmore)
      exact absurd (hruns ▸ hlength) (Nat.not_le_of_lt this)
    refine ⟨hcount, ?_⟩
    have hle := hall q hq
    rwa [hdepth, (totals_of_countP_le hcount).2, saturatingAdd_le_iff] at hle
  · rintro ⟨hcount, hp⟩ W τ bs O input w hmap
    cases bs with
    | nil => cases hmap
    | cons b bs =>
      have hnest := nest_called b bs O
      have hlength : bs.length = (m :: ms).length - 1 := by
        rw [← hmap, List.length_map]
        rfl
      obtain ⟨hruns, hdepth⟩ := totals_of_countP_le hcount
      rw [hmap, hlength, hruns, hdepth] at hnest
      have hp := saturatingAdd_le_iff.2 hp
      exact ⟨((hnest.run p input).mono (Nat.le_refl _) hp).play w,
        ((hnest.stream p input).mono (Nat.le_refl _) hp).play w⟩

theorem nested_exceeds : ¬∀ ms p, ms ≠ [] → KeepsToMaxDepth ms p := by
  intro h
  have hruns := (exhausts_nest 1 [1] ⟨"acme", "u", [], none, []⟩ ⟨[], none⟩).runs
  obtain ⟨⟨hlength, -⟩, -⟩ := h [1, 1] ⟨"acme", "u", [], none, []⟩ (List.cons_ne_nil _ _)
    Unit Empty [unsure 1, unsure 1] answering ⟨[], none⟩ () rfl
  exact absurd (hruns.symm.trans_le hlength) (by decide)

end SelfCaller

end Tako.Orchestrator
