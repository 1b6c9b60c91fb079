import Tako.Orchestrator.SelfCaller.RunStream

/-!
# The last iteration of a `SelfCaller`

The `Final` event of a stream comes from its last iteration: from the wrapped orchestrator, whose
output the guard has scored, or from the guard, which was confident early of the text streamed so
far (`SelfCaller.stream_ends`). What the wrapped orchestrator's stream settles is settled there.
-/

namespace Tako.Orchestrator

open Generator

variable {W τ ι κ : Type}

/-! ## Events -/

/-- The output of the last `Final`. -/
def lastFinal (evs : List OrchEvent) : Option OrchOutput :=
  (evs.filterMap fun
    | .final out => some out
    | _ => none).getLast?

theorem mem_of_lastFinal {evs : List OrchEvent} {out : OrchOutput} (h : lastFinal evs = some out) :
    .final out ∈ evs := by
  obtain ⟨e, he, hout⟩ := List.mem_filterMap.1 (List.mem_of_getLast? h)
  cases e with
  | final out' =>
    cases hout
    exact he
  | _ => cases hout

theorem lastFinal_append_item {given : List OrchEvent} {e : OrchEvent} (h : ¬e.IsFinal) :
    lastFinal (given ++ [e]) = lastFinal given := by
  rw [lastFinal, List.filterMap_append, lastFinal]
  cases e with
  | final out => exact absurd trivial h
  | _ => exact congrArg List.getLast? (List.append_nil _)

theorem lastFinal_append_final (given : List OrchEvent) (out : OrchOutput) :
    lastFinal (given ++ [.final out]) = some out := by
  rw [lastFinal, List.filterMap_append]
  exact List.getLast?_concat

namespace SelfCaller

theorem noFinal_act (a : Act τ) : NoFinal (items [(.inl a : Act τ ⊕ OrchEvent)]) :=
  List.forall_mem_nil _

theorem noFinal_item {e : OrchEvent} (h : ¬e.IsFinal) :
    NoFinal (items [(.inr e : Act τ ⊕ OrchEvent)]) := List.forall_mem_singleton.2 h

theorem mem_of_final_mem {l l' : List (Act τ ⊕ OrchEvent)} {out : OrchOutput}
    (hl : NoFinal (items l)) (h : .inr (.final out) ∈ l ++ l') : .inr (.final out) ∈ l' :=
  (List.mem_append.1 h).resolve_left fun hmem =>
    hl (.final out) (List.mem_filterMap.2 ⟨_, hmem, rfl⟩) trivial

/-! ## Calls of what is wrapped -/

def IsCall : Act τ ⊕ ι → Bool
  | .inl (.inner _ _) => true
  | _ => false

/-- What comes after the last call of what is wrapped. -/
def lastIteration (l : List (Act τ ⊕ ι)) : List (Act τ ⊕ ι) :=
  (l.reverse.takeWhile (!IsCall ·)).reverse

/-- What comes up to the last call of what is wrapped. -/
def earlierIterations (l : List (Act τ ⊕ ι)) : List (Act τ ⊕ ι) :=
  (l.reverse.dropWhile (!IsCall ·)).reverse

def lastAct (l : List (Act τ ⊕ ι)) : Option (Act τ) := (l.filterMap Sum.getLeft?).getLast?

/-- What a view sees of what is wrapped. -/
def within (v : Act τ → Option κ) : Act τ → Option κ
  | .within a => v a
  | _ => none

theorem not_isCall_reverse {post : List (Act τ ⊕ ι)} (hpost : ∀ t ∈ post, IsCall t = false) :
    ∀ t ∈ post.reverse, (!IsCall t) = true := by
  intro t ht
  rw [hpost t (List.mem_reverse.1 ht)]
  rfl

theorem lastIteration_eq {pre post : List (Act τ ⊕ ι)} (q : Principal) (input : OrchInput)
    (hpost : ∀ t ∈ post, IsCall t = false) :
    lastIteration (pre ++ .inl (.inner q input) :: post) = post := by
  rw [lastIteration, List.reverse_append, List.reverse_cons, List.append_assoc,
    List.takeWhile_append_of_pos (not_isCall_reverse hpost), List.singleton_append,
    List.takeWhile_cons]
  simp [IsCall]

theorem earlierIterations_eq {pre post : List (Act τ ⊕ ι)} (q : Principal) (input : OrchInput)
    (hpost : ∀ t ∈ post, IsCall t = false) :
    earlierIterations (pre ++ .inl (.inner q input) :: post) = pre ++ [.inl (.inner q input)] := by
  rw [earlierIterations, List.reverse_append, List.reverse_cons, List.append_assoc,
    List.dropWhile_append_of_pos (not_isCall_reverse hpost), List.singleton_append,
    List.dropWhile_cons]
  simp [IsCall]

theorem lastAct_append (pre : List (Act τ ⊕ ι)) {post : List (Act τ ⊕ ι)}
    (h : lastAct post = some a) : lastAct (pre ++ post) = some a := by
  rw [lastAct, List.filterMap_append, List.getLast?_append]
  change (lastAct post).or _ = _
  rw [h]
  rfl

theorem lastAct_append_items {l : List (Act τ ⊕ ι)} (h : lastAct l = some a) (evs : List ι) :
    lastAct (l ++ evs.map .inr) = some a := by
  have hevs : (evs.map .inr : List (Act τ ⊕ ι)).filterMap Sum.getLeft? = [] :=
    List.filterMap_eq_nil_iff.2 (List.forall_mem_map.2 fun _ _ => rfl)
  rw [lastAct, List.filterMap_append, hevs, List.append_nil]
  exact h

theorem lastAct_iteration (pre : List (Act τ ⊕ ι)) (q : Principal) (input : OrchInput)
    {post : List (Act τ ⊕ ι)} (h : lastAct post = some a) :
    lastAct (pre ++ .inl (.inner q input) :: post) = some a :=
  lastAct_append pre (lastAct_append [.inl (.inner q input)] h)

/-! ## The loop over the inner stream -/

variable {v : Act τ → Option κ} {Q : List κ → List OrchEvent → Unit → Prop} {C : SelfCaller W τ}

/-- What the loop leaves if `ks` was seen and `given` was taken of the inner stream before, and
`accumulated` was its text. -/
structure Consumption (v : Act τ → Option κ) (Q : List κ → List OrchEvent → Unit → Prop)
    (q : Principal) (ks : List κ) (given : List OrchEvent) (accumulated : String)
    (o : Outcome W (Act τ ⊕ OrchEvent) TakoError Consumed) : Prop where
  isCall : ∀ t ∈ o.trace, IsCall t = false
  noFinal : NoFinal (items o.trace)
  early : ∀ score text, o.result = .ok (.early score text) →
    text = accumulated ++ textOf (items o.trace) ∧
      ∃ r, lastAct o.trace = some (.evaluateStreaming q text r)
  ended : ∀ captured, o.result = .ok (.ended captured) →
    ∃ evs, captured = lastFinal (given ++ evs) ∧ textOf evs = textOf (items o.trace) ∧
      Q (ks ++ seen (within v) o.trace) (given ++ evs) ()

namespace Consumption

variable {q : Principal} {ks : List κ} {given : List OrchEvent} {accumulated : String}
  {o : Outcome W (Act τ ⊕ OrchEvent) TakoError Consumed}

theorem error (e : TakoError) (w : W) :
    Consumption v Q q ks given accumulated ⟨.error e, w, []⟩ where
  isCall := List.forall_mem_nil _
  noFinal := List.forall_mem_nil _
  early _ _ hr := by cases hr
  ended _ hr := by cases hr

/-- An action of the inner stream. -/
theorem after_within {a : Act τ}
    (h : Consumption v Q q (ks ++ (v a).toList) given accumulated o) :
    Consumption v Q q ks given accumulated (o.after [.inl (.within a)]) where
  isCall := List.forall_mem_cons.2 ⟨rfl, h.isCall⟩
  noFinal := h.noFinal
  early score text hr := by
    obtain ⟨htext, r, hlast⟩ := h.early score text hr
    exact ⟨htext, r, lastAct_append [.inl (.within a)] hlast⟩
  ended captured hr := by
    obtain ⟨evs, hcaptured, htext, hQ⟩ := h.ended captured hr
    refine ⟨evs, hcaptured, htext, ?_⟩
    rw [List.append_assoc] at hQ
    rw [Outcome.after, List.singleton_append, seen_cons]
    exact hQ

/-- A streaming evaluation that lets the stream go on. -/
theorem after_evaluation {p : Principal} {text : String} {r : Result (Option Rat)}
    (h : Consumption v Q q ks given accumulated o) :
    Consumption v Q q ks given accumulated (o.after [.inl (.evaluateStreaming p text r)]) where
  isCall := List.forall_mem_cons.2 ⟨rfl, h.isCall⟩
  noFinal := h.noFinal
  early score text hr := by
    obtain ⟨htext, r, hlast⟩ := h.early score text hr
    exact ⟨htext, r, lastAct_append [.inl (.evaluateStreaming p _ _)] hlast⟩
  ended := h.ended

/-- An event that is yielded on. -/
theorem after_item {e : OrchEvent} (hfinal : ¬e.IsFinal)
    (h : Consumption v Q q ks (given ++ [e]) (accumulated ++ textOf [e]) o) :
    Consumption v Q q ks given accumulated (o.after [.inr e]) where
  isCall := List.forall_mem_cons.2 ⟨rfl, h.isCall⟩
  noFinal := (noFinal_item (τ := τ) hfinal).append h.noFinal
  early score text hr := by
    obtain ⟨htext, r, hlast⟩ := h.early score text hr
    refine ⟨?_, r, lastAct_append [.inr e] hlast⟩
    rw [htext, Outcome.after, items_append, textOf_append, String.append_assoc]
    rfl
  ended captured hr := by
    obtain ⟨evs, hcaptured, htext, hQ⟩ := h.ended captured hr
    rw [List.append_assoc] at hcaptured hQ
    refine ⟨[e] ++ evs, hcaptured, ?_, hQ⟩
    rw [Outcome.after, items_append, textOf_append, textOf_append, htext]
    rfl

/-- A `Final`, which is withheld. -/
theorem after_final {out : OrchOutput}
    (h : Consumption v Q q ks (given ++ [.final out]) accumulated o) :
    Consumption v Q q ks given accumulated o where
  isCall := h.isCall
  noFinal := h.noFinal
  early := h.early
  ended captured hr := by
    obtain ⟨evs, hcaptured, htext, hQ⟩ := h.ended captured hr
    rw [List.append_assoc] at hcaptured hQ
    exact ⟨[.final out] ++ evs, hcaptured, (textOf_append [.final out] evs).trans
      (String.empty_append.trans htext), hQ⟩

end Consumption

theorem consume_consumption {g : Generator W (Act τ) TakoError OrchEvent Unit} {q : Principal}
    {ks : List κ} {given : List OrchEvent} {accumulated : String} {w : W}
    (hg : g.Settles v Q ks given) :
    Consumption v Q q ks given accumulated
      ((C.consume q g accumulated (lastFinal given)).play.run w) := by
  induction g generalizing ks given accumulated w with
  | done a =>
    refine ⟨List.forall_mem_nil _, List.forall_mem_nil _, fun _ _ hr => ?_, fun captured hr => ?_⟩
    · cases hr
    · refine ⟨[], ?_, rfl, ?_⟩
      · rw [List.append_nil]
        exact (Consumed.ended.inj (Except.ok.inj hr)).symm
      · rw [List.append_nil]
        exact (List.append_nil ks).symm ▸ hg
  | fail e => exact .error e w
  | act step rest ih => exact .after_within (ih w (hg w))
  | item e rest ih =>
    have hrest (text : String) (w : W) : Consumption v Q q ks (given ++ [e]) text
        ((C.consume q rest text (lastFinal (given ++ [e]))).play.run w) := ih hg
    cases e with
    | final out =>
      rw [lastFinal_append_final] at hrest
      exact .after_final (hrest _ _)
    | assistantText step delta =>
      rw [lastFinal_append_item id] at hrest
      have hdelta : textOf [.assistantText step delta] = delta := String.empty_append
      rw [consume, evaluateStreaming]
      refine .after_item id ?_
      rw [hdelta]
      cases hr : (C.confidence.evaluateStreaming q (accumulated ++ delta) w).1 with
      | error e =>
        rw [run_call_bind_error _ _ hr]
        exact (Consumption.error e _).after_evaluation
      | ok score =>
        rw [run_call_bind_ok _ _ hr]
        cases score with
        | none => exact (hrest _ _).after_evaluation
        | some score =>
          dsimp only
          split
          · refine ⟨List.forall_mem_singleton.2 rfl, noFinal_act _, fun _ _ hr => ?_,
              fun _ hr => ?_⟩
            · cases hr
              exact ⟨String.append_empty.symm, _, rfl⟩
            · cases hr
          · exact (hrest _ _).after_evaluation
    | _ =>
      rw [lastFinal_append_item id] at hrest
      refine .after_item id ?_
      have htext := hrest accumulated w
      exact (String.append_empty (s := accumulated)).symm ▸ htext

/-! ## The end of a stream -/

/-- Where the `Final` of a stream comes from: from an iteration that the guard has scored, or from
one in which it was confident early. -/
inductive Ended (v : Act τ → Option κ) (Q : List κ → List OrchEvent → Unit → Prop)
    (out : OrchOutput) : List (Act τ ⊕ OrchEvent) → Prop where
  | accepted {pre post : List (Act τ ⊕ OrchEvent)} {evs : List OrchEvent}
    (hcalls : ∀ t ∈ post, IsCall t = false) (hlast : lastAct post = some (.evaluate u out.text r))
    (hfinal : lastFinal evs = some out) (htext : textOf evs = textOf (items post))
    (hQ : Q (seen (within v) post) evs ()) : Ended v Q out (pre ++ .inl (.inner q input) :: post)
  | early {pre post : List (Act τ ⊕ OrchEvent)} (hcalls : ∀ t ∈ post, IsCall t = false)
    (hlast : lastAct post = some (.evaluateStreaming u out.text r))
    (hout : out = ⟨textOf (items post), .assistant (textOf (items post)), {}, 1⟩) :
    Ended v Q out (pre ++ .inl (.inner q input) :: post)

theorem Ended.after {out : OrchOutput} {l : List (Act τ ⊕ OrchEvent)} (h : Ended v Q out l)
    (before : List (Act τ ⊕ OrchEvent)) : Ended v Q out (before ++ l) := by
  cases h with
  | accepted hcalls hlast hfinal htext hQ =>
    rw [← List.append_assoc]
    exact .accepted hcalls hlast hfinal htext hQ
  | early hcalls hlast hout =>
    rw [← List.append_assoc]
    exact .early hcalls hlast hout

/-- An iteration whose output the guard has scored. -/
theorem Ended.evaluated {out : OrchOutput} {l : List (Act τ ⊕ OrchEvent)} {evs : List OrchEvent}
    (hcalls : ∀ t ∈ l, IsCall t = false) (hfinal : lastFinal evs = some out)
    (htext : textOf evs = textOf (items l)) (hQ : Q (seen (within v) l) evs ()) (q : Principal)
    (input : OrchInput) (r : Result Rat) (depth : Nat) (conf : Rat) :
    Ended v Q out (.inl (.inner q input) :: (l ++ .inl (.evaluate q out.text r) ::
      [.recursion depth conf, .final out].map .inr)) := by
  refine (show Ended v Q out ([] ++ .inl (.inner q input) :: _) from
    .accepted (u := q) (r := r) ?_ ?_ hfinal ?_ ?_)
  · exact List.forall_mem_append.2 ⟨hcalls, List.forall_mem_cons.2 ⟨rfl,
      List.forall_mem_map.2 fun _ _ => rfl⟩⟩
  · exact lastAct_append l
      (lastAct_append_items (l := [.inl (.evaluate q out.text r)]) rfl _)
  · rw [items_append, textOf_append]
    exact htext.trans String.append_empty.symm
  · rw [seen_append]
    exact (List.append_nil (seen (within v) l)).symm ▸ hQ

/-- An iteration in which the guard was confident early. -/
theorem Ended.ended_early {text : String} {l : List (Act τ ⊕ OrchEvent)}
    (hcalls : ∀ t ∈ l, IsCall t = false) (htext : text = textOf (items l))
    (hlast : lastAct l = some (.evaluateStreaming u text r)) (q : Principal) (input : OrchInput)
    (depth : Nat) (score : Rat) :
    Ended v Q ⟨text, .assistant text, {}, 1⟩ (.inl (.inner q input) :: (l ++
      [.recursion depth score, .final ⟨text, .assistant text, {}, 1⟩].map .inr)) := by
  refine (show Ended v Q _ ([] ++ .inl (.inner q input) :: _) from
    .early (u := u) (r := r) ?_ (lastAct_append_items hlast _) ?_)
  · exact List.forall_mem_append.2 ⟨hcalls, List.forall_mem_map.2 fun _ _ => rfl⟩
  · have hitems : text = textOf (items (l ++
        [.recursion depth score, .final ⟨text, .assistant text, {}, 1⟩].map .inr)) := by
      rw [items_append, textOf_append]
      exact htext.trans String.append_empty.symm
    rw [← hitems]

theorem streamFrom_ends (h : ∀ p input, (C.inner.stream p input).Settles v Q [] []) {p : Principal}
    {start n offset : Nat} (hn : n + offset = C.maxDepth.toNat + 1)
    (hoffset : offset ≤ C.maxDepth.toNat) {input : OrchInput} {last : Option OrchOutput} {w : W}
    {out : OrchOutput}
    (hmem : .inr (.final out) ∈ ((C.streamFrom p start n offset input last).play.run w).trace) :
    Ended v Q out ((C.streamFrom p start n offset input last).play.run w).trace := by
  induction n generalizing offset input last w with
  | zero => omega
  | succ n ih =>
    rw [streamFrom, run_emit_bind] at hmem ⊢
    generalize bumpedPrincipal p (saturatingAdd start offset) = q at hmem ⊢
    replace hmem := mem_of_final_mem (noFinal_act _) hmem
    have hconsumed : Consumption v Q q [] [] ""
        ((C.consume q (C.inner.stream q input) "" (lastFinal [])).play.run w) :=
      consume_consumption (h q input)
    change Consumption v Q q [] [] ""
      ((C.consume q (C.inner.stream q input) "" none).play.run w) at hconsumed
    generalize ho : (C.consume q (C.inner.stream q input) "" none).play.run w = o at hconsumed
    obtain ⟨result, w', l⟩ := o
    obtain ⟨hcalls, hfinal, hearly, hended⟩ := hconsumed
    cases result with
    | error e =>
      rw [run_bind_error _ (congrArg Outcome.result ho), ho] at hmem
      exact absurd (mem_of_final_mem hfinal ((List.append_nil l).symm ▸ hmem)) List.not_mem_nil
    | ok consumed =>
      rw [run_bind_ok _ (congrArg Outcome.result ho), ho] at hmem ⊢
      replace hmem := mem_of_final_mem hfinal hmem
      cases consumed with
      | early score text =>
        obtain ⟨htext, r, hlast⟩ := hearly _ _ rfl
        cases List.mem_singleton.1 (mem_of_final_mem (noFinal_item id) hmem)
        exact .ended_early hcalls (htext.trans String.empty_append) hlast q input
          (saturatingAdd start offset) score
      | ended captured =>
        obtain ⟨evs, hcaptured, htext, hQ⟩ := hended _ rfl
        cases captured with
        | none => exact absurd hmem List.not_mem_nil
        | some o =>
          dsimp only at hmem ⊢
          rw [evaluate] at hmem ⊢
          cases hc : (C.confidence.evaluate q o.text w').1 with
          | error e =>
            rw [run_call_bind_error _ _ hc] at hmem
            cases List.mem_singleton.1 hmem
          | ok conf =>
            rw [run_call_bind_ok _ _ hc, run_yield_bind] at hmem ⊢
            replace hmem := mem_of_final_mem (noFinal_item id) (mem_of_final_mem (noFinal_act _) hmem)
            split at hmem
            · next hstop =>
              rw [if_pos hstop]
              cases List.mem_singleton.1 hmem
              exact .evaluated hcalls hcaptured.symm htext hQ q input (.ok conf)
                (saturatingAdd start offset) conf
            · next hgo =>
              rw [if_neg hgo]
              have hrest := ih (show n + (offset + 1) = _ by omega) (by simp at hgo; omega) hmem
              exact (((hrest.after [.inr (.recursion (saturatingAdd start offset) conf)]).after
                [.inl (.evaluate q o.text (.ok conf))]).after l).after [.inl (.inner q input)]

/-- A `Final` event comes from the last iteration. -/
theorem stream_ends (h : ∀ p input, (C.inner.stream p input).Settles v Q [] []) {p : Principal}
    {input : OrchInput} {w : W} {out : OrchOutput}
    (hmem : .inr (.final out) ∈ ((C.stream p input).play.run w).trace) :
    Ended v Q out ((C.stream p input).play.run w).trace :=
  streamFrom_ends h (show C.maxDepth.toNat + 1 + 0 = C.maxDepth.toNat + 1 from rfl)
    (Nat.zero_le _) hmem

end SelfCaller

end Tako.Orchestrator
