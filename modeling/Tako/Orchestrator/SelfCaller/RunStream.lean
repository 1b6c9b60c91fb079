import Tako.Orchestrator.SelfCaller.Basic

/-!
# `SelfCaller`: `run` and `stream`

`stream` does for the consumer what `run` does, iteration by iteration, up to the one in which the
guard's streaming evaluation fires (`SelfCaller.stream_follows_run`). It asks the guard more often
than `run`, so this takes that nobody can tell: worlds that differ by streaming evaluations are
related, and related worlds answer alike.
-/

namespace Tako.Orchestrator

open Generator

variable {W τ : Type}

def OrchEvent.IsFinal : OrchEvent → Prop
  | .final _ => True
  | _ => False

namespace SelfCaller

/-- The stream ends as a run that results in `r` and leaves the world `v₁`: in one `Final` with the
output, or in the error. The world is `v` but for what `R` relates, and may change by `R` whenever
the stream waits; `captured` is the `Final` that was there before. -/
def Follows (R : W → W → Prop) (r : Result OrchOutput) (v₁ : W) :
    Generator W τ TakoError OrchEvent Unit → Option OrchOutput → W → Prop
  | .done _, captured, v => ∃ out, captured = some out ∧ r = .ok out ∧ v = v₁
  | .fail e, captured, _ => captured = none ∧ r = .error e
  | .item (.final out) rest, captured, v => captured = none ∧ Follows R r v₁ rest (some out) v
  | .item _ rest, captured, v => captured = none ∧ Follows R r v₁ rest none v
  | .act step rest, captured, v =>
    ∀ w, R v w → ∃ v', R v' (step w).2 ∧ Follows R r v₁ (rest w) captured v'

/-- Every stream ends in one `Final`, with what the run returns. -/
def StreamsAsRun (R : W → W → Prop) (O : Orchestrator W τ) : Prop :=
  ∀ p input v, Follows R ((O.run p input).play.run v).result ((O.run p input).play.run v).world
    (O.stream p input) none v

/-- What `C` wraps streams what it runs, and nobody can tell whether a streaming evaluation took
place. -/
structure Agrees (R : W → W → Prop) (C : SelfCaller W τ) : Prop where
  inner : StreamsAsRun R C.inner
  evaluate : ∀ p text {v w}, R v w →
    (C.confidence.evaluate p text v).1 = (C.confidence.evaluate p text w).1 ∧
      R (C.confidence.evaluate p text v).2 (C.confidence.evaluate p text w).2
  evaluateStreaming : ∀ p text {v w}, R v w → R v (C.confidence.evaluateStreaming p text w).2

variable {ι : Type} {R : W → W → Prop} {C : SelfCaller W τ}

/-- The input of a call of what is wrapped. -/
def fed : Act τ → Option (Principal × OrchInput)
  | .inner p input => some (p, input)
  | _ => none

/-- A streaming evaluation that ends the stream. -/
def Fires (C : SelfCaller W τ) : Act τ → Prop
  | .evaluateStreaming _ _ (.ok (some score)) => C.minConfidence ≤ score
  | _ => False

def Fails : Act τ → Prop
  | .evaluateStreaming _ _ (.error _) => True
  | _ => False

/-- Every streaming evaluation lets the stream go on. -/
def Quiet (C : SelfCaller W τ) (trace : List (Act τ ⊕ ι)) : Prop :=
  ∀ a, .inl a ∈ trace → ¬C.Fires a ∧ ¬Fails a

def NoFinal (evs : List OrchEvent) : Prop := ∀ e ∈ evs, ¬e.IsFinal

theorem Quiet.append {trace trace' : List (Act τ ⊕ ι)} (h : C.Quiet trace) (h' : C.Quiet trace') :
    C.Quiet (trace ++ trace') := fun a ha =>
  (List.mem_append.1 ha).elim (h a) (h' a)

theorem NoFinal.append (h : NoFinal evs) (h' : NoFinal evs') : NoFinal (evs ++ evs') := fun e he =>
  (List.mem_append.1 he).elim (h e) (h' e)

/-! ## The loop over the inner stream -/

/-- Between two calls of what is wrapped. -/
structure Plain (C : SelfCaller W τ) (trace : List (Act τ ⊕ OrchEvent)) : Prop where
  fed : seen fed trace = []
  noFinal : NoFinal (items trace)
  quiet : C.Quiet trace

theorem Plain.append {trace trace' : List (Act τ ⊕ OrchEvent)} (h : C.Plain trace)
    (h' : C.Plain trace') : C.Plain (trace ++ trace') where
  fed := by rw [seen_append, h.fed, h'.fed]; rfl
  noFinal := by
    rw [items_append]
    exact h.noFinal.append h'.noFinal
  quiet := h.quiet.append h'.quiet

/-- How the loop ends where `r` is the result of the run and `v₁` what it leaves. -/
inductive Consuming (R : W → W → Prop) (C : SelfCaller W τ) (q : Principal) (r : Result OrchOutput)
    (v₁ : W) (accumulated : String) : Outcome W (Act τ ⊕ OrchEvent) TakoError Consumed → Prop where
  | ended (hr : r = .ok out) (hR : R v₁ w) (h : C.Plain trace) :
    Consuming R C q r v₁ accumulated ⟨.ok (.ended (some out)), w, trace⟩
  | failed (hr : r = .error e) (h : C.Plain trace) :
    Consuming R C q r v₁ accumulated ⟨.error e, w, trace⟩
  | early {score : Rat} (hscore : C.minConfidence ≤ score) (h : C.Plain mid)
    (htext : text = accumulated ++ textOf (items mid)) :
    Consuming R C q r v₁ accumulated ⟨.ok (.early score text), w,
      mid ++ [.inl (.evaluateStreaming q text (.ok (some score)))]⟩
  | broken (h : C.Plain mid) :
    Consuming R C q r v₁ accumulated ⟨.error e, w,
      mid ++ [.inl (.evaluateStreaming q text (.error e))]⟩

theorem Consuming.after (h : Consuming R C q r v₁ accumulated' o) (htrace : C.Plain trace)
    (htext : accumulated' = accumulated ++ textOf (items trace)) :
    Consuming R C q r v₁ accumulated (o.after trace) := by
  cases h with
  | ended hr hR h => exact .ended hr hR (htrace.append h)
  | failed hr h => exact .failed hr (htrace.append h)
  | early hscore h htext' =>
    rw [Outcome.after, ← List.append_assoc]
    refine .early hscore (htrace.append h) ?_
    rw [htext', htext, items_append, textOf_append, String.append_assoc]
  | broken h =>
    rw [Outcome.after, ← List.append_assoc]
    exact .broken (htrace.append h)

theorem plain_nil : C.Plain [] := ⟨rfl, fun _ he => (nomatch he), fun _ ha => (nomatch ha)⟩

theorem plain_act {a : Act τ} (hfed : fed a = none) (hquiet : ¬C.Fires a ∧ ¬Fails a) :
    C.Plain [.inl a] where
  fed := by rw [seen_cons, hfed]; rfl
  noFinal _ he := nomatch he
  quiet a' ha' := by
    cases List.mem_singleton.1 ha'
    exact hquiet

theorem plain_item {e : OrchEvent} (h : ¬e.IsFinal) : C.Plain [.inr e] where
  fed := rfl
  noFinal e' he' := by
    cases List.mem_singleton.1 he'
    exact h
  quiet _ ha := nomatch List.mem_singleton.1 ha

/-- Events without text, and actions, do not change the answer. -/
theorem Consuming.after_silent (h : Consuming R C q r v₁ accumulated o) (htrace : C.Plain trace)
    (hsilent : (items trace).filterMap OrchEvent.delta = []) :
    Consuming R C q r v₁ accumulated (o.after trace) := by
  refine h.after htrace ?_
  rw [textOf, hsilent, String.join_nil, String.append_empty]

theorem consume_follows (h : C.Agrees R) {g : Generator W (Act τ) TakoError OrchEvent Unit}
    {v w : W} (accumulated : String) (hg : Follows R r v₁ g captured v) (hR : R v w) :
    Consuming R C q r v₁ accumulated ((C.consume q g accumulated captured).play.run w) := by
  induction g generalizing accumulated captured v w with
  | done a =>
    obtain ⟨out, rfl, rfl, rfl⟩ := hg
    exact .ended rfl hR plain_nil
  | fail e =>
    obtain ⟨rfl, rfl⟩ := hg
    exact .failed rfl plain_nil
  | act step rest ih =>
    obtain ⟨v', hR', hrest⟩ := hg w hR
    exact (ih w _ hrest hR').after_silent (plain_act rfl ⟨id, id⟩) rfl
  | item e rest ih =>
    cases e with
    | final out =>
      obtain ⟨rfl, hrest⟩ := hg
      exact ih _ hrest hR
    | assistantText step delta =>
      obtain ⟨rfl, hrest⟩ := hg
      have hR' := h.evaluateStreaming q (accumulated ++ delta) hR
      have hitem : C.Plain [.inr (.assistantText step delta)] := plain_item id
      have htext : accumulated ++ delta = accumulated ++ textOf [.assistantText step delta] := by
        simp [textOf, OrchEvent.delta]
      rw [consume, evaluateStreaming]
      refine Consuming.after ?_ hitem htext
      cases hr : (C.confidence.evaluateStreaming q (accumulated ++ delta) w).1 with
      | error e =>
        rw [run_call_bind_error _ _ hr]
        exact .broken plain_nil
      | ok score =>
        rw [run_call_bind_ok _ _ hr]
        cases score with
        | none => exact (ih _ hrest hR').after_silent (plain_act rfl ⟨id, id⟩) rfl
        | some score =>
          dsimp only
          split
          · next hscore => exact .early hscore plain_nil String.append_empty.symm
          · next hscore => exact (ih _ hrest hR').after_silent (plain_act rfl ⟨hscore, id⟩) rfl
    | _ =>
      obtain ⟨rfl, hrest⟩ := hg
      exact (ih _ hrest hR).after_silent (plain_item id) rfl

/-! ## The loop over the iterations -/

/-- The stream `S` does all that the run `T` does. -/
structure Whole (S : Outcome W (Act τ ⊕ OrchEvent) TakoError Unit)
    (T : Outcome W (Act τ ⊕ Empty) TakoError OrchOutput) : Prop where
  fed : seen fed S.trace = seen fed T.trace
  final : ∀ out, T.result = .ok out → S.result = .ok () ∧
    ∃ evs, items S.trace = evs ++ [.final out] ∧ NoFinal evs
  error : ∀ e, T.result = .error e → S.result = .error e ∧ NoFinal (items S.trace)

/-- The stream `S` does what the run `T` does up to an iteration, and ends in it with the text that
the guard is confident of. -/
def EndsEarly (C : SelfCaller W τ) (S : Outcome W (Act τ ⊕ OrchEvent) TakoError Unit)
    (T : Outcome W (Act τ ⊕ Empty) TakoError OrchOutput) : Prop :=
  ∃ before q input mid text score depth,
    S.trace = before ++ .inl (.inner q input) :: mid ++
      [.inl (.evaluateStreaming q text (.ok (some score))), .inr (.recursion depth score),
        .inr (.final ⟨text, .assistant text, {}, 1⟩)] ∧
    S.result = .ok () ∧ NoFinal (items before) ∧ NoFinal (items mid) ∧
    seen fed mid = [] ∧ seen fed S.trace <+: seen fed T.trace ∧
    text = textOf (items mid) ∧ C.minConfidence ≤ score

/-- How `stream` ends beside `run`. -/
inductive Streamed (C : SelfCaller W τ) (S : Outcome W (Act τ ⊕ OrchEvent) TakoError Unit)
    (T : Outcome W (Act τ ⊕ Empty) TakoError OrchOutput) : Prop where
  | whole (hquiet : C.Quiet S.trace) (h : Whole S T)
  | early (h : EndsEarly C S T)
  | broken (hfails : ∃ a, .inl a ∈ S.trace ∧ Fails a) (hfires : ∀ a, .inl a ∈ S.trace → ¬C.Fires a)

theorem Streamed.after {S : Outcome W (Act τ ⊕ OrchEvent) TakoError Unit}
    {T : Outcome W (Act τ ⊕ Empty) TakoError OrchOutput} (h : C.Streamed S T)
    (hquiet : C.Quiet trace) (hfinal : NoFinal (items trace))
    (hfed : seen fed trace = seen fed trace') : C.Streamed (S.after trace) (T.after trace') := by
  cases h with
  | whole hquiet' h =>
    refine .whole (hquiet.append hquiet') ⟨?_, fun out hout => ?_, fun e he => ?_⟩
    · rw [Outcome.after, Outcome.after, seen_append, seen_append, hfed, h.fed]
    · obtain ⟨hr, evs, hevs, hno⟩ := h.final out hout
      refine ⟨hr, items trace ++ evs, ?_, hfinal.append hno⟩
      rw [Outcome.after, items_append, hevs, List.append_assoc]
    · obtain ⟨hr, hno⟩ := h.error e he
      refine ⟨hr, ?_⟩
      rw [Outcome.after, items_append]
      exact hfinal.append hno
  | early h =>
    obtain ⟨before, q, input, mid, text, score, depth, htrace, hr, hbefore, hmid, hplain, hpre, htext,
      hscore⟩ := h
    refine .early ⟨trace ++ before, q, input, mid, text, score, depth, ?_, hr, ?_, hmid, hplain, ?_,
      htext, hscore⟩
    · rw [Outcome.after, htrace, List.append_assoc, List.append_assoc, List.append_assoc]
    · rw [items_append]
      exact hfinal.append hbefore
    · rw [Outcome.after, Outcome.after, seen_append, seen_append, hfed]
      exact (List.prefix_append_right_inj _).2 hpre
  | broken hfails hfires =>
    obtain ⟨a, ha, hfails⟩ := hfails
    exact .broken ⟨a, List.mem_append_right _ ha, hfails⟩ fun b hb =>
      (List.mem_append.1 hb).elim (fun hb => (hquiet b hb).1) (hfires b)

/-- What the wrapped orchestrator does within a run feeds nothing. -/
theorem fed_within (x : Generator W (Act τ) TakoError ι α) (w : W) :
    seen fed ((x.relabel .within).play.run w).trace = [] := by
  rw [play_relabel]
  refine (seen_map _ _ _).trans ?_
  exact List.filterMap_eq_nil_iff.2 fun t _ => by cases t <;> rfl

/-- The part of an iteration in which nothing is streamed. -/
theorem Streamed.iteration {S : Outcome W (Act τ ⊕ OrchEvent) TakoError Unit}
    {T : Outcome W (Act τ ⊕ Empty) TakoError OrchOutput} (h : C.Streamed S T)
    (hS : C.Plain trace) (hT : seen fed trace' = []) :
    C.Streamed (S.after trace) (T.after trace') :=
  h.after hS.quiet hS.noFinal (hS.fed.trans hT.symm)

theorem streamed_error {trace : List (Act τ ⊕ OrchEvent)} {trace' : List (Act τ ⊕ Empty)} {w v : W}
    (hS : C.Plain trace) (hT : seen fed trace' = []) :
    C.Streamed ⟨.error e, w, trace⟩ ⟨.error e, v, trace'⟩ := by
  refine .whole hS.quiet ⟨hS.fed.trans hT.symm, fun out hout => ?_, fun e' he => ?_⟩
  · cases hout
  · cases he
    exact ⟨rfl, hS.noFinal⟩

theorem streamed_final (out : OrchOutput) (w v : W) :
    C.Streamed ⟨.ok (), w, [.inr (.final out)]⟩ ⟨.ok out, v, []⟩ := by
  refine .whole (fun _ ha => nomatch List.mem_singleton.1 ha) ⟨rfl, fun out' hout => ?_, fun e he => ?_⟩
  · cases hout
    exact ⟨rfl, [], rfl, fun _ he => nomatch he⟩
  · cases he

/-- The iteration in which the guard is confident early. -/
theorem endsEarly_of_mid {score : Rat} {mid : List (Act τ ⊕ OrchEvent)} {w : W}
    (hscore : C.minConfidence ≤ score) (hmid : C.Plain mid) (htext : text = textOf (items mid))
    (T : Outcome W (Act τ ⊕ Empty) TakoError OrchOutput) :
    EndsEarly C
      ⟨.ok (), w, .inl (.inner q input) :: (mid ++ [.inl (.evaluateStreaming q text (.ok (some score)))] ++
        [.inr (.recursion depth score), .inr (.final ⟨text, .assistant text, {}, 1⟩)])⟩
      (T.after [.inl (.inner q input)]) := by
  refine ⟨[], q, input, mid, text, score, depth, ?_, rfl, fun _ he => (nomatch he), hmid.noFinal,
    hmid.fed, ?_, htext, hscore⟩
  · rw [List.append_assoc]
    rfl
  · dsimp only
    rw [seen_cons, seen_append, seen_append, hmid.fed, Outcome.after, seen_append]
    exact List.prefix_append _ _

/-- The iteration in which the guard's streaming evaluation fails. -/
theorem streamed_broken {before mid : List (Act τ ⊕ OrchEvent)} {w : W} (hbefore : C.Quiet before)
    (hmid : C.Plain mid) (T : Outcome W (Act τ ⊕ Empty) TakoError OrchOutput) :
    C.Streamed
      (Outcome.after before ⟨.error e, w, mid ++ [.inl (.evaluateStreaming q text (.error e'))]⟩) T := by
  refine .broken ⟨.evaluateStreaming q text (.error e'), ?_, trivial⟩ fun a ha => ?_
  · rw [Outcome.after]
    simp
  · rcases List.mem_append.1 ha with ha | ha
    · exact (hbefore a ha).1
    · rcases List.mem_append.1 ha with ha | ha
      · exact (hmid.quiet a ha).1
      · cases List.mem_singleton.1 ha
        exact id

/-- The guard scores the answers of a stream and of a run alike. -/
theorem evaluate_follows (h : C.Agrees R) {v w : W} (hR : R v w)
    {f : Rat → Generator W (Act τ) TakoError OrchEvent Unit}
    {g : Rat → Generator W (Act τ) TakoError Empty OrchOutput}
    (hrest : ∀ conf v w, R v w → C.Streamed ((f conf).play.run w) ((g conf).play.run v)) :
    C.Streamed ((C.evaluate q text >>= f).play.run w) ((C.evaluate q text >>= g).play.run v) := by
  obtain ⟨hsame, hR'⟩ := h.evaluate q text hR
  rw [evaluate, evaluate]
  cases hr : (C.confidence.evaluate q text v).1 with
  | error e =>
    rw [run_call_bind_error _ _ hr, run_call_bind_error _ _ (hsame.symm.trans hr)]
    exact streamed_error (plain_act rfl ⟨id, id⟩) rfl
  | ok conf =>
    rw [run_call_bind_ok _ _ hr, run_call_bind_ok _ _ (hsame.symm.trans hr)]
    exact (hrest conf _ _ hR').iteration (plain_act rfl ⟨id, id⟩) rfl

theorem streamFrom_follows (h : C.Agrees R) {v w : W} (hR : R v w)
    (hn : n + offset = C.maxDepth.toNat + 1) (hoffset : offset ≤ C.maxDepth.toNat) :
    C.Streamed ((C.streamFrom p start n offset input last).play.run w)
      ((C.runFrom p start n offset input last).play.run v) := by
  induction n generalizing offset input last v w with
  | zero => omega
  | succ n ih =>
    rw [streamFrom, runFrom, run_emit_bind, run_emit_bind]
    generalize bumpedPrincipal p (saturatingAdd start offset) = q
    have hconsume := consume_follows (q := q) h "" (h.inner q input v) hR
    generalize ho : (C.consume q (C.inner.stream q input) "" none).play.run w = o at hconsume
    have hfed := fed_within (C.inner.run q input) v
    have hcall : C.Quiet [(.inl (.inner q input) : Act τ ⊕ OrchEvent)] := fun a ha => by
      cases List.mem_singleton.1 ha
      exact ⟨id, id⟩
    cases hconsume with
    | ended hr hR' htrace =>
      refine Streamed.after ?_ hcall (fun _ he => nomatch he) rfl
      rw [run_bind_ok _ (congrArg Outcome.result ho), ho, run_relabel_bind_ok _ _ hr]
      refine Streamed.iteration ?_ htrace hfed
      refine evaluate_follows h hR' fun conf v w hR => ?_
      rw [run_yield_bind]
      refine Streamed.iteration ?_ (plain_item id) (rfl : seen fed ([] : List (Act τ ⊕ Empty)) = [])
      split
      · exact streamed_final _ w v
      · next hgo =>
        exact ih hR (show n + (offset + 1) = _ by omega) (by simp at hgo; omega)
    | failed hr htrace =>
      refine Streamed.after ?_ hcall (fun _ he => nomatch he) rfl
      rw [run_bind_error _ (congrArg Outcome.result ho), ho, run_relabel_bind_error _ _ hr]
      exact streamed_error htrace hfed
    | @early mid text w' score hscore htrace htext =>
      rw [run_bind_ok _ (congrArg Outcome.result ho), ho]
      exact .early (endsEarly_of_mid hscore htrace (htext.trans String.empty_append) _)
    | broken htrace =>
      rw [run_bind_error _ (congrArg Outcome.result ho), ho]
      exact streamed_broken hcall htrace _

/-! ## Guards that never end a stream -/

/-- The streaming evaluation is never confident. -/
def NeverFires (C : SelfCaller W τ) : Prop :=
  ∀ p text w score, (C.confidence.evaluateStreaming p text w).1 = .ok (some score) →
    score < C.minConfidence

def NeverFails (C : SelfCaller W τ) : Prop :=
  ∀ p text w e, (C.confidence.evaluateStreaming p text w).1 ≠ .error e

section

variable (hfires : C.NeverFires) (hfails : C.NeverFails)
include hfires hfails

theorem evaluateStreaming_quiet (q : Principal) (text : String) :
    (C.evaluateStreaming q text : Generator W (Act τ) TakoError ι (Option Rat)).Acts
      fun a => ¬C.Fires a ∧ ¬Fails a := by
  refine fun w => ⟨?_, .ofExcept _⟩
  dsimp only
  cases hr : (C.confidence.evaluateStreaming q text w).1 with
  | error e => exact absurd hr (hfails q text w e)
  | ok score =>
    cases score with
    | none => exact ⟨id, id⟩
    | some score => exact ⟨not_le_of_gt (hfires q text w score hr), id⟩

theorem consume_quiet (g : Generator W (Act τ) TakoError OrchEvent Unit) (q : Principal)
    (accumulated : String) (captured : Option OrchOutput) :
    (C.consume q g accumulated captured).Acts fun a => ¬C.Fires a ∧ ¬Fails a := by
  induction g generalizing accumulated captured with
  | done | fail => trivial
  | act step rest ih => exact fun w => ⟨⟨id, id⟩, ih w _ _⟩
  | item e rest ih =>
    cases e with
    | assistantText step delta =>
      refine Acts.bind (evaluateStreaming_quiet hfires hfails _ _) fun score => ?_
      cases score with
      | none => exact ih _ _
      | some score =>
        dsimp only
        split
        · trivial
        · exact ih _ _
    | _ => exact ih _ _

theorem streamFrom_quiet (p : Principal) (start n offset : Nat) (input : OrchInput)
    (last : Option OrchOutput) :
    (C.streamFrom p start n offset input last).Acts fun a => ¬C.Fires a ∧ ¬Fails a := by
  induction n generalizing offset input last with
  | zero => cases last <;> trivial
  | succ n ih =>
    refine Acts.bind (.emit ⟨id, id⟩) fun _ => ?_
    refine Acts.bind (consume_quiet hfires hfails _ _ _ _) fun consumed => ?_
    cases consumed with
    | early => trivial
    | ended captured =>
      cases captured with
      | none => trivial
      | some out =>
        refine Acts.bind (.call fun _ => ⟨id, id⟩) fun conf => ?_
        split
        · trivial
        · exact ih _ _ _

/-- No streaming evaluation of such a guard ends a stream. -/
theorem stream_quiet (p : Principal) (input : OrchInput) (w : W) :
    C.Quiet ((C.stream p input).play.run w).trace :=
  (streamFrom_quiet hfires hfails _ _ _ _ _ _).play w

end

/-- If every streaming evaluation of a stream lets it go on, it does what the run does; if one
fires, it does so up to that iteration. -/
theorem stream_follows_run (h : C.Agrees R) (p : Principal) (input : OrchInput) {v w : W}
    (hR : R v w) :
    (C.Quiet ((C.stream p input).play.run w).trace →
      Whole ((C.stream p input).play.run w) ((C.run p input).play.run v)) ∧
    ((∃ a, .inl a ∈ ((C.stream p input).play.run w).trace ∧ C.Fires a) →
      EndsEarly C ((C.stream p input).play.run w) ((C.run p input).play.run v)) := by
  have hstreamed : C.Streamed ((C.stream p input).play.run w) ((C.run p input).play.run v) :=
    streamFrom_follows h hR rfl (Nat.zero_le _)
  refine ⟨fun hquiet => ?_, fun ⟨a, ha, hfires⟩ => ?_⟩
  · cases hstreamed with
    | whole _ h => exact h
    | early h =>
      obtain ⟨before, q, input', mid, text, score, depth, htrace, -, -, -, -, -, -, hscore⟩ := h
      refine absurd hscore (hquiet (.evaluateStreaming q text (.ok (some score))) ?_).1
      rw [htrace]
      simp
    | broken hfails =>
      obtain ⟨a, ha, hfails⟩ := hfails
      exact absurd hfails (hquiet a ha).2
  · cases hstreamed with
    | whole hquiet => exact absurd hfires (hquiet a ha).1
    | early h => exact h
    | broken _ hno => exact absurd hfires (hno a ha)

/-! ## Samples -/

/-- An answer in one piece. -/
def saying : Orchestrator Nat (Act Empty) where
  run _ _ := pure ⟨"ok", .assistant "ok", {}, 1⟩
  stream _ _ := .item (.assistantText 0 "ok") (.yield (.final ⟨"ok", .assistant "ok", {}, 1⟩))

/-- A guard that counts its streaming evaluations. -/
def counting (score : Nat → Rat) (hook : Nat → Result (Option Rat)) : SelfCaller Nat Empty where
  maxDepth := 1
  minConfidence := 1
  confidence := ⟨fun _ _ w => (.ok (score w), w), fun _ _ w => (hook w, w + 1)⟩
  inner := saying

theorem saying_streamsAsRun (R : Nat → Nat → Prop) : StreamsAsRun R saying := fun _ _ _ =>
  ⟨rfl, rfl, _, rfl, rfl, rfl⟩

/-- A guard whose streaming evaluation is confident the second time. -/
def second : SelfCaller Nat Empty :=
  counting (fun _ => 0) fun w => .ok (if w = 0 then none else some 1)

theorem second_agrees : second.Agrees fun _ _ => True where
  inner := saying_streamsAsRun _
  evaluate _ _ _ _ _ := ⟨rfl, trivial⟩
  evaluateStreaming _ _ _ _ _ := trivial

/-- In the second request the guard is confident early. -/
theorem stream_follows_run_second :
    EndsEarly second ((second.stream ⟨"acme", "u", [], none, []⟩ ⟨[], none⟩).play.run 1)
      ((second.run ⟨"acme", "u", [], none, []⟩ ⟨[], none⟩).play.run 0) := by
  refine (stream_follows_run second_agrees ⟨"acme", "u", [], none, []⟩ ⟨[], none⟩ trivial).2
    ⟨.evaluateStreaming _ ("" ++ "ok") (.ok (some 1)), List.mem_of_getElem? (i := 2) rfl, ?_⟩
  exact Rat.le_refl

def failing : SelfCaller Nat Empty := counting (fun _ => 1) fun _ => .error (.invalid "hook")

/-- A guard that is confident once it was asked about a part of an answer. -/
def noticing : SelfCaller Nat Empty := counting (fun w => w) fun _ => .ok none

/-- A streaming evaluation that never fires breaks the stream where it fails, and where the guard
remembers it. -/
theorem hook_breaks_stream :
    (StreamsAsRun Eq failing.inner ∧ failing.NeverFires ∧
      ¬Whole ((failing.stream ⟨"acme", "u", [], none, []⟩ ⟨[], none⟩).play.run 0)
        ((failing.run ⟨"acme", "u", [], none, []⟩ ⟨[], none⟩).play.run 0)) ∧
    StreamsAsRun Eq noticing.inner ∧ noticing.NeverFires ∧ noticing.NeverFails ∧
      ¬Whole ((noticing.stream ⟨"acme", "u", [], none, []⟩ ⟨[], none⟩).play.run 0)
        ((noticing.run ⟨"acme", "u", [], none, []⟩ ⟨[], none⟩).play.run 0) := by
  refine ⟨⟨saying_streamsAsRun _, fun _ _ _ _ h => ?_, fun h => ?_⟩,
    saying_streamsAsRun _, fun _ _ _ _ h => ?_, fun _ _ _ _ h => ?_, fun h => ?_⟩
  · cases h
  · cases (h.final _ rfl).1
  · cases h
  · cases h
  · exact absurd (congrArg List.length h.fed) (by decide)

end SelfCaller

end Tako.Orchestrator
