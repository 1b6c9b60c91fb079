import Tako.Orchestrator.SelfCaller.Iterations
import Tako.Rust.Str

/-!
# The texts of a `SelfCaller`

`SelfCaller::stream` forwards the texts of all iterations, also of those that the guard rejects. So
it yields the output's text if and only if the last iteration alone has text and the guard accepts
it as it was streamed (`SelfCaller.textOf_eq_iff`).
-/

namespace Tako.Orchestrator

open Generator

variable {W τ : Type}

/-- An output is its message's text, and no longer than what was streamed. -/
def Spoken (evs : List OrchEvent) : Prop :=
  ∀ out, lastFinal evs = some out →
    out.text = out.message.text ∧ out.text.length ≤ (textOf evs).length

/-- The outputs of an orchestrator's streams are spoken. -/
def Vocal (O : Orchestrator W τ) : Prop :=
  ∀ p input, (O.stream p input).Settles (fun _ => (none : Option Empty)) (fun _ evs _ => Spoken evs)
    [] []

namespace SelfCaller

/-- What the guard is asked about. -/
def guardText : Act τ → Option String
  | .evaluate _ text _ | .evaluateStreaming _ text _ => some text
  | _ => none

/-- Before the last iteration nothing is streamed, and in the end the guard is asked about what was
streamed then. -/
def SaysOnce (l : List (Act τ ⊕ OrchEvent)) : Prop :=
  textOf (items (earlierIterations l)) = "" ∧
    (lastAct l).bind guardText = some (textOf (items (lastIteration l)))

variable {C : SelfCaller W τ}

theorem textOf_iteration (pre post : List (Act τ ⊕ OrchEvent)) (q : Principal) (input : OrchInput)
    (hcalls : ∀ t ∈ post, IsCall t = false) :
    textOf (items (pre ++ .inl (.inner q input) :: post)) =
      textOf (items (earlierIterations (pre ++ .inl (.inner q input) :: post))) ++
        textOf (items (lastIteration (pre ++ .inl (.inner q input) :: post))) := by
  rw [earlierIterations_eq q input hcalls, lastIteration_eq q input hcalls, ← textOf_append,
    ← items_append, List.append_assoc]
  rfl

/-- The guard is asked last about the output's text, which is no longer than the last iteration's
text. -/
theorem Ended.spoken {out : OrchOutput} {l : List (Act τ ⊕ OrchEvent)}
    (h : Ended (fun _ => (none : Option Empty)) (fun _ evs _ => Spoken evs) out l) :
    textOf (items l) = textOf (items (earlierIterations l)) ++ textOf (items (lastIteration l)) ∧
      (lastAct l).bind guardText = some out.message.text ∧
      out.message.text.length ≤ (textOf (items (lastIteration l))).length := by
  cases h with
  | @accepted _ _ q input pre post evs hcalls hlast hfinal htext hQ =>
    obtain ⟨hout, hlen⟩ := hQ out hfinal
    refine ⟨textOf_iteration pre post q input hcalls, ?_, ?_⟩
    · rw [lastAct_iteration pre q input hlast, ← hout]
      rfl
    · rw [lastIteration_eq q input hcalls, ← hout, ← htext]
      exact hlen
  | @early _ _ q input pre post hcalls hlast hout =>
    have htext : out.message.text = textOf (items post) := by
      rw [hout]
      exact String.empty_append
    refine ⟨textOf_iteration pre post q input hcalls, ?_, ?_⟩
    · rw [lastAct_iteration pre q input hlast, htext, hout]
      rfl
    · rw [lastIteration_eq q input hcalls, htext]

/-- The streamed text is the output's exactly if it is the last iteration's alone and accepted as it
was streamed. -/
theorem textOf_eq_iff (h : Vocal C.inner) {p : Principal} {input : OrchInput} {w : W}
    {out : OrchOutput} (hmem : .inr (.final out) ∈ ((C.stream p input).play.run w).trace) :
    textOf (items ((C.stream p input).play.run w).trace) = out.message.text ↔
      SaysOnce ((C.stream p input).play.run w).trace := by
  obtain ⟨htext, hguard, hlen⟩ := (stream_ends h hmem).spoken
  rw [htext, Str.append_eq_iff hlen, SaysOnce, hguard, Option.some_inj]
  exact and_congr_right fun _ => eq_comm

/-! ## Wrapping again -/

/-- What the loop over the inner stream passes on is no longer than what it has streamed. -/
def Consumed.IsSpoken (evs : List OrchEvent) : Consumed → Prop
  | .early _ text => text.length ≤ (textOf evs).length
  | .ended captured => ∀ out ∈ captured,
    out.text = out.message.text ∧ out.text.length ≤ (textOf evs).length

/-- One more event in both. -/
theorem textOf_concat_length_le {text : String} {evs : List OrchEvent}
    (h : text.length ≤ (textOf evs).length) (e : OrchEvent) :
    (text ++ textOf [e]).length ≤ (textOf (evs ++ [e])).length := by
  rw [textOf_append, String.length_append, String.length_append]
  exact Nat.add_le_add_right h _

theorem consume_spoken {g : Generator W (Act τ) TakoError OrchEvent Unit} {q : Principal}
    {given evs : List OrchEvent} {accumulated : String}
    (hg : g.Settles (fun _ => (none : Option Empty)) (fun _ evs _ => Spoken evs) [] given)
    (hgiven : (textOf given).length ≤ (textOf evs).length)
    (haccumulated : accumulated.length ≤ (textOf evs).length) :
    (C.consume q g accumulated (lastFinal given)).Settles (fun _ => (none : Option Empty))
      (fun _ evs consumed => consumed.IsSpoken evs) [] evs := by
  induction g generalizing given evs accumulated with
  | done a =>
    intro out hout
    obtain ⟨htext, hlen⟩ := hg out hout
    exact ⟨htext, hlen.trans hgiven⟩
  | fail e => trivial
  | act step rest ih => exact fun w => ih w (hg w) hgiven haccumulated
  | item e rest ih =>
    have hlonger := textOf_concat_length_le hgiven e
    rw [← textOf_append] at hlonger
    cases e with
    | final out =>
      have hrest := ih hg (hlonger.trans_eq ?_) haccumulated
      · rwa [lastFinal_append_final] at hrest
      · rw [textOf_append]
        exact congrArg String.length String.append_empty
    | assistantText step delta =>
      have hdelta : (accumulated ++ delta).length ≤
          (textOf (evs ++ [.assistantText step delta])).length := by
        have h := textOf_concat_length_le haccumulated (.assistantText step delta)
        rwa [show textOf [.assistantText step delta] = delta from String.empty_append] at h
      have hrest := ih hg hlonger hdelta
      rw [lastFinal_append_item id] at hrest
      refine Settles.bind (R := fun ks evs' _ => ks = [] ∧ evs' = evs ++ [.assistantText step delta])
        (.call fun _ => ⟨rfl, rfl⟩) ?_
      rintro _ _ score ⟨rfl, rfl⟩
      cases score with
      | none => exact hrest
      | some score =>
        dsimp only
        split
        · exact hdelta
        · exact hrest
    | _ =>
      have hrest := ih hg hlonger
        (haccumulated.trans (by rw [textOf_append, String.length_append]; omega))
      rwa [lastFinal_append_item id] at hrest

theorem spoken_concat_final {evs : List OrchEvent} {out : OrchOutput}
    (htext : out.text = out.message.text) (hlen : out.text.length ≤ (textOf evs).length) :
    Spoken (evs ++ [.final out]) := by
  intro out' hout
  rw [lastFinal_append_final] at hout
  cases hout
  refine ⟨htext, ?_⟩
  rw [textOf_append, String.length_append]
  omega

theorem textOf_concat_recursion (evs : List OrchEvent) (depth : Nat) (score : Rat) :
    textOf (evs ++ [.recursion depth score]) = textOf evs := by
  rw [textOf_append]
  exact String.append_empty

theorem streamFrom_spoken (h : Vocal C.inner) (p : Principal) (start n offset : Nat)
    (input : OrchInput) {last : Option OrchOutput} {evs : List OrchEvent}
    (hlast : (Consumed.ended last).IsSpoken evs) :
    (C.streamFrom p start n offset input last).Settles (fun _ => (none : Option Empty))
      (fun _ evs _ => Spoken evs) [] evs := by
  induction n generalizing offset input last evs with
  | zero =>
    cases last with
    | none => trivial
    | some out => exact spoken_concat_final (hlast out rfl).1 (hlast out rfl).2
  | succ n ih =>
    refine Settles.bind (R := fun ks evs' _ => ks = [] ∧ evs' = evs) (fun _ => ⟨rfl, rfl⟩) ?_
    rintro _ evs _ ⟨rfl, rfl⟩
    have hinner (q : Principal) : (C.consume q (C.inner.stream q input) "" (lastFinal [])).Settles
        (fun _ => (none : Option Empty)) (fun _ evs consumed => consumed.IsSpoken evs) [] evs :=
      consume_spoken (h q input) (Nat.zero_le _) (Nat.zero_le _)
    refine Settles.bind (hinner _) ?_
    rintro ks evs consumed hconsumed
    obtain rfl : ks = [] := List.eq_nil_iff_forall_not_mem.2 fun k => k.elim
    cases consumed with
    | early score text =>
      refine spoken_concat_final String.empty_append.symm ?_
      rw [textOf_concat_recursion]
      exact hconsumed
    | ended captured =>
      cases captured with
      | none => trivial
      | some out =>
        obtain ⟨htext, hlen⟩ := hconsumed out rfl
        refine Settles.bind (R := fun ks evs' _ => ks = [] ∧ evs' = evs) (.call fun _ => ⟨rfl, rfl⟩) ?_
        rintro _ _ conf ⟨rfl, rfl⟩
        rw [← textOf_concat_recursion _ _ conf] at hlen
        change Settles _ _ _ (_ ++ [_]) _
        split
        · exact spoken_concat_final htext hlen
        · refine ih _ _ fun out' hout' => ?_
          cases hout'
          exact ⟨htext, hlen⟩

/-- What wraps an orchestrator whose outputs are spoken is one itself. -/
theorem vocal_toOrchestrator (h : Vocal C.inner) : Vocal C.toOrchestrator := fun p input =>
  streamFrom_spoken h p _ _ _ input (by simp [Consumed.IsSpoken])

end SelfCaller

end Tako.Orchestrator
