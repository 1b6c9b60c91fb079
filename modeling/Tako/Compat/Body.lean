import Tako.Compat.Content
import Tako.Orchestrator.Conductor.EventOrder
import Tako.Orchestrator.SelfCaller.EventOrder

/-!
# The body of a streamed answer

What a client reads of a request to `/v1/chat/completions` that asks for a stream: open chunks and
extensions, one closing frame, which says how the run has ended, and `[DONE]`. Orchestrators whose
streams keep their events in order are answered for in this form, also where the stream fails at
once and a run stands in for it (`chatCompletions_well_formed`).
-/

namespace Tako.Compat

open Auth Orchestrator

/-! ## What a client reads -/

/-- A frame of an answer under way, under the answer's id and model. -/
def SseEvent.Open (id model : String) : SseEvent → Prop
  | .chunk c => c.id = id ∧ c.model = model ∧ c.usage = none ∧
      ∀ choice ∈ c.choices, choice.finishReason = none
  | .extension _ _ => True
  | .error _ | .done => False

/-- The id in an extension's payload. -/
def SseEvent.extensionId (name : String) : SseEvent → Option String
  | .extension n (.object members) =>
    if n = name then
      match members.lookup "id" with
      | some (.string id) => some id
      | _ => none
    else none
  | _ => none

/-- The last frame but one: the chunk that finishes the answer, with its usage, or the error. -/
def closing (fmt : Formats) (id model : String) : Result OrchOutput → SseEvent
  | .ok output => .chunk {
      id
      model
      choices := [⟨0, .object [], some "stop"⟩]
      usage := some (usageJson output.usage) }
  | .error e => .error (errorBody (e.display fmt.debugDuration) "internal_error")

/-- The frames of a whole answer. The results are those of some of the tool calls, in their order,
and of all of them if `paired`. -/
def IsBody (fmt : Formats) (id model : String) (frames : List SseEvent) (r : Result OrchOutput)
    (paired : Prop) : Prop :=
  ∃ before, frames = before ++ [closing fmt id model r, .done] ∧
    (∀ frame ∈ before, frame.Open id model) ∧
    (before.filterMap (·.extensionId "tako.tool_call_result")).Sublist
      (before.filterMap (·.extensionId "tako.tool_call_start")) ∧
    (paired → before.filterMap (·.extensionId "tako.tool_call_start") =
      before.filterMap (·.extensionId "tako.tool_call_result"))

/-! ## The frames of events -/

variable (fmt : Formats) (id model : String)

/-- Only the final output's frames close an answer. -/
theorem eventFrames_open {ev : OrchEvent} (h : Progress.final? ev = none) :
    ∀ frame ∈ eventFrames fmt.f32ToJson id model ev, frame.Open id model := by
  intro frame hframe
  cases ev with
  | assistantText step delta =>
    unfold eventFrames eventToTakoExtensions eventToPayloads at hframe
    dsimp only at hframe
    split at hframe
    · cases hframe
    · obtain rfl := List.mem_singleton.1 hframe
      exact ⟨rfl, rfl, rfl, by simp⟩
  | toolCallStart step name tcId =>
    rcases List.mem_pair.1 hframe with rfl | rfl
    · trivial
    · exact ⟨rfl, rfl, rfl, by simp⟩
  | toolCallResult | verifierScore | recursion =>
    obtain rfl := List.mem_singleton.1 hframe
    trivial
  | stepStart step => cases hframe
  | final output => cases h

theorem eventFrames_final (output : OrchOutput) :
    eventFrames fmt.f32ToJson id model (.final output) = [closing fmt id model (.ok output)] := rfl

/-- The ids of the calls that begin, among the frames. -/
theorem eventFrames_starts (ev : OrchEvent) :
    (eventFrames fmt.f32ToJson id model ev).filterMap (·.extensionId "tako.tool_call_start") =
      (Progress.toolCallStart? ev).toList := by
  cases ev with
  | assistantText step delta =>
    unfold eventFrames eventToTakoExtensions eventToPayloads
    dsimp only
    split <;> rfl
  | toolCallStart step name tcId =>
    simp [eventFrames, eventToTakoExtensions, eventToPayloads, SseEvent.extensionId,
      Progress.toolCallStart?]
  | toolCallResult step tcId result isError =>
    simp [eventFrames, eventToTakoExtensions, eventToPayloads, SseEvent.extensionId,
      Progress.toolCallStart?]
  | verifierScore | recursion =>
    simp [eventFrames, eventToTakoExtensions, eventToPayloads, SseEvent.extensionId,
      Progress.toolCallStart?]
  | stepStart | final => rfl

/-- The ids of the calls whose results come, among the frames. -/
theorem eventFrames_results (ev : OrchEvent) :
    (eventFrames fmt.f32ToJson id model ev).filterMap (·.extensionId "tako.tool_call_result") =
      (Progress.toolCallResult? ev).toList := by
  cases ev with
  | assistantText step delta =>
    unfold eventFrames eventToTakoExtensions eventToPayloads
    dsimp only
    split <;> rfl
  | toolCallStart step name tcId =>
    simp [eventFrames, eventToTakoExtensions, eventToPayloads, SseEvent.extensionId,
      Progress.toolCallResult?]
  | toolCallResult step tcId result isError =>
    simp [eventFrames, eventToTakoExtensions, eventToPayloads, SseEvent.extensionId,
      Progress.toolCallResult?]
  | verifierScore | recursion =>
    simp [eventFrames, eventToTakoExtensions, eventToPayloads, SseEvent.extensionId,
      Progress.toolCallResult?]
  | stepStart | final => rfl

/-- What is read off the frames of each event is read off the events. -/
theorem filterMap_frames {f : SseEvent → Option String} {g : OrchEvent → Option String}
    (h : ∀ ev, (eventFrames fmt.f32ToJson id model ev).filterMap f = (g ev).toList)
    (evs : List OrchEvent) :
    (evs.flatMap (eventFrames fmt.f32ToJson id model)).filterMap f = evs.filterMap g := by
  induction evs with
  | nil => rfl
  | cons ev evs ih =>
    rw [List.flatMap_cons, List.filterMap_append, h, ih]
    cases hg : g ev with
    | none => rw [List.filterMap_cons_none hg, Option.toList_none, List.nil_append]
    | some s => rw [List.filterMap_cons_some hg, Option.toList_some, List.singleton_append]

theorem frames_open {evs : List OrchEvent} (h : evs.filterMap Progress.final? = []) :
    ∀ frame ∈ evs.flatMap (eventFrames fmt.f32ToJson id model), frame.Open id model := by
  intro frame hframe
  obtain ⟨ev, hev, hframe⟩ := List.mem_flatMap.1 hframe
  exact eventFrames_open fmt id model (List.filterMap_eq_nil_iff.1 h ev hev) frame hframe

/-! ## Answers -/

/-- An orchestrator whose streams' events are in order, up to a failure or a panic. -/
def Serves {W : Type} (R : EventRules) (orch : Service W) : Prop :=
  ∀ p input w, ∃ (evs : List OrchEvent) (failure : Option TakoError) (panics : Bool),
    (orch.stream p input w).1 = ⟨evs.map .ok ++ (failure.map .error).toList, panics⟩ ∧
      InOrder R evs (failure.isNone && !panics) ∧ (panics = true → failure = none)

/-- Whether each call has its result: where none is given up, and calls are made one at a time or
the run succeeds. -/
def Pairs (R : EventRules) (r : Result OrchOutput) : Prop :=
  R.lossy = false ∧ (R.concurrent = false ∨ r.isOk = true)

/-- The frames of a stream that has succeeded. -/
theorem body_of_ok {R : EventRules} {evs : List OrchEvent} (h : InOrder R evs true) :
    ∃ output, evs.getLast? = some (.final output) ∧ IsBody fmt id model
      (evs.flatMap (eventFrames fmt.f32ToJson id model) ++ [.done]) (.ok output)
      (Pairs R (.ok output)) := by
  obtain ⟨before, output, rfl, hbefore⟩ := h.final_last
  refine ⟨output, List.getLast?_concat, before.flatMap (eventFrames fmt.f32ToJson id model), ?_,
    frames_open fmt id model hbefore, ?_⟩
  · rw [List.flatMap_append, List.append_assoc, List.flatMap_singleton, eventFrames_final]
    rfl
  · have hstart : [OrchEvent.final output].filterMap Progress.toolCallStart? = [] := rfl
    have hresult : [OrchEvent.final output].filterMap Progress.toolCallResult? = [] := rfl
    have hsome := h.results_sublist
    have hall := fun hR : R.lossy = false => h.starts_eq_results hR (.inr rfl)
    rw [List.filterMap_append, List.filterMap_append, hstart, hresult, List.append_nil,
      List.append_nil] at hsome hall
    rw [filterMap_frames fmt id model (eventFrames_starts fmt id model),
      filterMap_frames fmt id model (eventFrames_results fmt id model)]
    exact ⟨hsome, fun hpaired => hall hpaired.1⟩

variable {fmt id model}

/-- The frames of one that has failed. -/
theorem body_of_error {R : EventRules} {evs : List OrchEvent} (h : InOrder R evs false)
    (e : TakoError) :
    IsBody fmt id model
      (evs.flatMap (eventFrames fmt.f32ToJson id model) ++ itemFrames fmt id model (.error e) ++
        [.done]) (.error e) (Pairs R (.error e)) := by
  refine ⟨evs.flatMap (eventFrames fmt.f32ToJson id model), by rw [List.append_assoc]; rfl,
    frames_open fmt id model h.no_final, ?_⟩
  rw [filterMap_frames fmt id model (eventFrames_starts fmt id model),
    filterMap_frames fmt id model (eventFrames_results fmt id model)]
  exact ⟨h.results_sublist, fun hpaired =>
    h.starts_eq_results hpaired.1 (.inl (hpaired.2.resolve_right Bool.false_ne_true))⟩

/-- The frames of a run that stands in for a stream. -/
theorem body_of_run (r : Result OrchOutput) (paired : Prop) :
    IsBody fmt id model
      ((emulatedTextThenFinal (r.map .final)).flatMap (itemFrames fmt id model) ++ [.done]) r
      paired := by
  cases r with
  | error e =>
    exact ⟨[], rfl, fun _ h => absurd h List.not_mem_nil, List.Sublist.refl _, fun _ => rfl⟩
  | ok output =>
    let texts : List OrchEvent := if output.text = "" then [] else [.assistantText 0 output.text]
    have htexts : emulatedTextThenFinal (.ok (.final output)) =
        texts.map .ok ++ [.ok (.final output)] := by
      unfold emulatedTextThenFinal
      dsimp only [texts]
      split <;> rfl
    have hmem : ∀ ev ∈ texts, ∃ step delta, ev = .assistantText step delta := by
      intro ev hev
      dsimp only [texts] at hev
      split at hev
      · cases hev
      · exact ⟨0, output.text, List.mem_singleton.1 hev⟩
    have hnone {f : OrchEvent → Option String}
        (hf : ∀ step delta, f (.assistantText step delta) = none) :
        texts.filterMap f = [] := by
      refine List.filterMap_eq_nil_iff.2 fun ev hev => ?_
      obtain ⟨step, delta, rfl⟩ := hmem ev hev
      exact hf step delta
    refine ⟨texts.flatMap (eventFrames fmt.f32ToJson id model), ?_,
      frames_open fmt id model ?_, ?_⟩
    · change (emulatedTextThenFinal (.ok (.final output))).flatMap _ ++ _ = _
      rw [htexts, List.flatMap_append, List.flatMap_map, List.append_assoc]
      rfl
    · refine List.filterMap_eq_nil_iff.2 fun ev hev => ?_
      obtain ⟨step, delta, rfl⟩ := hmem ev hev
      rfl
    · rw [filterMap_frames fmt id model (eventFrames_starts fmt id model),
        filterMap_frames fmt id model (eventFrames_results fmt id model), hnone fun _ _ => rfl,
        hnone fun _ _ => rfl]
      exact ⟨List.Sublist.refl _, fun _ => rfl⟩

/-- A stream's outcome is its last item, or `none` after a panic. -/
def Streamed.EndsIn (s : Streamed) : Option (Result OrchOutput) → Prop
  | some r => s.panics = false ∧ s.items.getLast? = some (r.map .final)
  | none => s.panics = true

/-- What a request for a stream comes to: the outcome of the stream, or, where it fails at once,
that of the run which stands in for it. -/
def ComesTo {W : Type} (orch : Service W) (p : Principal) (input : OrchInput) (w : W)
    (r : Option (Result OrchOutput)) : Prop :=
  match orch.stream p input w with
  | (⟨.error _ :: _, _⟩, v) => r = (orch.run p input v).1
  | (s, _) => s.EndsIn r

/-- What is answered to a request for a stream that comes to `r`: a body with that outcome, or only
open frames where the orchestrator panics, or nothing where it panics at once. -/
inductive IsStreamed (fmt : Formats) (R : EventRules) (id model : String) :
    Option (Result OrchOutput) → Response → Prop
  | body {r frames} : IsBody fmt id model frames r (Pairs R r) →
      IsStreamed fmt R id model (some r) (.sse frames false)
  | panicked {frames} : (∀ frame ∈ frames, frame.Open id model) →
      IsStreamed fmt R id model none (.sse frames true)
  | dropped : IsStreamed fmt R id model none .dropped

/-- Whatever the stream yields first, the answer has its form. -/
theorem chatCompletionsStream_isStreamed {W : Type} {R : EventRules} {orch : Service W}
    (h : Serves R orch) (nanos : Nat) (p : Principal) (body : OaChatRequest) (w : W) :
    ∃ r, ComesTo orch p (orchInput body) w r ∧
      IsStreamed fmt R (newChunkId nanos) body.model r
        (chatCompletionsStream fmt orch nanos p body w).1 := by
  obtain ⟨evs, failure, panics, hitems, horder, hpanics⟩ := h p (orchInput body) w
  unfold chatCompletionsStream ComesTo
  generalize orch.stream p (orchInput body) w = sw at hitems
  obtain ⟨s, v⟩ := sw
  obtain rfl : s = _ := hitems
  have hframes : (evs.map Except.ok).flatMap (itemFrames fmt (newChunkId nanos) body.model) =
      evs.flatMap (eventFrames fmt.f32ToJson (newChunkId nanos) body.model) :=
    List.flatMap_map _ _ _
  cases failure with
  | none =>
    cases panics with
    | true =>
      cases evs with
      | nil => exact ⟨none, rfl, .dropped⟩
      | cons ev evs =>
        refine ⟨none, rfl, ?_⟩
        change IsStreamed fmt R _ _ none (sseResponse fmt nanos body.model
          ⟨(ev :: evs).map .ok ++ [], true⟩)
        rw [sseResponse, List.append_nil, hframes, if_pos rfl, List.append_nil]
        exact .panicked (frames_open fmt (newChunkId nanos) body.model horder.no_final)
    | false =>
      obtain ⟨output, hlast, hbody⟩ := body_of_ok fmt (newChunkId nanos) body.model horder
      have hends : Streamed.EndsIn ⟨evs.map .ok ++ [], false⟩ (some (.ok output)) := by
        refine ⟨rfl, ?_⟩
        rw [List.append_nil, List.getLast?_map, hlast]
        rfl
      refine ⟨some (.ok output), ?_, ?_⟩
      · cases evs with
        | nil => exact hends
        | cons ev evs => exact hends
      · have hresp : sseResponse fmt nanos body.model ⟨evs.map .ok ++ [], false⟩ =
            .sse (evs.flatMap (eventFrames fmt.f32ToJson (newChunkId nanos) body.model) ++ [.done])
              false := by
          rw [sseResponse, List.append_nil, hframes]
          rfl
        cases evs with
        | nil => exact .body hbody
        | cons ev evs =>
          change IsStreamed fmt R _ _ _
            (sseResponse fmt nanos body.model ⟨(ev :: evs).map .ok ++ [], false⟩)
          rw [hresp]
          exact .body hbody
  | some e =>
    cases panics with
    | true => cases hpanics rfl
    | false =>
      cases evs with
      | nil =>
        -- the stream fails at once, and a run stands in for it
        refine ⟨_, rfl, ?_⟩
        change IsStreamed fmt R _ _ _
          (sseResponse fmt nanos body.model (emulate orch p (orchInput body) v).1)
        unfold emulate
        generalize orch.run p (orchInput body) v = rv
        obtain ⟨r, v'⟩ := rv
        cases r with
        | none => exact .panicked (List.forall_mem_nil _)
        | some r => exact .body (body_of_run r (Pairs R r))
      | cons ev evs =>
        have hends : Streamed.EndsIn ⟨(ev :: evs).map .ok ++ [.error e], false⟩ (some (.error e)) :=
          ⟨rfl, List.getLast?_concat⟩
        refine ⟨some (.error e), hends, ?_⟩
        have hresp : sseResponse fmt nanos body.model ⟨(ev :: evs).map .ok ++ [.error e], false⟩ =
            .sse ((ev :: evs).flatMap (eventFrames fmt.f32ToJson (newChunkId nanos) body.model) ++
              itemFrames fmt (newChunkId nanos) body.model (.error e) ++ [.done]) false := by
          rw [sseResponse, List.flatMap_append, hframes, List.flatMap_singleton]
          rfl
        change IsStreamed fmt R _ _ _
          (sseResponse fmt nanos body.model ⟨(ev :: evs).map .ok ++ [.error e], false⟩)
        rw [hresp]
        exact .body (body_of_error horder e)

/-! ## Requests -/

variable {W : Type}

/-- A request without a principal is refused, whatever the orchestrator. -/
theorem resolvePrincipal_error {headers : HeaderMap} {auth : AuthResolver W} {w v : W}
    {resp : Response} (h : resolvePrincipal fmt headers auth w = (.error resp, v)) :
    ∃ message, resp = .error 401 (errorBody message "auth") := by
  unfold resolvePrincipal at h
  split at h
  · cases h
    exact ⟨_, rfl⟩
  · split at h
    · cases h
    · cases h
      exact ⟨_, rfl⟩

/-- What is answered to a request for a run that comes to `r`: the output's text and usage, or the
error with the status of its kind, or nothing where the orchestrator panics. -/
inductive IsAnswer (fmt : Formats) (id model : String) :
    Option (Result OrchOutput) → Response → Prop
  | completion {output} : IsAnswer fmt id model (some (.ok output)) (.completion {
      id
      object := "chat.completion"
      model
      choices := [⟨0, ⟨"assistant", output.message.text⟩, "stop"⟩]
      usage := usageToOa output.usage })
  | policyDenied {reason} : IsAnswer fmt id model (some (.error (.policyDenied reason)))
      (.error 403 (errorBody reason "policy_denied"))
  | budgetExhausted {reason} : IsAnswer fmt id model (some (.error (.budgetExhausted reason)))
      (.error 402 (errorBody reason "budget_exhausted"))
  | failed {e} : (∀ reason, e ≠ .policyDenied reason ∧ e ≠ .budgetExhausted reason) →
      IsAnswer fmt id model (some (.error e))
        (.error 500 (errorBody (e.display fmt.debugDuration) "internal_error"))
  | dropped : IsAnswer fmt id model none .dropped

theorem runResponse_isAnswer (nanos : Nat) (model : String) (r : Option (Result OrchOutput)) :
    IsAnswer fmt (newChunkId nanos) model r (runResponse fmt nanos model r) := by
  cases r with
  | none => exact .dropped
  | some r =>
    cases r with
    | ok output => exact .completion
    | error e =>
      cases e with
      | policyDenied reason => exact .policyDenied
      | budgetExhausted reason => exact .budgetExhausted
      | _ => exact .failed (by simp)

/-- Every request is answered in form. Without a principal that is a 401, and the orchestrator is
not asked. With one, a stream is a body: open frames under one id, the results of the tool
calls in the calls' order, one closing frame that says what the request comes to, and `[DONE]`; a
panic leaves open frames only. A request for no stream is answered by what its run comes to. -/
theorem chatCompletions_well_formed (fmt : Formats) (R : EventRules) (state : AppState W)
    (h : Serves R state.orch) (nanos : Nat) (headers : HeaderMap) (body : OaChatRequest) (w : W) :
    (∀ resp v, resolvePrincipal fmt headers state.auth w = (.error resp, v) →
      (∃ message, resp = .error 401 (errorBody message "auth")) ∧
        ∀ orch, chatCompletions fmt ⟨orch, state.auth⟩ nanos headers body w = (resp, v)) ∧
    ∀ p v, resolvePrincipal fmt headers state.auth w = (.ok p, v) →
      (body.stream = true → ∃ r, ComesTo state.orch p (orchInput body) v r ∧
        IsStreamed fmt R (newChunkId nanos) body.model r
          (chatCompletions fmt state nanos headers body w).1) ∧
      (body.stream = false → IsAnswer fmt (newChunkId nanos) body.model
        (state.orch.run p (orchInput body) v).1
        (chatCompletions fmt state nanos headers body w).1) := by
  refine ⟨fun resp v hauth => ⟨resolvePrincipal_error hauth, fun orch => ?_⟩, fun p v hauth => ?_⟩
  · unfold chatCompletions
    rw [hauth]
  · unfold chatCompletions
    rw [hauth]
    dsimp only
    refine ⟨fun hstream => ?_, fun hstream => ?_⟩
    · rw [if_pos hstream]
      exact chatCompletionsStream_isStreamed h nanos p body v
    · rw [if_neg (by simp [hstream])]
      exact runResponse_isAnswer nanos body.model _

/-! ## The orchestrators that are served -/

/-- An orchestrator as a service, if its events are in order. -/
theorem service_serves {τ τ' ε : Type} {R : EventRules} {failure : ε → Option TakoError}
    {run : Principal → OrchInput → W → Outcome W τ ε OrchOutput} {event : τ' → Option OrchEvent}
    {stream : Principal → OrchInput → W → Outcome W τ' ε Unit}
    (h : ∀ p input w, InOrder R ((stream p input w).trace.filterMap event)
      (stream p input w).result.isOk) : Serves R (service failure run event stream) := by
  intro p input w
  have horder := h p input w
  change ∃ evs f panics, streamed failure _ (stream p input w).result = _ ∧ _
  cases hr : (stream p input w).result with
  | ok u =>
    rw [hr] at horder
    exact ⟨_, none, false, by simp [streamed], horder, fun _ => rfl⟩
  | error e =>
    rw [hr] at horder
    refine ⟨_, failure e, (failure e).isNone, rfl, ?_, fun hnone => by simpa using hnone⟩
    cases hf : failure e with
    | none => exact horder
    | some e' => exact horder

theorem ofSingleAgent_serves (A : SingleAgent W) :
    Serves { limit := A.maxSteps } (ofSingleAgent A) :=
  service_serves fun p input w => A.stream_inOrder p input w

theorem ofConductor_serves (C : Conductor W) (S : Schedule W) :
    Serves { limit := C.maxSteps, concurrent := true, lossy := true } (ofConductor C S) :=
  service_serves fun _ input w => Conductor.stream_inOrder rfl (Nat.le_refl _) (.inl rfl) input w

theorem ofSelfCaller_serves {τ : Type} {R : EventRules} {C : SelfCaller W τ}
    (h : KeepsOrder R C.inner) : Serves R.wrapped (ofSelfCaller C) :=
  service_serves fun p input w => (SelfCaller.keepsOrder_toOrchestrator h).inOrder p input w

theorem ofSelfCaller_unconvinced_serves :
    Serves { limit := 1, recursive := true } (ofSelfCaller SelfCaller.unconvinced) :=
  ofSelfCaller_serves (R := { limit := 1 }) SelfCaller.stepwise_keepsOrder

/-- Three kinds of orchestrators, each asked for a stream. -/
theorem chatCompletions_well_formed_hi :
    (∃ r, ComesTo (ofSingleAgent (Sample.agent Sample.toolThenDone)) Sample.acme
        (orchInput { askHi with stream := true }) 0 r ∧
      IsStreamed formats { limit := 8 } (newChunkId 0) "m" r
        (chatCompletions formats ⟨ofSingleAgent (Sample.agent Sample.toolThenDone), tokens⟩ 0
          bearerT { askHi with stream := true } 0).1) ∧
    (∃ r, ComesTo (ofConductor haltingConductor fun _ _ _ => []) Sample.acme
        (orchInput { askHi with stream := true }) 0 r ∧
      IsStreamed formats { limit := haltingConductor.maxSteps, concurrent := true, lossy := true }
          (newChunkId 0) "m" r
        (chatCompletions formats ⟨ofConductor haltingConductor fun _ _ _ => [], tokens⟩ 0 bearerT
          { askHi with stream := true } 0).1) ∧
    ∃ r, ComesTo (ofSelfCaller SelfCaller.unconvinced) Sample.acme
        (orchInput { askHi with stream := true }) 0 r ∧
      IsStreamed formats { limit := 1, recursive := true } (newChunkId 0) "m" r
        (chatCompletions formats ⟨ofSelfCaller SelfCaller.unconvinced, tokens⟩ 0 bearerT
          { askHi with stream := true } 0).1 :=
  ⟨((chatCompletions_well_formed formats _ ⟨_, tokens⟩ (ofSingleAgent_serves _) 0 bearerT _ 0).2
      Sample.acme 0 rfl).1 rfl,
    ((chatCompletions_well_formed formats _ ⟨_, tokens⟩ (ofConductor_serves haltingConductor _) 0
      bearerT _ 0).2 Sample.acme 0 rfl).1 rfl,
    ((chatCompletions_well_formed formats _ ⟨_, tokens⟩ ofSelfCaller_unconvinced_serves 0
      bearerT _ 0).2 Sample.acme 0 rfl).1 rfl⟩

end Tako.Compat
