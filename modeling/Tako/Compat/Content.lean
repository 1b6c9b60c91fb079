import Tako.Compat.Routes
import Tako.Orchestrator.Conductor.RunStream
import Tako.Orchestrator.Conductor.Texts
import Tako.Orchestrator.Sample
import Tako.Orchestrator.SelfCaller.Texts

/-!
# The contents of both kinds of response

A streaming client reads all texts that an orchestrator yields, another client the message of its
output. Both read the same if and only if the run yields no text but its answer (`content_eq_iff`).
-/

namespace Tako.Compat

open Auth Orchestrator Traced

variable {W τ τ' ε α : Type}

/-! ## The orchestrators as services -/

section

variable (failure : ε → Option TakoError)

/-- The result of a run, none if it panics; `failure` is the error of one that does not. -/
def settled : Except ε α → Option (Result α)
  | .ok a => some (.ok a)
  | .error e => (failure e).map .error

/-- The items of a stream that has yielded these events. -/
def streamed (evs : List OrchEvent) : Except ε Unit → Streamed
  | .ok () => ⟨evs.map .ok, false⟩
  | .error e => ⟨evs.map .ok ++ ((failure e).map .error).toList, (failure e).isNone⟩

def service (run : Principal → OrchInput → W → Outcome W τ ε OrchOutput)
    (event : τ' → Option OrchEvent) (stream : Principal → OrchInput → W → Outcome W τ' ε Unit) :
    Service W where
  run p input w := (settled failure (run p input w).result, (run p input w).world)
  stream p input w := (streamed failure ((stream p input w).trace.filterMap event)
    (stream p input w).result, (stream p input w).world)

end

def ofSingleAgent (A : SingleAgent W) : Service W :=
  service some (fun p input => (A.run p input).run) Act.event fun p input => (A.stream p input).run

def ofConductor (C : Conductor W) (S : Schedule W) : Service W :=
  service (fun
    | .error e => some e
    | .panic => none)
    (fun p input => (C.run p S input).run) conductorEvent fun p input => (C.stream p S input).run

def ofSelfCaller (C : SelfCaller W τ) : Service W :=
  service some (fun p input => (C.run p input).play.run) Sum.getRight? fun p input =>
    (C.stream p input).play.run

/-! ## Contents -/

/-- The stream's last item is the `Final` with this output. -/
def Streamed.EndsWith (s : Streamed) (out : OrchOutput) : Prop :=
  s.panics = false ∧ s.items.getLast? = some (.ok (.final out))

theorem EndsWith.of_streamed {failure : ε → Option TakoError} {evs : List OrchEvent}
    {r : Except ε Unit} {out : OrchOutput} (h : (streamed failure evs r).EndsWith out) :
    r = .ok () ∧ evs.getLast? = some (.final out) := by
  obtain ⟨hpanics, hlast⟩ := h
  cases r with
  | ok =>
    refine ⟨rfl, ?_⟩
    rw [streamed, List.getLast?_map] at hlast
    obtain ⟨e, he, heq⟩ := Option.map_eq_some_iff.1 hlast
    cases heq
    exact he
  | error e =>
    unfold streamed at hpanics hlast
    dsimp only at hpanics hlast
    cases hfailure : failure e with
    | none =>
      rw [hfailure] at hpanics
      cases hpanics
    | some e' =>
      rw [hfailure, Option.map_some, Option.toList_some, List.getLast?_concat] at hlast
      cases hlast

section

variable (fmt : Formats) (state : AppState W) (headers : HeaderMap) (body : OaChatRequest)

/-- The requests are those of `p`, for whom the orchestrator's run has the output that its stream
ends with; the worlds are those that the two requests find. -/
structure Outputs (p : Principal) (w w' : W) (out : OrchOutput) : Prop where
  auth : (resolvePrincipal fmt headers state.auth w).1 = .ok p
  auth_stream : (resolvePrincipal fmt headers state.auth w').1 = .ok p
  run : (state.orch.run p (orchInput body)
    (resolvePrincipal fmt headers state.auth w).2).1 = some (.ok out)
  stream : (state.orch.stream p (orchInput body)
    (resolvePrincipal fmt headers state.auth w').2).1.EndsWith out

/-- The request has the same content with `stream` as without. -/
def SameContent (nanos nanos' : Nat) (w w' : W) : Prop :=
  (chatCompletions fmt state nanos' headers { body with stream := true } w').1.content? =
    (chatCompletions fmt state nanos headers { body with stream := false } w).1.content?

end

variable {fmt : Formats} {auth : AuthResolver W} {headers : HeaderMap} {body : OaChatRequest}
  {p : Principal} {w w' : W} {out : OrchOutput}

/-- The contents are the text that the stream has yielded and the output's. -/
theorem sameContent_iff {failure : ε → Option TakoError}
    {run : Principal → OrchInput → W → Outcome W τ ε OrchOutput} {event : τ' → Option OrchEvent}
    {stream : Principal → OrchInput → W → Outcome W τ' ε Unit}
    (h : Outputs fmt ⟨service failure run event stream, auth⟩ headers body p w w' out)
    (nanos nanos' : Nat) {v : W} (hv : v = (resolvePrincipal fmt headers auth w').2) :
    (stream p (orchInput body) v).result = .ok () ∧
    ((stream p (orchInput body) v).trace.filterMap event).getLast? = some (.final out) ∧
    (SameContent fmt ⟨service failure run event stream, auth⟩ headers body nanos nanos' w w' ↔
      textOf ((stream p (orchInput body) v).trace.filterMap event) = out.message.text) := by
  subst hv
  obtain ⟨hauth, hauth', hrun, hstream⟩ := h
  obtain ⟨hok, hlast⟩ := EndsWith.of_streamed hstream
  refine ⟨hok, hlast, ?_⟩
  have hitems : (service failure run event stream).stream p (orchInput body)
      (resolvePrincipal fmt headers auth w').2 = (⟨((stream p (orchInput body)
        (resolvePrincipal fmt headers auth w').2).trace.filterMap event).map .ok, false⟩,
        (stream p (orchInput body) (resolvePrincipal fmt headers auth w').2).world) := by
    unfold service
    dsimp only
    rw [hok]
    rfl
  rw [SameContent, chatCompletions_content (Prod.ext hauth rfl) nanos hrun,
    chatCompletions_stream_content (Prod.ext hauth' rfl) nanos' (congrArg Prod.fst hitems),
    Option.some_inj]

/-- The text of the yielded events. -/
theorem textOf_filterMap (event : τ → Option OrchEvent) (l : List τ) :
    textOf (l.filterMap event) = told (fun t => (event t).bind OrchEvent.delta) l := by
  rw [textOf, List.filterMap_filterMap]
  rfl

/-! ## The three orchestrators -/

/-- Where the stream ends with the run's output, the contents are the same exactly if

* for a `SingleAgent`, no provider's answer before the last one has text;
* for a `Conductor`, the coordinator's last response alone has text and is its own answer;
* for a `SelfCaller`, the last iteration alone has text and is accepted as it was streamed. -/
theorem content_eq_iff (fmt : Formats) (auth : AuthResolver W) (headers : HeaderMap)
    (body : OaChatRequest) (nanos nanos' : Nat) (p : Principal) (w w' : W) (out : OrchOutput) :
    (∀ A : SingleAgent W, Outputs fmt ⟨ofSingleAgent A, auth⟩ headers body p w w' out →
      (SameContent fmt ⟨ofSingleAgent A, auth⟩ headers body nanos nanos' w w' ↔
        ∀ t ∈ (((A.stream p (orchInput body)).run
          (resolvePrincipal fmt headers auth w').2).trace.filterMap Act.answer).dropLast,
          t = "")) ∧
    (∀ (C : Conductor W) (S : Schedule W), Conductor.AnswersAreShorter C.codec →
      (∀ p req w resp, (C.coordinator.chat p req w).1 = .ok resp →
        resp.message.role = .assistant) →
      Outputs fmt ⟨ofConductor C S, auth⟩ headers body p w w' out →
      (SameContent fmt ⟨ofConductor C S, auth⟩ headers body nanos nanos' w w' ↔
        C.AnswersOnce (((C.stream p S (orchInput body)).run
          (resolvePrincipal fmt headers auth w').2).trace.filterMap coordinatorResponse))) ∧
    (∀ C : SelfCaller W τ, Vocal C.inner →
      Outputs fmt ⟨ofSelfCaller C, auth⟩ headers body p w w' out →
      (SameContent fmt ⟨ofSelfCaller C, auth⟩ headers body nanos nanos' w w' ↔
        SelfCaller.SaysOnce ((C.stream p (orchInput body)).play.run
          (resolvePrincipal fmt headers auth w').2).trace)) := by
  refine ⟨fun A h => ?_, fun C S hcodec hrole h => ?_, fun C hC h => ?_⟩
  · obtain ⟨hok, hlast, hiff⟩ := sameContent_iff h nanos nanos' rfl
    rw [textOf_filterMap] at hiff
    exact hiff.trans (A.told_eq_iff p _ hok hlast)
  · obtain ⟨hok, hlast, hiff⟩ := sameContent_iff h nanos nanos' rfl
    rw [textOf_filterMap] at hiff
    exact hiff.trans (Conductor.told_eq_iff hcodec hrole _ hok hlast)
  · obtain ⟨-, hlast, hiff⟩ := sameContent_iff h nanos nanos' rfl
    refine hiff.trans (SelfCaller.textOf_eq_iff hC ?_)
    obtain ⟨t, ht, hfinal⟩ := List.mem_filterMap.1 (List.mem_of_getLast? hlast)
    rwa [Sum.getRight?_eq_some_iff.1 hfinal] at ht

/-! ## Sample requests -/

/-- Nothing is printed. -/
def formats : Formats := ⟨fun _ => "", fun _ => .null⟩

def tokens : AuthResolver Nat := staticTokens [("t", Sample.acme)]

def bearerT : HeaderMap := [("authorization", Str.asBytes "Bearer t")]

def askHi : OaChatRequest := { model := "m", messages := [⟨"user", some "hi", none⟩] }

/-- Every plan halts without an answer of its own. -/
def haltingConductor : Conductor Nat :=
  { Conductor.scored (.ok 1) with
    codec := { Conductor.onePlan with planFromStr := fun _ => .ok { halt := true } } }

/-- The guard accepts the first answer. -/
def trusting : SelfCaller Nat Empty := SelfCaller.counting (fun _ => 1) fun _ => .ok none

theorem vocal_trusting : Vocal trusting.inner := by
  intro p input out hout
  cases hout
  exact ⟨rfl, Nat.le_refl _⟩

/-- One answer is the same content either way. -/
theorem content_eq_of_one_answer :
    SameContent formats ⟨ofSingleAgent (Sample.agent fun _ => some Sample.done), tokens⟩ bearerT askHi
      0 0 0 0 ∧
    SameContent formats ⟨ofConductor haltingConductor fun _ _ _ => [], tokens⟩ bearerT askHi
      0 0 0 0 ∧
    SameContent formats ⟨ofSelfCaller trusting, tokens⟩ bearerT askHi 0 0 0 0 := by
  obtain ⟨hsingle, hconductor, -⟩ := content_eq_iff (τ := Empty) formats tokens bearerT askHi 0 0
    Sample.acme 0 0 ⟨"done", .assistant "done", {}, 1⟩
  obtain ⟨-, -, hself⟩ := content_eq_iff (τ := Empty) formats tokens bearerT askHi 0 0
    Sample.acme 0 0 ⟨"ok", .assistant "ok", {}, 1⟩
  refine ⟨(hsingle _ ⟨rfl, rfl, rfl, rfl, rfl⟩).2 (List.forall_mem_nil _),
    (hconductor _ _ ?_ ?_ ⟨rfl, rfl, rfl, rfl, rfl⟩).2 ⟨List.forall_mem_nil _, ?_⟩,
    (hself _ vocal_trusting ⟨rfl, rfl, rfl, rfl, rfl⟩).2 ⟨rfl, rfl⟩⟩
  · intro s plan answer hplan hanswer
    cases hplan
    cases hanswer
  · intro p req w resp hresp
    cases hresp
    rfl
  · intro resp hresp
    cases hresp
    rfl

/-- A word before the tool is called. -/
def letMeCheck : ChatResponse :=
  { Sample.callTool with
    message := ⟨.assistant, [.text "let me check", .toolCall "c1" "rm" (.object [])]⟩ }

/-- What is said before a tool's turn is content of the stream alone. -/
theorem content_ne_of_tool_turn : ¬∀ (A : SingleAgent Nat) (auth : AuthResolver Nat)
    (headers : HeaderMap) (body : OaChatRequest) (p : Principal) (w : Nat) (out : OrchOutput),
    Outputs formats ⟨ofSingleAgent A, auth⟩ headers body p w w out →
      SameContent formats ⟨ofSingleAgent A, auth⟩ headers body 0 0 w w := by
  intro h
  have hsame := h (Sample.agent fun n => some (if n = 0 then letMeCheck else Sample.done)) tokens
    bearerT askHi Sample.acme 0 ⟨"done", .assistant "done", {}, 2⟩ ⟨rfl, rfl, rfl, rfl, rfl⟩
  have hcontents : some ("let me check" ++ "done") = some "done" := hsame
  exact absurd hcontents (by decide)

end Tako.Compat
