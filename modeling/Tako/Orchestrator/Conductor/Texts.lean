import Tako.Orchestrator.Texts
import Tako.Orchestrator.Conductor.Events

/-!
# The texts of a conductor's run

`Conductor::stream` yields what the coordinator writes, plan by plan; its output is the answer that
the last plan has, or the last response's first text. So it yields the output's text if and only if
that response alone has text and is its own answer (`Conductor.told_eq_iff`).
-/

namespace Tako.Orchestrator

open Traced

variable {W : Type}

/-- The coordinator's responses. -/
def coordinatorResponse : Party × Act W → Option ChatResponse
  | (.conductor, .chat _ _ (.ok resp)) => some resp
  | _ => none

/-- What a conductor's stream yields. -/
def conductorEvent : Party × Act W → Option OrchEvent
  | (.conductor, a) => a.event
  | (.worker _, _) => none

def conductorDelta (t : Party × Act W) : Option String := (conductorEvent t).bind OrchEvent.delta

/-- The first text part of a message. -/
def firstText (m : Message) : String := (m.content.findSome? ContentPart.asText).getD ""

theorem firstText_length_le (m : Message) : (firstText m).length ≤ m.text.length := by
  unfold firstText Message.text
  induction m.content with
  | nil => exact Nat.le_refl _
  | cons part content ih =>
    rw [List.findSome?_cons]
    cases hpart : part.asText with
    | none => rwa [List.filterMap_cons_none hpart]
    | some s =>
      rw [List.filterMap_cons_some hpart, String.join_cons, String.length_append]
      exact Nat.le_add_right _ _

namespace RunState

/-- What is told to an assistant that has answered leaves its answer the last one. -/
theorem lastText_tell (s : RunState) {resp : ChatResponse} (h : resp.message.role = .assistant)
    (text : String) : ((s.answered resp).tell text).lastText = firstText resp.message := by
  have hrev : ((s.answered resp).tell text).messages.reverse =
      .user text :: resp.message :: s.messages.reverse := by
    simp [answered, tell]
  unfold lastText
  rw [hrev, List.find?_cons_of_neg (by simp [Message.user]), List.find?_cons_of_pos (by simpa using h)]
  rfl

end RunState

namespace Conductor

/-- What a conductor's computation has to do with the coordinator's responses and the text that it
yields. -/
abbrev Speaks (Q : α → List ChatResponse → String → Prop) (x : CM W α) : Prop :=
  Says coordinatorResponse conductorDelta Q x

/-- The answer of a run that ends with this response. -/
def answerOf (C : Conductor W) (resp : ChatResponse) : String :=
  match parseDispatchPlan C.codec resp.message.text with
  | .ok plan =>
    if plan.halt then plan.finalAnswer.getD resp.message.text else firstText resp.message
  | .error _ => firstText resp.message

/-- The response is its own answer: a plan that halts without one, or one text that does not
halt. -/
def IsAnswer (C : Conductor W) (resp : ChatResponse) : Prop :=
  match parseDispatchPlan C.codec resp.message.text with
  | .ok plan =>
    if plan.halt then plan.finalAnswer = none else firstText resp.message = resp.message.text
  | .error _ => firstText resp.message = resp.message.text

/-- The first responses are empty, and the last one is its own answer. -/
def AnswersOnce (C : Conductor W) (rs : List ChatResponse) : Prop :=
  (∀ resp ∈ rs.dropLast, resp.message.text = "") ∧ ∀ resp ∈ rs.getLast?, C.IsAnswer resp

/-! ## Answers -/

theorem parseDispatchPlan_eq (codec : PlanCodec) (raw : String) :
    ∃ s, s.length ≤ raw.length ∧ parseDispatchPlan codec raw = codec.planFromStr s := by
  have hfenced (rest : String) (h : rest.length ≤ (Str.trim raw).length) :
      (Str.trim (Str.trimEndMatchesStr rest "```")).length ≤ raw.length :=
    (Str.length_trim_le _).trans ((Str.length_trimEndMatchesStr_le _ _).trans
      (h.trans (Str.length_trim_le raw)))
  unfold parseDispatchPlan
  dsimp only
  split
  · next hrest => exact ⟨_, hfenced _ (Str.length_stripPrefix_le hrest), rfl⟩
  · next hrest => exact ⟨_, hfenced _ (Str.length_stripPrefix_le hrest), rfl⟩
  · exact ⟨_, Str.length_trim_le raw, rfl⟩

/-- A JSON text is longer than an answer in it. -/
def AnswersAreShorter (codec : PlanCodec) : Prop :=
  ∀ s plan answer, codec.planFromStr s = .ok plan → plan.finalAnswer = some answer →
    answer.length < s.length

variable {C : Conductor W}

theorem answer_length_lt (hcodec : AnswersAreShorter C.codec) {resp : ChatResponse}
    {plan : DispatchPlan} (hplan : parseDispatchPlan C.codec resp.message.text = .ok plan)
    {answer : String} (hanswer : plan.finalAnswer = some answer) :
    answer.length < resp.message.text.length := by
  obtain ⟨s, hs, heq⟩ := parseDispatchPlan_eq C.codec resp.message.text
  exact Nat.lt_of_lt_of_le (hcodec s plan answer (heq ▸ hplan) hanswer) hs

theorem answerOf_length_le (hcodec : AnswersAreShorter C.codec) (resp : ChatResponse) :
    (C.answerOf resp).length ≤ resp.message.text.length := by
  unfold answerOf
  split
  · next plan hplan =>
    split
    · cases hanswer : plan.finalAnswer with
      | none => exact Nat.le_refl _
      | some answer => exact (answer_length_lt hcodec hplan hanswer).le
    · exact firstText_length_le _
  · exact firstText_length_le _

theorem isAnswer_iff (hcodec : AnswersAreShorter C.codec) (resp : ChatResponse) :
    C.IsAnswer resp ↔ resp.message.text = C.answerOf resp := by
  unfold IsAnswer answerOf
  split
  · next plan hplan =>
    split
    · cases hanswer : plan.finalAnswer with
      | none => exact iff_of_true rfl rfl
      | some answer =>
        refine iff_of_false nofun fun heq => ?_
        have hlt := answer_length_lt hcodec hplan hanswer
        rw [heq] at hlt
        exact absurd hlt (Nat.lt_irrefl _)
    · exact eq_comm
  · exact eq_comm

/-! ## One round -/

variable (C) (p : Principal) (S : Schedule W)

theorem ask_speaks (hrole : ∀ p req w resp, (C.coordinator.chat p req w).1 = .ok resp →
    resp.message.role = .assistant) (messages : List Message) :
    Speaks (fun resp rs t => rs = [resp] ∧ t = "" ∧ resp.message.role = .assistant)
      (byConductor (C.ask p messages)) := by
  refine .embed (.mute_bind (Loop.preCheck_acts (fun _ _ _ => ⟨rfl, rfl⟩) _ _ _ _) fun _ => ?_)
  refine .bind_mute (Q := fun resp rs t =>
    rs = [resp] ∧ t = "" ∧ resp.message.role = .assistant) (Ensures.call fun w resp h => ?_) fun resp => ?_
  · rw [h]
    exact ⟨rfl, rfl, hrole p _ w resp h⟩
  · refine .mute_bind (Loop.record_acts (fun _ _ _ => ⟨rfl, rfl⟩) _ _ _ _) fun _ => .pure ?_
    exact ⟨rfl, rfl, fun _ _ h => h⟩

/-- Where a round leaves the run after a response. -/
def LeadsTo (C : Conductor W) (resp : ChatResponse) : RunState ⊕ OrchOutput → Prop
  | .inl s => s.lastText = C.answerOf resp
  | .inr output => output.message.text = C.answerOf resp

theorem report_speaks (s : RunState) (results : List WorkerResult) {Q : RunState → Prop}
    (h : ∀ text, Q (s.tell text)) :
    Speaks (fun s' rs t => rs = [] ∧ t = "" ∧ Q s') (C.report s results) := by
  unfold report
  split
  · exact .throw _
  · split
    · exact .pure ⟨rfl, rfl, h _⟩
    · exact .throw _

/-- A round has one response, which is yielded and leads on. -/
theorem roundStreaming_speaks
    (hrole : ∀ p req w resp, (C.coordinator.chat p req w).1 = .ok resp →
      resp.message.role = .assistant) (prompt : String) (step : Nat) (s : RunState) :
    Speaks (fun next rs t => ∃ resp, rs = [resp] ∧ t = resp.message.text ∧ C.LeadsTo resp next)
      (C.roundStreaming p S prompt step s) := by
  refine .mute_bind (.embed (.emit ⟨rfl, rfl⟩)) fun _ => .bind (ask_speaks C p hrole _) ?_
  rintro resp _ _ ⟨rfl, rfl, hassistant⟩
  have hyield : Speaks (fun _ rs t => rs = [] ∧ t = resp.message.text)
      (byConductor (if resp.message.text = "" then pure () else
        yield (.assistantText step resp.message.text) : M W Unit)) := by
    refine .embed ?_
    split
    · next h => exact .pure ⟨rfl, h.symm⟩
    · exact Ensures.emit fun _ _ => ⟨rfl, String.empty_append⟩
  refine .bind_mute hyield fun _ => ?_
  have hleads {next : RunState ⊕ OrchOutput} (h : C.LeadsTo resp next) (rs : List ChatResponse)
      (t : String) (hsaid : rs = [] ∧ t = resp.message.text) :
      ∃ resp', [resp] ++ rs = [resp'] ∧ "" ++ t = resp'.message.text ∧ C.LeadsTo resp' next := by
    obtain ⟨rfl, rfl⟩ := hsaid
    exact ⟨resp, rfl, String.empty_append, h⟩
  have htell (h : C.answerOf resp = firstText resp.message) (text : String) :
      C.LeadsTo resp (.inl ((s.answered resp).tell text)) :=
    (s.lastText_tell hassistant text).trans h.symm
  dsimp only
  split
  · next hplan =>
    exact .pure ⟨rfl, rfl, hleads (htell (by rw [answerOf, hplan]) _)⟩
  · next plan hplan =>
    split
    · next hhalt =>
      refine .pure ⟨rfl, rfl, hleads ?_⟩
      rw [LeadsTo, answerOf, hplan]
      dsimp only
      rw [if_pos hhalt]
      exact String.empty_append
    · next hhalt =>
      have hanswer : C.answerOf resp = firstText resp.message := by
        rw [answerOf, hplan]
        exact if_neg hhalt
      split
      · exact .pure ⟨rfl, rfl, hleads (htell hanswer _)⟩
      · refine .mute_bind (.embed (.forM (fun _ => .emit ⟨rfl, rfl⟩) _)) fun _ =>
          .mute_bind (fun w => play_acts (fun _ _ => ⟨rfl, rfl⟩) (fun _ _ => ⟨rfl, rfl⟩)
            (C.fanout p true step plan.dispatch) (fun _ _ => ⟨rfl, rfl⟩) w _) fun results =>
          .mute_bind (.embed (.forM (fun _ => yieldResult_acts C p _ _ _ _ ⟨rfl, rfl⟩
            (fun _ _ => ⟨rfl, rfl⟩) fun _ _ => ⟨rfl, rfl⟩) _)) fun _ => ?_
        refine .bind_mute (report_speaks C (Q := fun s' => C.LeadsTo resp (.inl s'))
          (s.answered resp) results (htell hanswer)) fun s' => .pure ⟨rfl, rfl, ?_⟩
        rintro _ _ ⟨rfl, rfl, hs'⟩
        exact ⟨rfl, rfl, hleads hs'⟩

/-! ## The run -/

/-- The responses' texts. -/
def textsOf (rs : List ChatResponse) : List String := rs.map fun resp => resp.message.text

/-- The rounds yield what is received, and their output has the answer of the last response. -/
theorem rounds_speaks {round : Nat → RunState → CM W (RunState ⊕ OrchOutput)}
    (hround : ∀ step s, Speaks (fun next rs t =>
      ∃ resp, rs = [resp] ∧ t = resp.message.text ∧ C.LeadsTo resp next) (round step s))
    (n step : Nat) (s : RunState) :
    Speaks (fun output rs t => t = String.join (textsOf rs) ∧ (0 < n → rs ≠ []) ∧
        output.message.text = (rs.getLast?.map C.answerOf).getD s.lastText)
      (rounds round n step s) := by
  induction n generalizing step s with
  | zero => exact .pure ⟨rfl, fun h => absurd h (Nat.lt_irrefl 0), String.empty_append⟩
  | succ n ih =>
    refine .bind (hround step s) ?_
    rintro next _ _ ⟨resp, rfl, rfl, hnext⟩
    cases next with
    | inr output =>
      refine .pure ⟨?_, fun _ => nofun, hnext⟩
      rw [String.append_empty, List.append_nil]
      exact String.empty_append.symm
    | inl s' =>
      refine .weaken (ih _ _) ?_
      rintro output rs _ ⟨rfl, -, houtput⟩
      refine ⟨String.join_cons.symm, fun _ => nofun, ?_⟩
      rw [houtput, List.singleton_append, List.getLast?_cons, hnext]
      cases rs.getLast? <;> rfl

variable {C p S}

/-- A stream that does not fail ends with its one output, which has the answer of the coordinator's
last response. -/
theorem stream_speaks
    (hrole : ∀ p req w resp, (C.coordinator.chat p req w).1 = .ok resp →
      resp.message.role = .assistant) (input : OrchInput) {w : W}
    (hok : ((C.stream p S input).run w).result = .ok ()) :
    ∃ l output init resp,
      ((C.stream p S input).run w).trace = l ++ [(.conductor, .yielded (.final output))] ∧
      ((C.stream p S input).run w).trace.filterMap coordinatorResponse = init ++ [resp] ∧
      told conductorDelta ((C.stream p S input).run w).trace =
        String.join (textsOf (init ++ [resp])) ∧
      output.message.text = C.answerOf resp := by
  have hrounds := rounds_speaks C (roundStreaming_speaks C p S hrole input.promptText) C.maxSteps 0
    { messages := C.conversation input }
  unfold stream at hok ⊢
  cases hr : ((rounds (C.roundStreaming p S input.promptText) C.maxSteps 0
      { messages := C.conversation input }).run w).result with
  | error failure =>
    rw [run_bind_error _ hr] at hok
    cases hok
  | ok output =>
    obtain ⟨htold, hne, houtput⟩ := hrounds w output hr
    rw [run_bind_ok _ hr]
    obtain ⟨init, resp, hrs⟩ := (List.eq_nil_or_concat _).resolve_left (hne C.maxSteps.2)
    rw [List.concat_eq_append] at hrs
    refine ⟨_, output, init, resp, rfl, ?_, ?_, ?_⟩
    · rw [List.filterMap_append, hrs]
      exact List.append_nil _
    · rw [told_append, htold, hrs]
      exact String.append_empty
    · rw [houtput, hrs, List.getLast?_concat]
      rfl

/-- The yielded text is the output's exactly if the last response alone has text and is its own
answer. -/
theorem told_eq_iff (hcodec : AnswersAreShorter C.codec)
    (hrole : ∀ p req w resp, (C.coordinator.chat p req w).1 = .ok resp →
      resp.message.role = .assistant) (input : OrchInput) {w : W} {out : OrchOutput}
    (hok : ((C.stream p S input).run w).result = .ok ())
    (hlast : (((C.stream p S input).run w).trace.filterMap conductorEvent).getLast? =
      some (.final out)) :
    told conductorDelta ((C.stream p S input).run w).trace = out.message.text ↔
      C.AnswersOnce (((C.stream p S input).run w).trace.filterMap coordinatorResponse) := by
  obtain ⟨l, output, init, resp, htrace, hrs, htold, houtput⟩ := stream_speaks hrole input hok
  have hout : output = out := by
    rw [htrace, List.filterMap_append] at hlast
    exact OrchEvent.final.inj (Option.some.inj (List.getLast?_concat.symm.trans hlast))
  subst hout
  have hjoin : String.join (textsOf [resp]) = resp.message.text := String.empty_append
  rw [htold, houtput, AnswersOnce, hrs, List.dropLast_concat, List.getLast?_concat, textsOf,
    List.map_append, String.join_append, ← textsOf, ← textsOf, hjoin,
    Str.append_eq_iff (answerOf_length_le hcodec resp), Str.join_eq_empty_iff, textsOf,
    List.forall_mem_map, ← isAnswer_iff hcodec]
  simp only [Option.mem_some_iff, forall_eq']

end Conductor

end Tako.Orchestrator
