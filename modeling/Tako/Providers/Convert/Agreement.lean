import Tako.Orchestrator.Chunking
import Tako.Orchestrator.Sample
import Tako.Providers.Convert.OpenAi
import Tako.Providers.Stream.OpenAi

/-!
# A turn as a response and as a stream

An assistant's turn of OpenAI or Mistral comes as one response or in fragments, and a stream's
fragments are put together by `assemble_tool_calls`. The two ways read the turn alike unless its
finish reason is `function_call` or the arguments of a call are no JSON.
-/

namespace Tako.Providers

open Orchestrator Transducer

/-- What is read of a turn. -/
structure Turn where
  text : String
  toolCalls : List (String × String × Json)
  finishReason : FinishReason

def Turn.of (message : Message) (finishReason : FinishReason) : Turn :=
  ⟨message.text, message.toolCalls, finishReason⟩

def Turn.ofResponse (resp : ChatResponse) : Turn := .of resp.message resp.finishReason

/-- As the loop of a `stream` puts the chunks together. -/
def Turn.ofChunks (codec : Codec) (chunks : List ChatChunk) : Except String Turn :=
  (Loop.receive chunks {}).map fun r => .of (r.message codec) r.finishReason

/-- Two readings agree if what they read is the same. -/
theorem ok_and_ok_iff {a b : α} :
    (∃ d, (Except.ok a : Except ε α) = .ok d ∧ (Except.ok b : Except ε' α) = .ok d) ↔ a = b := by
  constructor
  · rintro ⟨d, ha, hb⟩
    exact (Except.ok.inj ha).trans (Except.ok.inj hb).symm
  · rintro rfl
    exact ⟨a, rfl, rfl⟩

/-- What is received of a delta, which is left out if nothing is in it. -/
theorem receive_deltaChunks (text : Option String) (calls : List ToolCallDelta)
    (chunks : List ChatChunk) (r : Loop.Received) :
    Loop.receive (deltaChunks text calls ++ chunks) r =
      Loop.receive chunks
        { r with text := r.text ++ text.getD "", deltas := r.deltas ++ calls } := by
  cases text with
  | some s => rfl
  | none =>
    cases calls with
    | nil => simp [deltaChunks]
    | cons call calls => rfl

theorem received_toolCalls (codec : Codec) (r : Loop.Received) :
    (r.message codec).toolCalls =
      (⟨.assistant, assembleToolCalls codec r.deltas⟩ : Message).toolCalls := by
  unfold Loop.Received.message
  split <;> rfl

/-- Empty texts count for nothing. -/
theorem filter_getD (text : Option String) :
    (text.filter (· ≠ "")).getD "" = text.getD "" := by
  cases text with
  | none => rfl
  | some s =>
    by_cases hs : s = ""
    · rw [hs]
      rfl
    · simp [Option.filter, hs]

namespace OpenAi

/-- The vendors of the format. -/
inductive Vendor where
  | openAi
  | mistral

namespace Vendor

def fromResponse (parse : String → Option Json) : Vendor → OaResponse → Result ChatResponse
  | openAi => fromOpenaiResponse parse
  | mistral => Mistral.fromMistralResponse parse

def responseFinish : Vendor → Option String → FinishReason
  | openAi => OpenAi.responseFinish
  | mistral => Mistral.responseFinish

def streamFinish : Vendor → String → FinishReason
  | openAi => finishReason
  | mistral => Mistral.finishReason

def intoChatStream (parse : String → Except String StreamFrame) (v : Vendor) : StreamAdapter :=
  adapter v.streamFinish parse

example (parse : String → Except String StreamFrame) :
    openAi.intoChatStream parse = OpenAi.intoChatStream parse ∧
      mistral.intoChatStream parse = Mistral.intoChatStream parse := ⟨rfl, rfl⟩

end Vendor

/-- The choices of the frames, one after the other. -/
def choicesOf (frames : List StreamFrame) : List StreamChoice := frames.flatMap (·.choices)

/-- The deltas of the tool calls, one after the other. -/
def deltasOf (choices : List StreamChoice) : List ToolCallDelta :=
  choices.flatMap fun choice => choice.delta.toolCalls.map toolCallDelta

/-- The choices are fragments of a turn: the texts join to its text, the deltas of each index are
pieces of one call, with indices in call order, and the last finish reason is the turn's. -/
structure Fragmentation (turn : OaChoice) (choices : List StreamChoice) : Prop where
  text : String.join (choices.map (·.delta.content.getD "")) = turn.message.content.getD ""
  calls : ∃ indices : List UInt32, indices.Pairwise (· < ·) ∧
    (∀ d ∈ deltasOf choices, d.index ∈ indices) ∧
    List.Forall₂ (fun i (tc : OaResponseToolCall) =>
        Pieces ((deltasOf choices).filter (·.index = i))
          (tc.id, tc.function.name, tc.function.arguments))
      indices turn.message.toolCalls
  finishReason : (choices.filterMap (·.finishReason)).getLast? = turn.finishReason

/-- The stream's items carry the frames, and then the stream ends. -/
def Carries (parse : String → Except String StreamFrame) (items : List (Except String String))
    (frames : List StreamFrame) : Prop :=
  ∃ texts rest, items = texts.map .ok ++ rest ∧ (rest = [] ∨ rest.head? = some (.ok "[DONE]")) ∧
    List.Forall₂ (fun text frame => reading parse text = .parsed (.ok frame)) texts frames

variable {finishOf : String → FinishReason} {parse : String → Except String StreamFrame}
  {choices : List StreamChoice} {turn : OaChoice} {codec : Codec}

/-! ## Receiving a stream -/

theorem receive_choiceChunks (choice : StreamChoice) (chunks : List ChatChunk)
    (r : Loop.Received) :
    Loop.receive (choiceChunks choice ++ chunks) r =
      Loop.receive chunks
        { r with
          text := r.text ++ choice.delta.content.getD ""
          deltas := r.deltas ++ choice.delta.toolCalls.map toolCallDelta } := by
  unfold choiceChunks
  rw [receive_deltaChunks, filter_getD]

theorem receive_choices (choices : List StreamChoice) (chunks : List ChatChunk)
    (r : Loop.Received) :
    Loop.receive (choices.flatMap choiceChunks ++ chunks) r =
      Loop.receive chunks
        { r with
          text := r.text ++ String.join (choices.map (·.delta.content.getD ""))
          deltas := r.deltas ++ deltasOf choices } := by
  induction choices generalizing r with
  | nil => simp [deltasOf]
  | cons choice choices ih =>
    rw [List.flatMap_cons, List.append_assoc, receive_choiceChunks, ih]
    simp [deltasOf, String.append_assoc]

theorem frameFinish_eq (last : Option FinishReason) (choices : List StreamChoice) :
    frameFinish finishOf last choices =
      ((choices.filterMap (·.finishReason)).getLast?.map finishOf).or last := by
  unfold frameFinish
  induction choices using List.reverseRecOn with
  | nil => rfl
  | append_singleton choices choice ih =>
    rw [List.foldl_append, List.foldl_cons, List.foldl_nil, ih, List.filterMap_append]
    cases h : choice.finishReason <;> simp [h]

theorem frameFinish_append (last : Option FinishReason) (choices choices' : List StreamChoice) :
    frameFinish finishOf (frameFinish finishOf last choices) choices' =
      frameFinish finishOf last (choices ++ choices') := by
  simp only [frameFinish, List.foldl_append]

theorem choicesOf_cons (frame : StreamFrame) (frames : List StreamFrame) :
    choicesOf (frame :: frames) = frame.choices ++ choicesOf frames := List.flatMap_cons

/-- What the adapter makes of the frames. -/
theorem chunks_of_carries (finishOf : String → FinishReason) (h : Carries parse items frames) :
    ∃ usage,
    (adapter finishOf parse).chunks items =
      (choicesOf frames).flatMap choiceChunks ++
        [.end ((frameFinish finishOf none (choicesOf frames)).getD .other) usage] := by
  obtain ⟨texts, rest, rfl, hrest, hframes⟩ := h
  let step := loopStep Memory.fail (reading parse) (frameStep finishOf)
  have hstop : ∀ m : Memory, emit step m rest = [] ∧ final step m rest = m := by
    intro m
    rcases hrest with rfl | hrest
    · exact ⟨rfl, rfl⟩
    · obtain ⟨rest, rfl⟩ := List.head?_eq_some_iff.1 hrest
      exact ⟨rfl, rfl⟩
  have hrun : ∀ m : Memory, emit step m (texts.map .ok ++ rest) =
        (choicesOf frames).flatMap choiceChunks ∧
      (final step m (texts.map .ok ++ rest)).lastFinish =
        frameFinish finishOf m.lastFinish (choicesOf frames) := by
    induction hframes with
    | nil => exact fun m => ⟨(hstop m).1, congrArg Memory.lastFinish (hstop m).2⟩
    | @cons text frame texts frames hread _ ih =>
      intro m
      have hstep : step m (.ok text) = frameStep finishOf m frame := by
        simp only [step, loopStep, hread]
      obtain ⟨hemit, hfinal⟩ := ih (frameStep finishOf m frame).state
      have hgo : (frameStep finishOf m frame).goesOn = true := rfl
      rw [List.map_cons, List.cons_append, emit, final, hstep, hgo, if_pos rfl, if_pos rfl, hemit,
        hfinal, choicesOf_cons, List.flatMap_append]
      exact ⟨rfl, frameFinish_append _ _ _⟩
  obtain ⟨hemit, hfinal⟩ := hrun {}
  refine ⟨((final step {} (texts.map .ok ++ rest))).lastUsage, ?_⟩
  rw [← hfinal, ← hemit]
  rfl

/-! ## Reading a turn -/

theorem plainMessage_text (text : String) (calls : List (String × String × Json)) :
    (plainMessage text calls).text = text := by
  have hcalls : (calls.map toolCallPart).filterMap ContentPart.asText = [] := by
    rw [List.filterMap_map]
    exact List.filterMap_eq_nil_iff.2 fun _ _ => rfl
  unfold plainMessage Message.text
  rw [List.filterMap_append, hcalls, List.append_nil]
  split
  · next htext => rw [htext]; rfl
  · simp [ContentPart.asText]

theorem plainMessage_toolCalls (text : String) (calls : List (String × String × Json)) :
    (plainMessage text calls).toolCalls = calls := by
  unfold plainMessage Message.toolCalls
  rw [List.filterMap_append, List.filterMap_map]
  have hcalls : calls.filterMap some = calls := List.filterMap_some
  split
  · exact hcalls
  · exact hcalls

theorem turn_of_plainMessage (text : String) (calls : List (String × String × Json))
    (reason : FinishReason) : Turn.of (plainMessage text calls) reason = ⟨text, calls, reason⟩ := by
  rw [Turn.of, plainMessage_text, plainMessage_toolCalls]

/-- The calls of a turn, for a reading of their arguments. -/
def readCalls (args : String → Json) (calls : List OaResponseToolCall) :
    List (String × String × Json) :=
  calls.map fun tc => (tc.id, tc.function.name, args tc.function.arguments)

theorem decoded_eq (parse : String → Option Json) (message : OaResponseMessage) :
    (⟨.assistant, decodedContent parse message⟩ : Message) =
      plainMessage (message.content.getD "") (readCalls (decodedArgs parse) message.toolCalls) := by
  unfold decodedContent plainMessage readCalls
  rw [List.map_map]
  refine congrArg (fun parts => Message.mk .assistant (parts ++ _)) ?_
  cases message.content with
  | none => rfl
  | some s =>
    by_cases hs : s = ""
    · rw [hs]
      rfl
    · simp [Option.filter, hs]

theorem ofResponse_eq (v : Vendor) (parse : String → Option Json) (turn : OaChoice)
    (usage : OaUsage) :
    (v.fromResponse parse { choices := [turn], usage }).map Turn.ofResponse =
      .ok ⟨turn.message.content.getD "", readCalls (decodedArgs parse) turn.message.toolCalls,
        v.responseFinish turn.finishReason⟩ := by
  have hturn : ∀ reason, Turn.of ⟨.assistant, decodedContent parse turn.message⟩ reason =
      ⟨turn.message.content.getD "", readCalls (decodedArgs parse) turn.message.toolCalls,
        reason⟩ := fun reason => by rw [decoded_eq, turn_of_plainMessage]
  cases v with
  | openAi | mistral => exact congrArg Except.ok (hturn _)

theorem assembleToolCalls_of_fragmentation (h : Fragmentation turn choices) :
    assembleToolCalls codec (deltasOf choices) =
      (readCalls (assembledArgs codec) turn.message.toolCalls).map toolCallPart := by
  obtain ⟨indices, hsorted, hmem, hcalls⟩ := h.calls
  unfold readCalls
  rw [List.map_map]
  refine assembleToolCalls_of_forall₂ (R := fun ds (tc : OaResponseToolCall) =>
    Pieces ds (tc.id, tc.function.name, tc.function.arguments)) hsorted hmem ?_ ?_ hcalls
  · exact fun _ _ h => h.exists_mem
  · exact fun _ _ h => h.finish

theorem ofChunks_eq (v : Vendor) (h : Fragmentation turn (choicesOf frames))
    (hitems : Carries parse items frames) :
    Turn.ofChunks codec ((v.intoChatStream parse).chunks items) =
      .ok ⟨turn.message.content.getD "", readCalls (assembledArgs codec) turn.message.toolCalls,
        (turn.finishReason.map v.streamFinish).getD .other⟩ := by
  obtain ⟨usage, hchunks⟩ := chunks_of_carries v.streamFinish hitems
  unfold Turn.ofChunks Vendor.intoChatStream
  rw [hchunks, receive_choices, frameFinish_eq, h.finishReason, h.text, Option.or_none,
    String.empty_append, List.nil_append, ← turn_of_plainMessage]
  unfold plainMessage
  rw [← assembleToolCalls_of_fragmentation h]
  rfl

/-! ## Where the readings agree -/

theorem responseFinish_eq_iff (v : Vendor) (reason : Option String) :
    v.responseFinish reason = (reason.map v.streamFinish).getD .other ↔
      reason ≠ some "function_call" := by
  cases reason with
  | none => cases v <;> exact iff_of_true rfl nofun
  | some s =>
    cases v with
    | openAi =>
      simp only [Vendor.responseFinish, Vendor.streamFinish, Option.map_some, Option.getD_some]
      unfold responseFinish finishReason
      split <;> simp_all
    | mistral =>
      simp only [Vendor.responseFinish, Vendor.streamFinish, Option.map_some, Option.getD_some]
      unfold Mistral.responseFinish Mistral.finishReason
      split <;> simp_all

theorem decodedArgs_eq_iff (arguments : String) :
    decodedArgs codec.jsonFromStr arguments = assembledArgs codec arguments ↔
      arguments = "" ∨ (codec.jsonFromStr arguments).isSome = true := by
  unfold decodedArgs assembledArgs
  by_cases harguments : arguments = ""
  · rw [if_pos harguments, if_pos harguments]
    exact iff_of_true rfl (.inl harguments)
  · rw [if_neg harguments, if_neg harguments]
    cases codec.jsonFromStr arguments with
    | some args => exact iff_of_true rfl (.inr rfl)
    | none =>
      refine iff_of_false (fun h => ?_) (fun h => ?_)
      · cases h
      · exact h.elim harguments Bool.false_ne_true

theorem readCalls_eq_iff (calls : List OaResponseToolCall) :
    readCalls (decodedArgs codec.jsonFromStr) calls = readCalls (assembledArgs codec) calls ↔
      ∀ tc ∈ calls, tc.function.arguments = "" ∨
        (codec.jsonFromStr tc.function.arguments).isSome = true := by
  unfold readCalls
  rw [List.map_inj_left]
  refine forall₂_congr fun tc _ => ?_
  rw [← decodedArgs_eq_iff, Prod.mk.injEq, Prod.mk.injEq]
  exact ⟨fun h => h.2.2, fun h => ⟨rfl, rfl, h⟩⟩

/-- A turn is read alike as a response and in fragments exactly if its finish reason is not the
deprecated one and the arguments of all its calls are empty or JSON. -/
theorem reads_agree_iff (v : Vendor) (usage : OaUsage) (h : Fragmentation turn (choicesOf frames))
    (hitems : Carries parse items frames) :
    (∃ t, (v.fromResponse codec.jsonFromStr { choices := [turn], usage }).map Turn.ofResponse =
          .ok t ∧
        Turn.ofChunks codec ((v.intoChatStream parse).chunks items) = .ok t) ↔
      turn.finishReason ≠ some "function_call" ∧
        ∀ tc ∈ turn.message.toolCalls, tc.function.arguments = "" ∨
          (codec.jsonFromStr tc.function.arguments).isSome = true := by
  rw [ofResponse_eq, ofChunks_eq v h hitems, ok_and_ok_iff, Turn.mk.injEq, readCalls_eq_iff,
    responseFinish_eq_iff v]
  constructor
  · rintro ⟨-, hcalls, hreason⟩
    exact ⟨hreason, hcalls⟩
  · rintro ⟨hreason, hcalls⟩
    exact ⟨rfl, hcalls, hreason⟩

/-! ## A turn with one call -/

/-- A turn that calls a tool, with the arguments in two pieces. -/
def callTurn (start rest : String) : OaChoice where
  message :=
    { content := some "hi"
      toolCalls :=
        [{ id := "call_1", function := { name := "weather", arguments := start ++ rest } }] }
  finishReason := some "tool_calls"

/-- The frame with the text and the start of the call. -/
def startFrame (start : String) : StreamFrame where
  choices := [{
    delta := {
      content := some "hi"
      toolCalls := [{
        index := 0
        id := some "call_1"
        function := some { name := some "weather", arguments := some start } }] } }]

/-- The frame with the rest of the call. -/
def restFrame (rest : String) : StreamFrame where
  choices := [{
    delta := { toolCalls := [{ index := 0, function := some { arguments := some rest } }] }
    finishReason := some "tool_calls" }]

theorem callTurn_fragmentation (start rest : String) :
    Fragmentation (callTurn start rest) (choicesOf [startFrame start, restFrame rest]) := by
  refine ⟨rfl, ⟨[0], List.pairwise_singleton _ _, ?_, .cons ⟨?_, ?_, ?_, ?_, ?_⟩ .nil⟩, rfl⟩
  · exact List.forall_mem_cons.2
      ⟨List.mem_cons_self, List.forall_mem_singleton.2 List.mem_cons_self⟩
  · exact List.mem_cons_self
  · exact List.forall_mem_cons.2 ⟨fun i hi => (Option.some.inj hi).symm,
      List.forall_mem_singleton.2 nofun⟩
  · exact List.mem_cons_self
  · exact List.forall_mem_cons.2 ⟨fun i hi => (Option.some.inj hi).symm,
      List.forall_mem_singleton.2 nofun⟩
  · exact congrArg (· ++ rest) String.empty_append

def startText (start : String) : String :=
  "\x7b\"choices\":[\x7b\"delta\":\x7b\"content\":\"hi\",\"tool_calls\":[\x7b\"index\":0,\"id\":" ++
    "\"call_1\",\"function\":\x7b\"name\":\"weather\",\"arguments\":\"" ++ start ++
    "\"\x7d\x7d]\x7d\x7d]\x7d"

def restText (rest : String) : String :=
  "\x7b\"choices\":[\x7b\"delta\":\x7b\"tool_calls\":[\x7b\"index\":0," ++
    "\"function\":\x7b\"arguments\":\"" ++ rest ++
    "\"\x7d\x7d]\x7d,\"finish_reason\":\"tool_calls\"\x7d]\x7d"

/-- The parser on the two frames. -/
def callParse (start rest text : String) : Except String StreamFrame :=
  if text = startText start then .ok (startFrame start)
  else if text = restText rest then .ok (restFrame rest) else .error "expected value"

def callItems (start rest : String) : List (Except String String) :=
  [.ok (startText start), .ok (restText rest), .ok "[DONE]"]

theorem callItems_carry (hstart : startText start ≠ "[DONE]") (hrest : restText rest ≠ "[DONE]")
    (hne : restText rest ≠ startText start) :
    Carries (callParse start rest) (callItems start rest) [startFrame start, restFrame rest] := by
  refine ⟨[startText start, restText rest], [.ok "[DONE]"], rfl, .inr rfl, .cons ?_ (.cons ?_ .nil)⟩
  · rw [reading, if_neg hstart, callParse, if_pos rfl]
  · rw [reading, if_neg hrest, callParse, if_neg hne, if_pos rfl]

theorem reads_agree_empty_object :
    ∃ t, (Vendor.openAi.fromResponse Sample.codec.jsonFromStr
        { choices := [callTurn "\x7b" "\x7d"] }).map Turn.ofResponse = .ok t ∧
      Turn.ofChunks Sample.codec ((Vendor.openAi.intoChatStream (callParse "\x7b" "\x7d")).chunks
        (callItems "\x7b" "\x7d")) = .ok t := by
  refine (reads_agree_iff .openAi {} (callTurn_fragmentation "\x7b" "\x7d")
    (callItems_carry ?_ ?_ ?_)).2 ⟨?_, ?_⟩
  · decide
  · decide
  · decide
  · decide
  · exact List.forall_mem_singleton.2 (.inr rfl)

/-- The model was cut off in the middle of the arguments: the response has their text, and the
stream an empty object. -/
theorem reads_differ_on_cut_arguments :
    Fragmentation (callTurn "\x7b" "") (choicesOf [startFrame "\x7b", restFrame ""]) ∧
      Carries (callParse "\x7b" "") (callItems "\x7b" "") [startFrame "\x7b", restFrame ""] ∧
      ¬∃ t, (Vendor.openAi.fromResponse Sample.codec.jsonFromStr
            { choices := [callTurn "\x7b" ""] }).map Turn.ofResponse = .ok t ∧
          Turn.ofChunks Sample.codec ((Vendor.openAi.intoChatStream (callParse "\x7b" "")).chunks
            (callItems "\x7b" "")) = .ok t := by
  have hfrag := callTurn_fragmentation "\x7b" ""
  have hitems : Carries (callParse "\x7b" "") (callItems "\x7b" "")
      [startFrame "\x7b", restFrame ""] := callItems_carry (by decide) (by decide) (by decide)
  refine ⟨hfrag, hitems, ?_⟩
  rintro ⟨t, hresponse, hchunks⟩
  rw [ofResponse_eq] at hresponse
  rw [ofChunks_eq _ hfrag hitems] at hchunks
  have hcalls := congrArg Turn.toolCalls
    ((Except.ok.inj hresponse).trans (Except.ok.inj hchunks).symm)
  have hargs : decodedArgs Sample.codec.jsonFromStr "\x7b" = assembledArgs Sample.codec "\x7b" :=
    (Prod.mk.inj (Prod.mk.inj (List.cons.inj hcalls).1).2).2
  cases hargs

end OpenAi

end Tako.Providers
