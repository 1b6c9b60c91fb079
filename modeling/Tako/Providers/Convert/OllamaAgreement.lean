import Tako.Orchestrator.Texts
import Tako.Providers.Convert.Agreement
import Tako.Providers.Stream.Ollama

/-!
# A turn of Ollama as a response and as a stream

The frames of a stream have pieces of the text and some of the tool calls each. The stream looks for
tool calls in the terminating frame only, so the two ways read a turn alike if no other frame has
any.
-/

namespace Tako.Providers.Ollama

open Orchestrator Transducer

variable {E : Env} {codec : Codec}

/-! ## Turns -/

structure OlTurn where
  text : String
  calls : List OlResponseToolCall
  doneReason : Option String
  promptEvalCount : UInt32
  evalCount : UInt32

def OlTurn.response (t : OlTurn) : OlResponse where
  message := ⟨t.text, t.calls⟩
  done := true
  doneReason := t.doneReason
  promptEvalCount := t.promptEvalCount
  evalCount := t.evalCount

/-- The frames have the turn's text and calls in pieces, the last one also how it was done. -/
structure OlTurn.Splits (t : OlTurn) (init : List OlResponse) (last : OlResponse) : Prop where
  notDone : ∀ frame ∈ init, frame.done = false
  done : last.done = true
  text : String.join (init.map (·.message.content)) ++ last.message.content = t.text
  calls : init.flatMap (·.message.toolCalls) ++ last.message.toolCalls = t.calls
  doneReason : last.doneReason = t.doneReason
  promptEvalCount : last.promptEvalCount = t.promptEvalCount
  evalCount : last.evalCount = t.evalCount

/-- A streamed turn is that of a response, with distinct ids of its own. -/
structure SameTurn (resp : ChatResponse) (message : Message) (r : Loop.Received) : Prop where
  text : message.text = resp.message.text
  calls : message.toolCalls.map (·.2) = resp.message.toolCalls.map (·.2)
  ids : (message.toolCalls.map (·.1)).Nodup
  finishReason : r.finishReason = resp.finishReason
  usage : r.usage = resp.usage

def Agrees (codec : Codec) (whole : Result ChatResponse) (chunks : List ChatChunk) : Prop :=
  ∃ resp r, whole = .ok resp ∧ Loop.receive chunks {} = .ok r ∧ SameTurn resp (r.message codec) r

/-! ## Ids -/

def callId (k : Nat) : String := s!"ol_call_{k}"

theorem repr_injective {k k' : Nat} (h : k.repr = k'.repr) : k = k' := by
  have hdigits : Nat.toDigits 10 k = Nat.toDigits 10 k' := by
    rw [← Nat.toList_repr, ← Nat.toList_repr, h]
  rw [← Nat.ofDigitChars_ten_toDigits (n := k), hdigits, Nat.ofDigitChars_ten_toDigits]

theorem callId_injective : Function.Injective callId := by
  intro k k' h
  have h : "ol_call_" ++ k.repr = "ol_call_" ++ k'.repr := by
    simpa [callId, String.append_empty] using h
  exact repr_injective ((String.append_right_inj "ol_call_").1 h)

/-! ## Deltas -/

/-- The delta of a numbered call behind some other parts. -/
def callDelta (E : Env) (before : Nat) (e : OlResponseToolCall × Nat) : ToolCallDelta where
  index := UInt32.ofNat (before + e.2)
  id := some (callId e.2)
  name := some e.1.function.name
  argumentsFragment := some (E.text e.1.function.arguments)

/-- The arguments that are assembled from the text of arguments. -/
def reread (E : Env) (codec : Codec) (args : Json) : Json := assembledArgs codec (E.text args)

/-- The number of text parts. -/
def textParts (message : OlResponseMessage) : Nat := if message.content = "" then 0 else 1

theorem toolCallDeltas_eq (message : OlResponseMessage) :
    toolCallDeltas E (content message) =
      message.toolCalls.zipIdx.map (callDelta E (textParts message)) := by
  have hcalls (calls : List OlResponseToolCall) (before k : Nat) :
      (((calls.zipIdx k).map fun e => ContentPart.toolCall s!"ol_call_{e.2}" e.1.function.name
        e.1.function.arguments).zipIdx (before + k)).filterMap (toolCallDelta E) =
      (calls.zipIdx k).map (callDelta E before) := by
    induction calls generalizing k with
    | nil => rfl
    | cons call calls ih =>
      rw [List.zipIdx_cons, List.map_cons, List.zipIdx_cons, List.filterMap_cons, Nat.add_assoc,
        ih, List.map_cons]
      rfl
  unfold toolCallDeltas content textParts
  rw [List.zipIdx_append, List.filterMap_append]
  split
  · exact hcalls _ 0 0
  · exact hcalls _ 1 0

theorem callDelta_finish (before : Nat) (e : OlResponseToolCall × Nat) :
    (PartialCall.receive {} (callDelta E before e)).finish codec =
      some (.toolCall (callId e.2) e.1.function.name (reread E codec e.1.function.arguments)) := by
  simp [PartialCall.receive, PartialCall.finish, callDelta, reread, assembledArgs]

/-! ## Receiving a stream -/

/-- The finish reason of a turn. -/
def turnFinish (calls : List OlResponseToolCall) (doneReason : Option String) : FinishReason :=
  if calls.isEmpty then
    match doneReason with
    | some "length" => .length
    | _ => .stop
  else .toolCalls

theorem fromOllamaResponse_eq (resp : OlResponse) :
    fromOllamaResponse resp =
      .ok ⟨⟨.assistant, content resp.message⟩, turnFinish resp.message.toolCalls resp.doneReason,
        ⟨resp.promptEvalCount, resp.evalCount⟩, []⟩ := rfl

/-- The text of a frame in the stream. -/
def textChunks (frame : OlResponse) : List ChatChunk :=
  deltaChunks (nonEmpty frame.message.content) []

theorem emit_frames {init : List OlResponse} {last : OlResponse}
    (hinit : ∀ frame ∈ init, frame.done = false) (hlast : last.done = true) (m : Memory) :
    emit (frameStep E) m (init ++ [last]) = init.flatMap textChunks ++ (doneStep E m last).out ∧
      final (frameStep E) m (init ++ [last]) = (doneStep E m last).state := by
  induction init with
  | nil =>
    have hstep : frameStep E m last = doneStep E m last := by rw [frameStep, hlast]; rfl
    have hgo : (doneStep E m last).goesOn = false := rfl
    rw [List.nil_append, emit, final, hstep, hgo]
    exact ⟨List.append_nil _, rfl⟩
  | cons frame init ih =>
    have hstep := frameStep_of_not_done (E := E) m (hinit frame List.mem_cons_self)
    obtain ⟨hemit, hfinal⟩ := ih fun f hf => hinit f (List.mem_cons_of_mem frame hf)
    rw [List.cons_append, emit, final, hstep, if_pos rfl, if_pos rfl, hemit, hfinal,
      List.flatMap_cons, List.append_assoc]
    exact ⟨rfl, rfl⟩

theorem nonEmpty_getD (s : String) : (nonEmpty s).getD "" = s := by
  unfold nonEmpty
  split
  · next h => exact h.symm
  · rfl

theorem receive_textChunks (frames : List OlResponse) (chunks : List ChatChunk)
    (r : Loop.Received) :
    Loop.receive (frames.flatMap textChunks ++ chunks) r =
      Loop.receive chunks
        { r with text := r.text ++ String.join (frames.map (·.message.content)) } := by
  induction frames generalizing r with
  | nil => simp
  | cons frame frames ih =>
    rw [List.flatMap_cons, List.append_assoc, textChunks, receive_deltaChunks, nonEmpty_getD,
      List.append_nil, ih]
    simp [String.append_assoc]

/-- What is received of a stream. -/
theorem receive_eq {t : OlTurn} (h : t.Splits init last)
    (hitems : Transmits (reading E) items (init ++ [last])) :
    Loop.receive ((intoChatStream E).chunks items) {} = .ok {
      text := t.text
      deltas := last.message.toolCalls.zipIdx.map (callDelta E (textParts last.message))
      finishReason := turnFinish last.message.toolCalls t.doneReason
      usage := ⟨t.promptEvalCount, t.evalCount⟩ } := by
  have hrun : emit (streamStep E) {} items = emit (frameStep E) {} (init ++ [last]) ∧
      final (streamStep E) {} items = final (frameStep E) {} (init ++ [last]) := by
    unfold streamStep
    exact hitems.run _
  obtain ⟨hemit, hfinal⟩ := hrun
  obtain ⟨hframes, hstate⟩ := emit_frames (E := E) h.notDone h.done {}
  have hchunks : (intoChatStream E).chunks items = init.flatMap textChunks ++
      (deltaChunks (nonEmpty last.message.content) (toolCallDeltas E (content last.message)) ++
        [.end (turnFinish last.message.toolCalls last.doneReason)
          ⟨last.promptEvalCount, last.evalCount⟩]) := by
    unfold StreamAdapter.chunks StreamAdapter.reason
    change emit (streamStep E) {} items ++
      [.end ((final (streamStep E) {} items).lastFinish.getD .stop)
        (final (streamStep E) {} items).lastUsage] = _
    rw [hemit, hfinal, hframes, hstate, List.append_assoc]
    rfl
  rw [hchunks, receive_textChunks, receive_deltaChunks, nonEmpty_getD, toolCallDeltas_eq,
    String.empty_append, List.nil_append, h.text, h.doneReason, h.promptEvalCount, h.evalCount]
  rfl

/-! ## Assembling the calls -/

/-- A numbered call as it is assembled. -/
def readCall (E : Env) (codec : Codec) (e : OlResponseToolCall × Nat) : String × String × Json :=
  (callId e.2, e.1.function.name, reread E codec e.1.function.arguments)

/-- The tool calls that are put together from a frame with calls behind some other parts. -/
def assembledCalls (E : Env) (codec : Codec) (before : Nat) (calls : List OlResponseToolCall) :
    List (String × String × Json) :=
  (⟨.assistant, assembleToolCalls codec (calls.zipIdx.map (callDelta E before))⟩ :
    Message).toolCalls

/-- The numbered calls in the order of their indices. -/
structure Ordered (before : Nat) (calls : List OlResponseToolCall)
    (order : List (OlResponseToolCall × Nat)) : Prop where
  perm : order.Perm calls.zipIdx
  sorted : order.Pairwise fun e e' => UInt32.ofNat (before + e.2) < UInt32.ofNat (before + e'.2)

theorem Ordered.assembledCalls_eq (h : Ordered before calls order) :
    assembledCalls E codec before calls = order.map (readCall E codec) := by
  unfold assembledCalls
  rw [assembleToolCalls_of_perm (callDelta_finish before) h.perm h.sorted]
  refine Eq.trans ?_ (OpenAi.plainMessage_toolCalls "" (order.map (readCall E codec)))
  rw [plainMessage, List.map_map]
  rfl

theorem ordered_of_fits (h : before + calls.length ≤ UInt32.size) :
    Ordered before calls calls.zipIdx where
  perm := .refl _
  sorted := pairwise_zipIdx (by rwa [Nat.add_zero])

/-- With a call for each index behind a text, the last one has the first index. -/
theorem ordered_of_full (h : (calls ++ [call]).length = UInt32.size) :
    Ordered 1 (calls ++ [call]) ((call, calls.length) :: calls.zipIdx) := by
  rw [List.length_append, List.length_singleton] at h
  constructor
  · rw [List.zipIdx_append, Nat.zero_add]
    exact (List.perm_append_singleton _ _).symm
  · refine List.pairwise_cons.2 ⟨fun e he => ?_, pairwise_zipIdx (by omega)⟩
    have hlt := List.snd_lt_of_mem_zipIdx he
    have hsize : 1 + calls.length = UInt32.size := by omega
    rw [hsize, UInt32.lt_iff_toNat_lt, UInt32.toNat_ofNat_of_lt' (n := 1 + e.2) (by omega)]
    exact Nat.lt_of_lt_of_le Nat.zero_lt_one (Nat.le_add_right 1 e.2)

theorem exists_ordered (hbefore : before ≤ 1) (h : calls.length ≤ UInt32.size) :
    ∃ order, Ordered before calls order := by
  by_cases hfits : before + calls.length ≤ UInt32.size
  · exact ⟨_, ordered_of_fits hfits⟩
  · obtain rfl : before = 1 := by omega
    have hlength : calls.length = UInt32.size := by omega
    induction calls using List.reverseRecOn with
    | nil => cases hlength
    | append_singleton calls call _ => exact ⟨_, ordered_of_full hlength⟩

theorem length_assembledCalls_le_size :
    (assembledCalls E codec before calls).length ≤ UInt32.size :=
  Nat.le_trans (List.length_filterMap_le _ _) (length_assembleToolCalls_le _ _)

/-- Not more calls are assembled than the frame has. -/
theorem length_assembledCalls_le (hbefore : before ≤ 1) :
    (assembledCalls E codec before calls).length ≤ calls.length := by
  by_cases h : calls.length ≤ UInt32.size
  · obtain ⟨order, horder⟩ := exists_ordered hbefore h
    rw [horder.assembledCalls_eq, List.length_map, horder.perm.length_eq, List.length_zipIdx]
  · exact Nat.le_trans length_assembledCalls_le_size (Nat.le_of_not_le h)

theorem ids_nodup (h : Ordered before calls order) :
    ((order.map (readCall E codec)).map (·.1)).Nodup := by
  have hnumbers : (order.map Prod.snd).Nodup := by
    rw [(h.perm.map Prod.snd).nodup_iff, List.zipIdx_map_snd]
    exact List.nodup_range'
  have hids := hnumbers.map callId_injective
  rw [List.map_map] at hids ⊢
  exact hids

/-! ## Where the readings agree -/

/-- A call without an id. -/
def named (call : OlResponseToolCall) : String × Json :=
  (call.function.name, call.function.arguments)

theorem named_injective : Function.Injective named := by
  intro call call' h
  obtain ⟨hname, hargs⟩ := Prod.mk.inj h
  cases call with
  | mk function =>
    cases call' with
    | mk function' =>
      cases function
      cases function'
      dsimp only at hname hargs
      rw [hname, hargs]

theorem content_text (message : OlResponseMessage) :
    (⟨.assistant, content message⟩ : Message).text = message.content := by
  have hcalls : (message.toolCalls.zipIdx.map fun e => ContentPart.toolCall s!"ol_call_{e.2}"
      e.1.function.name e.1.function.arguments).filterMap ContentPart.asText = [] := by
    rw [List.filterMap_map]
    exact List.filterMap_eq_nil_iff.2 fun _ _ => rfl
  unfold Message.text content
  rw [List.filterMap_append, hcalls, List.append_nil]
  split
  · next h => rw [h]; rfl
  · simp [ContentPart.asText]

theorem content_toolCalls (message : OlResponseMessage) :
    (⟨.assistant, content message⟩ : Message).toolCalls =
      message.toolCalls.zipIdx.map fun e =>
        (callId e.2, e.1.function.name, e.1.function.arguments) := by
  unfold Message.toolCalls content
  rw [List.filterMap_append, List.filterMap_map]
  split
  · exact congrFun List.filterMap_eq_map _
  · exact congrFun List.filterMap_eq_map _

theorem agrees_iff_calls {t : OlTurn} (h : t.Splits init last)
    (hitems : Transmits (reading E) items (init ++ [last])) :
    Agrees codec (fromOllamaResponse t.response) ((intoChatStream E).chunks items) ↔
      (assembledCalls E codec (textParts last.message) last.message.toolCalls).map (·.2) =
          t.calls.map named ∧
        ((assembledCalls E codec (textParts last.message) last.message.toolCalls).map
          (·.1)).Nodup ∧
        turnFinish last.message.toolCalls t.doneReason = turnFinish t.calls t.doneReason := by
  have hcalls : (⟨.assistant, content t.response.message⟩ : Message).toolCalls.map (·.2) =
      t.calls.map named := by
    rw [content_toolCalls, List.map_map]
    conv_rhs => rw [← List.zipIdx_map_fst 0 t.calls, List.map_map]
    rfl
  constructor
  · rintro ⟨resp, r, hwhole, hr, hsame⟩
    rw [receive_eq h hitems] at hr
    cases hwhole
    cases hr
    have hagree := hsame.calls
    have hids := hsame.ids
    rw [received_toolCalls] at hagree hids
    exact ⟨hagree.trans hcalls, hids, hsame.finishReason⟩
  · rintro ⟨hagree, hids, hfinish⟩
    refine ⟨_, _, fromOllamaResponse_eq _, receive_eq h hitems, ?_, ?_, ?_, hfinish, rfl⟩
    · rw [Loop.Received.message_text, content_text]
      rfl
    · rw [received_toolCalls, hcalls]
      exact hagree
    · rw [received_toolCalls]
      exact hids

/-- Calls whose arguments are read back from their text. -/
theorem map_readCall {calls : List OlResponseToolCall} {order : List (OlResponseToolCall × Nat)}
    (hperm : order.Perm calls.zipIdx)
    (hjson : ∀ call ∈ calls, reread E codec call.function.arguments = call.function.arguments) :
    (order.map (readCall E codec)).map (·.2) = (order.map Prod.fst).map named := by
  rw [List.map_map, List.map_map]
  refine List.map_congr_left fun e he => ?_
  have hmem := List.fst_mem_of_mem_zipIdx (hperm.mem_iff.1 he)
  exact congrArg (Prod.mk _) (hjson e.1 hmem)

/-- A list that starts with its last element all over again has no other. -/
theorem cons_eq_concat_iff {α : Type} {a : α} {l : List α} :
    a :: l = l ++ [a] ↔ ∀ b ∈ l ++ [a], ∀ c ∈ l ++ [a], b = c := by
  have hall : a :: l = l ++ [a] ↔ ∀ b ∈ l, b = a := by
    induction l with
    | nil => exact iff_of_true rfl fun b hb => by cases hb
    | cons b l ih =>
      rw [List.forall_mem_cons, ← ih, List.cons_append, List.cons.injEq]
      constructor
      · rintro ⟨rfl, h⟩
        exact ⟨rfl, h⟩
      · rintro ⟨rfl, h⟩
        exact ⟨rfl, h⟩
  have hsame : (∀ b ∈ l, b = a) ↔ ∀ b ∈ l ++ [a], b = a := by
    rw [List.forall_mem_append, List.forall_mem_singleton]
    exact (and_iff_left rfl).symm
  rw [hall, hsame]
  constructor
  · exact fun h b hb c hc => (h b hb).trans (h c hc).symm
  · exact fun h b hb => h b hb a (List.mem_append_right l List.mem_cons_self)

theorem length_content (message : OlResponseMessage) :
    (content message).length = textParts message + message.toolCalls.length := by
  unfold content textParts
  rw [List.length_append, List.length_map, List.length_zipIdx]
  split <;> rfl

theorem textParts_le (message : OlResponseMessage) : textParts message ≤ 1 := by
  unfold textParts
  split
  · exact Nat.zero_le 1
  · exact Nat.le_refl 1

/-- Calls that are all in the last frame are read alike if its parts fit the index, or if no part
but the last one is too many and the calls are all the same. -/
theorem same_calls_iff {message : OlResponseMessage}
    (hjson : ∀ call ∈ message.toolCalls,
      reread E codec call.function.arguments = call.function.arguments) :
    (assembledCalls E codec (textParts message) message.toolCalls).map (·.2) =
          message.toolCalls.map named ∧
        ((assembledCalls E codec (textParts message) message.toolCalls).map (·.1)).Nodup ↔
      (content message).length ≤ UInt32.size ∨ message.toolCalls.length = UInt32.size ∧
        ∀ c ∈ message.toolCalls, ∀ c' ∈ message.toolCalls, c = c' := by
  rw [length_content]
  by_cases hfits : textParts message + message.toolCalls.length ≤ UInt32.size
  · have horder := ordered_of_fits hfits
    rw [horder.assembledCalls_eq, map_readCall horder.perm hjson, List.zipIdx_map_fst]
    exact iff_of_true ⟨rfl, ids_nodup horder⟩ (.inl hfits)
  · have hparts := textParts_le message
    by_cases hlength : message.toolCalls.length = UInt32.size
    · have hone : textParts message = 1 := by omega
      rw [hone]
      generalize message.toolCalls = calls at hjson hfits hlength
      induction calls using List.reverseRecOn with
      | nil => cases hlength
      | append_singleton calls call _ =>
        have horder := ordered_of_full hlength
        rw [horder.assembledCalls_eq, map_readCall horder.perm hjson, List.map_cons,
          List.zipIdx_map_fst, named_injective.list_map.eq_iff, cons_eq_concat_iff]
        constructor
        · exact fun h => .inr ⟨hlength, h.1⟩
        · rintro (h | h)
          · rw [hone] at hfits
            exact absurd h hfits
          · exact ⟨h.2, ids_nodup horder⟩
    · refine iff_of_false (fun h => ?_) fun h => ?_
      · have hcalls := congrArg List.length h.1
        have hsize : (assembledCalls E codec (textParts message) message.toolCalls).length ≤
            UInt32.size := length_assembledCalls_le_size
        rw [List.length_map, List.length_map] at hcalls
        omega
      · exact h.elim hfits fun h => hlength h.1

/-- A turn whose arguments are read back from their text is read alike as a response and from
frames exactly if only the terminating frame has tool calls and their numbers fit the index. -/
theorem decodes_alike_iff {t : OlTurn} (h : t.Splits init last)
    (hitems : Transmits (reading E) items (init ++ [last]))
    (hjson : ∀ call ∈ t.calls,
      reread E codec call.function.arguments = call.function.arguments) :
    Agrees codec (fromOllamaResponse t.response) ((intoChatStream E).chunks items) ↔
      (∀ frame ∈ init, frame.message.toolCalls = []) ∧
        ((content last.message).length ≤ UInt32.size ∨ t.calls.length = UInt32.size ∧
          ∀ c ∈ t.calls, ∀ c' ∈ t.calls, c = c') := by
  rw [agrees_iff_calls h hitems]
  have hcalls := h.calls
  by_cases hinit : ∀ frame ∈ init, frame.message.toolCalls = []
  · rw [List.flatMap_eq_nil_iff.2 hinit, List.nil_append] at hcalls
    rw [← hcalls] at hjson ⊢
    rw [and_iff_right hinit, ← same_calls_iff hjson]
    exact ⟨fun hagree => ⟨hagree.1, hagree.2.1⟩, fun hagree => ⟨hagree.1, hagree.2, rfl⟩⟩
  · refine iff_of_false (fun hagree => hinit ?_) fun hfits => hinit hfits.1
    have hle : (assembledCalls E codec (textParts last.message) last.message.toolCalls).length ≤
        last.message.toolCalls.length := length_assembledCalls_le (textParts_le last.message)
    have hlength := congrArg List.length hagree.1
    rw [List.length_map, List.length_map, ← hcalls, List.length_append] at hlength
    exact List.flatMap_eq_nil_iff.1 (List.eq_nil_of_length_eq_zero (by omega))

/-! ## A turn with one call -/

def weather : OlResponseToolCall := ⟨⟨"weather", .object []⟩⟩

/-- A text, and then a call. -/
def callTurn : OlTurn where
  text := "hi"
  calls := [weather]
  doneReason := some "stop"
  promptEvalCount := 7
  evalCount := 3

def pieceFrame (calls : List OlResponseToolCall) : OlResponse where
  message := ⟨"hi", calls⟩

def lastFrame (calls : List OlResponseToolCall) : OlResponse where
  message := ⟨"", calls⟩
  done := true
  doneReason := some "stop"
  promptEvalCount := 7
  evalCount := 3

theorem callTurn_splits {calls calls' : List OlResponseToolCall} (h : calls ++ calls' = [weather]) :
    callTurn.Splits [pieceFrame calls] (lastFrame calls') where
  notDone := List.forall_mem_singleton.2 rfl
  done := rfl
  text := by change String.join ["hi"] ++ "" = "hi"; decide
  calls := by rw [List.flatMap_singleton]; exact h
  doneReason := rfl
  promptEvalCount := rfl
  evalCount := rfl

/-- The tool calls of a message on the wire. -/
def callsText (calls : List OlResponseToolCall) : String :=
  if calls.isEmpty then ""
  else ",\"tool_calls\":[\x7b\"function\":\x7b\"name\":\"weather\",\"arguments\":\x7b\x7d\x7d\x7d]"

def pieceLine (calls : List OlResponseToolCall) : String :=
  "\x7b\"message\":\x7b\"content\":\"hi\"" ++ callsText calls ++ "\x7d,\"done\":false\x7d"

def lastLine (calls : List OlResponseToolCall) : String :=
  "\x7b\"message\":\x7b\"content\":\"\"" ++ callsText calls ++ "\x7d,\"done\":true," ++
    "\"done_reason\":\"stop\",\"prompt_eval_count\":7,\"eval_count\":3\x7d"

/-- The parser on the lines of a turn whose calls come early or late. -/
def callParse (early late : List OlResponseToolCall) (line : String) :
    Except String OlResponse :=
  if line = pieceLine early then .ok (pieceFrame early)
  else if line = lastLine late then .ok (lastFrame late)
  else .error "expected value"

def callEnv (early late : List OlResponseToolCall) : Env where
  parse := callParse early late
  text _ := "\x7b\x7d"

def callItems (early late : List OlResponseToolCall) : List (Except String String) :=
  [.ok (pieceLine early), .ok (lastLine late)]

theorem callItems_transmit {early late : List OlResponseToolCall}
    (hpiece : Str.trim (pieceLine early) = pieceLine early)
    (hlast : Str.trim (lastLine late) = lastLine late) (hne : lastLine late ≠ pieceLine early)
    (hpiece' : pieceLine early ≠ "") (hlast' : lastLine late ≠ "") :
    Transmits (reading (callEnv early late)) (callItems early late)
      ([pieceFrame early] ++ [lastFrame late]) := by
  refine .frame ?_ (.frame ?_ .nil)
  · unfold reading
    dsimp only
    rw [hpiece, if_neg hpiece']
    change Reading.parsed (callParse early late (pieceLine early)) = _
    rw [callParse, if_pos rfl]
  · unfold reading
    dsimp only
    rw [hlast, if_neg hlast']
    change Reading.parsed (callParse early late (lastLine late)) = _
    rw [callParse, if_neg hne, if_pos rfl]

theorem late_call_agrees :
    Agrees Sample.codec (fromOllamaResponse callTurn.response)
      ((intoChatStream (callEnv [] [weather])).chunks (callItems [] [weather])) := by
  refine (decodes_alike_iff (callTurn_splits rfl) (callItems_transmit ?_ ?_ ?_ ?_ ?_) ?_).2 ⟨?_, ?_⟩
  · decide +kernel
  · decide +kernel
  · decide +kernel
  · decide +kernel
  · decide +kernel
  · exact List.forall_mem_singleton.2 rfl
  · exact List.forall_mem_singleton.2 rfl
  · exact .inl (by decide)

/-- The call of a frame that is not the last is lost. -/
theorem early_call_lost :
    callTurn.Splits [pieceFrame [weather]] (lastFrame []) ∧
      Transmits (reading (callEnv [weather] [])) (callItems [weather] [])
        ([pieceFrame [weather]] ++ [lastFrame []]) ∧
      (∀ call ∈ callTurn.calls, reread (callEnv [weather] []) Sample.codec
        call.function.arguments = call.function.arguments) ∧
      ¬Agrees Sample.codec (fromOllamaResponse callTurn.response)
        ((intoChatStream (callEnv [weather] [])).chunks (callItems [weather] [])) := by
  have hsplits : callTurn.Splits [pieceFrame [weather]] (lastFrame []) := callTurn_splits rfl
  have hitems : Transmits (reading (callEnv [weather] [])) (callItems [weather] [])
      ([pieceFrame [weather]] ++ [lastFrame []]) :=
    callItems_transmit (by decide +kernel) (by decide +kernel) (by decide +kernel)
      (by decide +kernel) (by decide +kernel)
  refine ⟨hsplits, hitems, List.forall_mem_singleton.2 rfl, fun h => ?_⟩
  have hcalls := ((agrees_iff_calls hsplits hitems).1 h).1
  exact absurd (congrArg List.length hcalls) (by decide)

end Tako.Providers.Ollama
