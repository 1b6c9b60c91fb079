import Tako.Orchestrator.Texts
import Tako.Providers.Convert.Agreement
import Tako.Providers.Convert.Vertex

/-!
# A turn of Vertex AI as a response and as a stream

A candidate's parts come in one response, or in any frames one after the other. The ids of the tool
calls depend on the calls alone, and a stream numbers them. The two ways read a turn alike if the
numbers of the calls fit the index and their arguments are read back from their text.
-/

namespace Tako.Providers.Vertex

open Orchestrator Transducer

variable {E : Env} {codec : Codec}

/-! ## Turns -/

/-- What is read of a turn, with its usage. -/
structure Decoded where
  turn : Turn
  usage : Usage

def Decoded.ofResponse (resp : ChatResponse) : Decoded := ⟨.ofResponse resp, resp.usage⟩

def Decoded.ofChunks (codec : Codec) (chunks : List ChatChunk) : Except String Decoded :=
  (Loop.receive chunks {}).map fun r => ⟨.of (r.message codec) r.finishReason, r.usage⟩

/-- A candidate's turn. -/
structure VxTurn where
  parts : List VxResponsePart
  finishReason : Option String
  usage : Option VxUsage

namespace VxTurn

def response (t : VxTurn) : VxResponse where
  candidates := [{ content := some ⟨t.parts⟩, finishReason := t.finishReason }]
  usageMetadata := t.usage

def calls (t : VxTurn) : List VxResponseFunctionCall := t.parts.filterMap (·.functionCall)

/-- The frames have the parts one after the other, the last one also the finish reason and the
usage. -/
def Splits (t : VxTurn) (frames : List VxResponse) : Prop :=
  ∃ (init : List (List VxResponsePart)) (last : List VxResponsePart),
    init.flatten ++ last = t.parts ∧
      frames = init.map (fun parts => response ⟨parts, none, none⟩) ++
        [response { t with parts := last }]

end VxTurn

/-- The stream's items carry the frames. -/
inductive Carries (E : Env) : List (Except String String) → List VxResponse → Prop where
  | nil : Carries E [] []
  | skipped : reading E data = .skipped → Carries E items frames →
    Carries E (.ok data :: items) frames
  | frame : reading E data = .parsed (.ok frame) → Carries E items frames →
    Carries E (.ok data :: items) (frame :: frames)

/-! ## Deltas -/

def callDelta (E : Env) (index : UInt32) (fc : VxResponseFunctionCall) : ToolCallDelta where
  index
  id := some (vertexToolCallId E fc.name fc.args)
  name := some fc.name
  argumentsFragment := some (E.text fc.args)

/-- The deltas of calls that are numbered from an index on. -/
def callDeltas (E : Env) : UInt32 → List VxResponseFunctionCall → List ToolCallDelta
  | _, [] => []
  | index, fc :: fcs => callDelta E index fc :: callDeltas E (index + 1) fcs

/-- The text of the parts. -/
def partsText (parts : List VxResponsePart) : String :=
  String.join (parts.map (·.text.getD ""))

def VxResponse.parts (frame : VxResponse) : List VxResponsePart :=
  frame.candidates.flatMap VxCandidate.parts

def partsCalls (parts : List VxResponsePart) : List VxResponseFunctionCall :=
  parts.filterMap (·.functionCall)

theorem partsText_append (parts parts' : List VxResponsePart) :
    partsText (parts ++ parts') = partsText parts ++ partsText parts' := by
  rw [partsText, List.map_append, String.join_append]
  rfl

theorem callDeltas_append (index : UInt32) (fcs fcs' : List VxResponseFunctionCall) :
    callDeltas E index (fcs ++ fcs') =
      callDeltas E index fcs ++ callDeltas E (index + UInt32.ofNat fcs.length) fcs' := by
  induction fcs generalizing index with
  | nil => rw [List.nil_append, List.length_nil]; exact (UInt32.add_zero index).symm ▸ rfl
  | cons fc fcs ih =>
    rw [List.cons_append, callDeltas, ih, List.length_cons, Nat.add_comm, UInt32.ofNat_add,
      ← UInt32.add_assoc]
    rfl

theorem Gathered.foldl_part (g : Gathered) (parts : List VxResponsePart) :
    parts.foldl (Gathered.part E) g = {
      text := g.text ++ partsText parts
      toolCalls := g.toolCalls ++ callDeltas E g.toolCallIndex (partsCalls parts)
      toolCallIndex := g.toolCallIndex + UInt32.ofNat (partsCalls parts).length } := by
  induction parts generalizing g with
  | nil =>
    simp [partsText, partsCalls, callDeltas]
  | cons p parts ih =>
    rw [List.foldl_cons, ih]
    unfold Gathered.part partsText partsCalls
    cases hcall : p.functionCall with
    | none => simp [hcall, String.append_assoc]
    | some fc =>
      simp [hcall, Gathered.call, callDeltas, callDelta, String.append_assoc, UInt32.add_assoc,
        UInt32.add_comm]

/-! ## Receiving a stream -/

/-- The number of the next call. -/
def nextIndex (index : UInt32) (parts : List VxResponsePart) : UInt32 :=
  index + UInt32.ofNat (partsCalls parts).length

theorem nextIndex_append (index : UInt32) (parts parts' : List VxResponsePart) :
    nextIndex index (parts ++ parts') = nextIndex (nextIndex index parts) parts' := by
  rw [nextIndex, partsCalls, List.filterMap_append, List.length_append, UInt32.ofNat_add,
    ← UInt32.add_assoc]
  rfl

/-- What the parts add to what was received. -/
def receiveParts (E : Env) (index : UInt32) (parts : List VxResponsePart) (r : Loop.Received) :
    Loop.Received :=
  { r with
    text := r.text ++ partsText parts
    deltas := r.deltas ++ callDeltas E index (partsCalls parts) }

theorem receiveParts_append (index : UInt32) (parts parts' : List VxResponsePart)
    (r : Loop.Received) : receiveParts E index (parts ++ parts') r =
      receiveParts E (nextIndex index parts) parts' (receiveParts E index parts r) := by
  simp only [receiveParts, partsText_append, partsCalls, List.filterMap_append,
    callDeltas_append, nextIndex, String.append_assoc, List.append_assoc]

theorem receive_candidateStep (index : UInt32) (cand : VxCandidate) (chunks : List ChatChunk)
    (r : Loop.Received) :
    Loop.receive ((candidateStep E index cand).1 ++ chunks) r =
        Loop.receive chunks (receiveParts E index cand.parts r) ∧
      (candidateStep E index cand).2 = nextIndex index cand.parts := by
  unfold candidateStep
  rw [Gathered.foldl_part]
  dsimp only
  refine ⟨?_, rfl⟩
  rw [receive_deltaChunks, String.empty_append, List.nil_append]
  split
  · next h => rw [receiveParts, h]; rfl
  · rfl

theorem receive_candidatesStep (index : UInt32) (cands : List VxCandidate)
    (chunks : List ChatChunk) (r : Loop.Received) :
    Loop.receive ((candidatesStep E index cands).1 ++ chunks) r =
        Loop.receive chunks (receiveParts E index (cands.flatMap VxCandidate.parts) r) ∧
      (candidatesStep E index cands).2 = nextIndex index (cands.flatMap VxCandidate.parts) := by
  induction cands generalizing index r with
  | nil =>
    refine ⟨?_, (UInt32.add_zero index).symm⟩
    simp [candidatesStep, receiveParts, partsText, partsCalls, callDeltas]
  | cons cand cands ih =>
    obtain ⟨hreceive, hindex⟩ := receive_candidateStep (E := E) index cand
      ((candidatesStep E (nextIndex index cand.parts) cands).1 ++ chunks) r
    obtain ⟨hreceive', hindex'⟩ :=
      ih (nextIndex index cand.parts) (receiveParts E index cand.parts r)
    have hcons : candidatesStep E index (cand :: cands) =
        ((candidateStep E index cand).1 ++
            (candidatesStep E (nextIndex index cand.parts) cands).1,
          (candidatesStep E (nextIndex index cand.parts) cands).2) := by
      rw [← hindex]
      rfl
    rw [hcons, List.flatMap_cons, receiveParts_append, nextIndex_append, ← hreceive', ← hindex',
      List.append_assoc, hreceive]
    exact ⟨rfl, rfl⟩

/-- The parts of the frames, one after the other. -/
def framesParts (frames : List VxResponse) : List VxResponsePart :=
  frames.flatMap VxResponse.parts

/-- What is received of frames, whatever comes behind them. -/
theorem receive_frames (m : Memory) (frames : List VxResponse) (chunks : List ChatChunk)
    (r : Loop.Received) :
    Loop.receive (emit (frameStep E) m frames ++ chunks) r =
        Loop.receive chunks (receiveParts E m.toolCallIndex (framesParts frames) r) ∧
      (final (frameStep E) m frames).toolCallIndex =
        nextIndex m.toolCallIndex (framesParts frames) := by
  induction frames generalizing m r with
  | nil =>
    refine ⟨?_, (UInt32.add_zero _).symm⟩
    simp [emit, framesParts, receiveParts, partsText, partsCalls, callDeltas]
  | cons frame frames ih =>
    obtain ⟨hreceive, hindex⟩ := receive_candidatesStep (E := E) m.toolCallIndex frame.candidates
      (emit (frameStep E) (frameStep E m frame).state frames ++ chunks) r
    obtain ⟨hreceive', hindex'⟩ := ih (frameStep E m frame).state
      (receiveParts E m.toolCallIndex frame.parts r)
    have hstate : (frameStep E m frame).state.toolCallIndex =
        nextIndex m.toolCallIndex frame.parts := hindex
    have hgo : (frameStep E m frame).goesOn = true := rfl
    rw [emit, final, hgo, if_pos rfl, if_pos rfl, framesParts, List.flatMap_cons,
      receiveParts_append, nextIndex_append, ← hstate]
    refine ⟨?_, hindex'⟩
    rw [List.append_assoc]
    exact hreceive.trans hreceive'

/-- The items of a stream come to the frames that they carry. -/
theorem Carries.run (h : Carries E items frames) (m : Memory) :
    emit (streamStep E) m items = emit (frameStep E) m frames ∧
      final (streamStep E) m items = final (frameStep E) m frames := by
  have htransmits : Transmits (reading E) items frames := by
    induction h with
    | nil => exact .nil
    | skipped hread _ ih => exact .skipped hread ih
    | frame hread _ ih => exact .frame hread ih
  unfold streamStep
  exact htransmits.run m

/-- The finish reason and the usage of the last frame. -/
theorem final_splits {t : VxTurn} (h : t.Splits frames) :
    (final (frameStep E) {} frames).lastFinish = t.finishReason.map (finishReasonFromVx ∘ some) ∧
      (final (frameStep E) {} frames).lastUsage = frameUsage {} t.usage := by
  obtain ⟨init, last, -, rfl⟩ := h
  have hrun (m : Memory) (hm : m.lastFinish = none ∧ m.lastUsage = {}) :
      (final (frameStep E) m (init.map (fun parts => VxTurn.response ⟨parts, none, none⟩) ++
        [VxTurn.response { t with parts := last }])).lastFinish =
          t.finishReason.map (finishReasonFromVx ∘ some) ∧
      (final (frameStep E) m (init.map (fun parts => VxTurn.response ⟨parts, none, none⟩) ++
        [VxTurn.response { t with parts := last }])).lastUsage = frameUsage {} t.usage := by
    induction init generalizing m with
    | nil =>
      change frameFinish m.lastFinish _ = _ ∧ frameUsage m.lastUsage t.usage = _
      rw [hm.1, hm.2]
      refine ⟨?_, rfl⟩
      cases t.finishReason <;> simp [frameFinish, VxTurn.response]
    | cons parts init ih => exact ih _ hm
  exact hrun {} ⟨rfl, rfl⟩

theorem framesParts_of_splits {t : VxTurn} (h : t.Splits frames) :
    framesParts frames = t.parts := by
  obtain ⟨init, last, hparts, rfl⟩ := h
  have hresponse (t : VxTurn) : t.response.parts = t.parts := List.append_nil _
  rw [framesParts, List.flatMap_append, List.flatMap_map, List.flatMap_singleton, ← hparts]
  simp only [hresponse]
  rw [List.flatMap_id']

/-! ## Assembling the calls -/

/-- The tool calls of a turn, for a reading of their arguments. -/
def readCalls (E : Env) (args : Json → Json) (calls : List VxResponseFunctionCall) :
    List (String × String × Json) :=
  calls.map fun fc => (vertexToolCallId E fc.name fc.args, fc.name, args fc.args)

/-- The arguments that are assembled from the text of arguments. -/
def reread (E : Env) (codec : Codec) (args : Json) : Json := assembledArgs codec (E.text args)

theorem callDeltas_eq_map (n : Nat) (fcs : List VxResponseFunctionCall) :
    callDeltas E (UInt32.ofNat n) fcs =
      (fcs.zipIdx n).map fun e => callDelta E (UInt32.ofNat e.2) e.1 := by
  induction fcs generalizing n with
  | nil => rfl
  | cons fc fcs ih => rw [callDeltas, List.zipIdx_cons, List.map_cons, ← ih, UInt32.ofNat_add]; rfl

theorem callDelta_finish (index : UInt32) (fc : VxResponseFunctionCall) :
    (PartialCall.receive {} (callDelta E index fc)).finish codec =
      some (.toolCall (vertexToolCallId E fc.name fc.args) fc.name (reread E codec fc.args)) := by
  simp [PartialCall.receive, PartialCall.finish, callDelta, reread, assembledArgs]

/-- The calls of a turn are assembled if their numbers fit the index. -/
theorem assemble_callDeltas {fcs : List VxResponseFunctionCall} (h : fcs.length ≤ UInt32.size) :
    assembleToolCalls codec (callDeltas E 0 fcs) =
      (readCalls E (reread E codec) fcs).map toolCallPart := by
  have hsorted : (fcs.zipIdx 0).Pairwise fun e e' =>
      (callDelta E (UInt32.ofNat e.2) e.1).index < (callDelta E (UInt32.ofNat e'.2) e'.1).index := by
    have hfits : 0 + 0 + fcs.length ≤ UInt32.size := by omega
    refine (pairwise_zipIdx hfits).imp fun {e e'} hlt => ?_
    rw [Nat.zero_add, Nat.zero_add] at hlt
    exact hlt
  calc assembleToolCalls codec (callDeltas E 0 fcs)
    _ = assembleToolCalls codec
          ((fcs.zipIdx 0).map fun e => callDelta E (UInt32.ofNat e.2) e.1) :=
        congrArg _ (callDeltas_eq_map 0 fcs)
    _ = (fcs.zipIdx 0).map fun e => .toolCall (vertexToolCallId E e.1.name e.1.args) e.1.name
          (reread E codec e.1.args) :=
        assembleToolCalls_of_perm (fun e => callDelta_finish (UInt32.ofNat e.2) e.1) (.refl _)
          hsorted
    _ = (readCalls E (reread E codec) fcs).map toolCallPart := by
        rw [readCalls, List.map_map]
        conv_rhs => rw [← List.zipIdx_map_fst 0 fcs, List.map_map]
        rfl

/-! ## Reading a turn -/

/-- The text of a part. -/
theorem partContent_text (p : VxResponsePart) :
    String.join ((partContent E p).filterMap ContentPart.asText) = p.text.getD "" := by
  rw [← filter_getD p.text]
  unfold partContent
  cases p.text.filter (· ≠ "") <;> cases p.functionCall <;> rfl

theorem message_text (parts : List VxResponsePart) :
    (⟨.assistant, parts.flatMap (partContent E)⟩ : Message).text = partsText parts := by
  unfold Message.text partsText
  induction parts with
  | nil => rfl
  | cons p parts ih =>
    rw [List.flatMap_cons, List.filterMap_append, String.join_append, partContent_text, ih,
      List.map_cons, String.join_cons]

theorem partContent_toolCalls (p : VxResponsePart) :
    (⟨.assistant, partContent E p⟩ : Message).toolCalls =
      readCalls E (fun args => args) p.functionCall.toList := by
  unfold partContent
  cases p.text.filter (· ≠ "") <;> cases p.functionCall <;> rfl

theorem message_toolCalls (parts : List VxResponsePart) :
    (⟨.assistant, parts.flatMap (partContent E)⟩ : Message).toolCalls =
      readCalls E (fun args => args) (partsCalls parts) := by
  induction parts with
  | nil => rfl
  | cons p parts ih =>
    have happend (content content' : List ContentPart) :
        (⟨.assistant, content ++ content'⟩ : Message).toolCalls =
          (⟨.assistant, content⟩ : Message).toolCalls ++
            (⟨.assistant, content'⟩ : Message).toolCalls := List.filterMap_append
    rw [List.flatMap_cons, happend, partContent_toolCalls, ih]
    unfold readCalls partsCalls
    rw [List.filterMap_cons, ← List.map_append]
    cases p.functionCall <;> rfl

/-- A finish reason, as it counts where there were calls. -/
def calledFinish (called : Prop) [Decidable called] (reason : FinishReason) : FinishReason :=
  if called ∧ (reason = .stop ∨ reason = .other) then .toolCalls else reason

theorem calledFinish_eq_iff {p q : Prop} [Decidable p] [Decidable q] (reason : FinishReason) :
    calledFinish p reason = calledFinish q reason ↔
      (p ↔ q) ∨ reason ∉ [FinishReason.stop, .other] := by
  have hplain : reason ∈ [FinishReason.stop, .other] ↔ reason = .stop ∨ reason = .other := by
    simp
  rw [hplain]
  unfold calledFinish
  by_cases hreason : reason = .stop ∨ reason = .other
  · have hne : reason ≠ .toolCalls := by
      obtain rfl | rfl := hreason <;> decide
    by_cases hp : p <;> by_cases hq : q <;> simp [hp, hq, hreason, hne, hne.symm]
  · simp [hreason]

/-- What the response is read as. -/
theorem ofResponse_eq (t : VxTurn) :
    (fromVertexResponse E t.response).map Decoded.ofResponse =
      .ok ⟨⟨partsText t.parts, readCalls E (fun args => args) t.calls,
        calledFinish (¬t.calls.isEmpty) (finishReasonFromVx t.finishReason)⟩,
        frameUsage {} t.usage⟩ := by
  have hturn (reason : FinishReason) (usage : Usage) :
      Decoded.ofResponse ⟨⟨.assistant, t.parts.flatMap (partContent E)⟩, reason, usage, []⟩ =
        ⟨⟨partsText t.parts, readCalls E (fun args => args) t.calls, reason⟩, usage⟩ := by
    unfold Decoded.ofResponse Turn.ofResponse Turn.of
    rw [message_text, message_toolCalls]
    rfl
  exact congrArg Except.ok (hturn _ _)

/-- The tool calls that are put together from the stream of a turn. -/
def assembledCalls (E : Env) (codec : Codec) (calls : List VxResponseFunctionCall) :
    List (String × String × Json) :=
  (⟨.assistant, assembleToolCalls codec (callDeltas E 0 calls)⟩ : Message).toolCalls

theorem assembledCalls_eq {calls : List VxResponseFunctionCall} (h : calls.length ≤ UInt32.size) :
    assembledCalls E codec calls = readCalls E (reread E codec) calls := by
  unfold assembledCalls
  rw [assemble_callDeltas h]
  exact OpenAi.plainMessage_toolCalls "" _

/-- What the stream is put together to. -/
theorem ofChunks_eq {t : VxTurn} (h : t.Splits frames) (hitems : Carries E items frames) :
    Decoded.ofChunks codec ((intoChatStream E).chunks items) =
      .ok ⟨⟨partsText t.parts, assembledCalls E codec t.calls,
        calledFinish (0 < UInt32.ofNat t.calls.length) (finishReasonFromVx t.finishReason)⟩,
        frameUsage {} t.usage⟩ := by
  obtain ⟨hemit, hfinal⟩ := hitems.run {}
  obtain ⟨hfinish, husage⟩ := final_splits (E := E) h
  have hreason : finalFinish (final (frameStep E) {} frames) =
      calledFinish (0 < UInt32.ofNat t.calls.length) (finishReasonFromVx t.finishReason) := by
    have hindex := (receive_frames (E := E) {} frames [] {}).2
    rw [framesParts_of_splits h] at hindex
    have hlast : (final (frameStep E) {} frames).lastFinish.getD .other =
        finishReasonFromVx t.finishReason := by
      rw [hfinish]
      cases t.finishReason <;> rfl
    unfold finalFinish
    rw [hlast, hindex, nextIndex, UInt32.zero_add]
    rfl
  have hchunks : (intoChatStream E).chunks items = emit (frameStep E) {} frames ++
      [.end (calledFinish (0 < UInt32.ofNat t.calls.length) (finishReasonFromVx t.finishReason))
        (frameUsage {} t.usage)] := by
    rw [← hreason, ← husage, ← hemit, ← hfinal]
    rfl
  unfold Decoded.ofChunks
  rw [hchunks, (receive_frames {} frames _ {}).1, framesParts_of_splits h]
  refine congrArg Except.ok ?_
  dsimp only [Turn.of]
  rw [Loop.Received.message_text, received_toolCalls]
  change Decoded.mk ⟨"" ++ _, _, _⟩ _ = _
  rw [String.empty_append]
  rfl

/-! ## Where the readings agree -/

theorem readCalls_eq_iff (calls : List VxResponseFunctionCall) :
    readCalls E (fun args => args) calls = readCalls E (reread E codec) calls ↔
      ∀ fc ∈ calls, reread E codec fc.args = fc.args := by
  unfold readCalls
  rw [List.map_inj_left]
  refine forall₂_congr fun fc _ => ?_
  rw [Prod.mk.injEq, Prod.mk.injEq]
  exact ⟨fun h => h.2.2.symm, fun h => ⟨rfl, rfl, h.symm⟩⟩

theorem length_assembledCalls_le (calls : List VxResponseFunctionCall) :
    (assembledCalls E codec calls).length ≤ UInt32.size :=
  Nat.le_trans (List.length_filterMap_le _ _) (length_assembleToolCalls_le _ _)

/-- Up to the last index, the number of the calls tells whether there are some. -/
theorem isEmpty_iff_ofNat {calls : List VxResponseFunctionCall} (h : calls.length ≤ UInt32.size) :
    (¬calls.isEmpty ↔ 0 < UInt32.ofNat calls.length) ↔ calls.length < UInt32.size := by
  have hofNat : 0 < UInt32.ofNat calls.length ↔ 0 < calls.length % UInt32.size := by
    rw [UInt32.lt_iff_toNat_lt, UInt32.toNat_ofNat']
    rfl
  rw [hofNat, List.isEmpty_iff_length_eq_zero]
  obtain hlt | heq := Nat.lt_or_eq_of_le h
  · rw [Nat.mod_eq_of_lt hlt]
    exact iff_of_true Nat.pos_iff_ne_zero.symm hlt
  · rw [heq, Nat.mod_self]
    exact iff_of_false (fun hiff => Nat.lt_irrefl 0 (hiff.1 (by decide))) (Nat.lt_irrefl _)

/-- A candidate's turn is read alike as a response and from frames exactly if the arguments of its
calls are read back from their text and the numbers of the calls fit the index. One call more fits
where the finish reason does not depend on the calls. -/
theorem decodings_agree_iff {t : VxTurn} (h : t.Splits frames) (hitems : Carries E items frames) :
    (∃ d, (fromVertexResponse E t.response).map Decoded.ofResponse = .ok d ∧
        Decoded.ofChunks codec ((intoChatStream E).chunks items) = .ok d) ↔
      (∀ fc ∈ t.calls, reread E codec fc.args = fc.args) ∧
        (t.calls.length < UInt32.size ∨ t.calls.length = UInt32.size ∧
          finishReasonFromVx t.finishReason ∉ [FinishReason.stop, .other]) := by
  rw [ofResponse_eq, ofChunks_eq h hitems, ok_and_ok_iff, Decoded.mk.injEq, Turn.mk.injEq,
    calledFinish_eq_iff]
  by_cases hlength : t.calls.length ≤ UInt32.size
  · rw [assembledCalls_eq hlength, readCalls_eq_iff, isEmpty_iff_ofNat hlength]
    have hlast : t.calls.length = UInt32.size ↔ ¬t.calls.length < UInt32.size := by omega
    rw [hlast]
    tauto
  · refine iff_of_false (fun hagree => hlength ?_) fun hfits => by omega
    have hcalls := congrArg List.length hagree.1.2.1
    rw [readCalls, List.length_map] at hcalls
    exact hcalls.trans_le (length_assembledCalls_le _)

/-! ## A turn with one call after the other -/

def callPart : VxResponsePart where
  functionCall := some { name := "weather", args := .object [] }

/-- A text, and a call in each frame behind it. -/
def callsTurn (n : Nat) : VxTurn where
  parts := { text := some "hi" } :: (List.replicate n callPart ++ [callPart])
  finishReason := some "STOP"
  usage := some ⟨7, 3⟩

def textFrame : VxResponse := VxTurn.response ⟨[{ text := some "hi" }], none, none⟩

def callFrame : VxResponse := VxTurn.response ⟨[callPart], none, none⟩

def lastFrame : VxResponse := VxTurn.response ⟨[callPart], some "STOP", some ⟨7, 3⟩⟩

def callsFrames (n : Nat) : List VxResponse :=
  textFrame :: (List.replicate n callFrame ++ [lastFrame])

theorem callsTurn_splits (n : Nat) : (callsTurn n).Splits (callsFrames n) := by
  refine ⟨[{ text := some "hi" }] :: List.replicate n [callPart], [callPart], ?_, ?_⟩
  · rw [List.flatten_cons, List.flatten_replicate_singleton]
    rfl
  · rw [List.map_cons, List.map_replicate]
    rfl

def textText : String :=
  "\x7b\"candidates\":[\x7b\"content\":\x7b\"parts\":[\x7b\"text\":\"hi\"\x7d]\x7d\x7d]\x7d"

def callText : String :=
  "\x7b\"candidates\":[\x7b\"content\":\x7b\"parts\":[\x7b\"functionCall\":" ++
    "\x7b\"name\":\"weather\",\"args\":\x7b\x7d\x7d\x7d]\x7d\x7d]\x7d"

def lastText : String :=
  "\x7b\"candidates\":[\x7b\"content\":\x7b\"parts\":[\x7b\"functionCall\":" ++
    "\x7b\"name\":\"weather\",\"args\":\x7b\x7d\x7d\x7d]\x7d,\"finishReason\":\"STOP\"\x7d]," ++
    "\"usageMetadata\":\x7b\"promptTokenCount\":7,\"candidatesTokenCount\":3\x7d\x7d"

/-- The parser on the three frames. -/
def callsParse (text : String) : Except String VxResponse :=
  if text = textText then .ok textFrame
  else if text = callText then .ok callFrame
  else if text = lastText then .ok lastFrame
  else .error "expected value"

def callsEnv : Env where
  parse := callsParse
  text _ := "\x7b\x7d"
  hash _ _ := 0

def callsItems (n : Nat) : List (Except String String) :=
  .ok textText :: (List.replicate n (.ok callText) ++ [.ok lastText])

theorem reading_callsEnv (hempty : text ≠ "") (hdone : text ≠ "[DONE]") :
    reading callsEnv text = .parsed (callsParse text) := by
  rw [reading, if_neg (by simp [hempty, hdone])]
  rfl

theorem reading_textText : reading callsEnv textText = .parsed (.ok textFrame) := by
  rw [reading_callsEnv (by decide) (by decide), callsParse, if_pos rfl]

theorem reading_callText : reading callsEnv callText = .parsed (.ok callFrame) := by
  rw [reading_callsEnv (by decide) (by decide), callsParse, if_neg (by decide), if_pos rfl]

theorem reading_lastText : reading callsEnv lastText = .parsed (.ok lastFrame) := by
  have htext : lastText ≠ textText := by decide
  have hcall : lastText ≠ callText := by decide +kernel
  rw [reading_callsEnv (by decide) (by decide), callsParse, if_neg htext, if_neg hcall, if_pos rfl]

theorem callsItems_carry (n : Nat) : Carries callsEnv (callsItems n) (callsFrames n) := by
  refine .frame reading_textText ?_
  induction n with
  | zero => exact .frame reading_lastText .nil
  | succ n ih => exact .frame reading_callText ih

theorem callsTurn_calls (n : Nat) :
    (callsTurn n).calls = List.replicate (n + 1) { name := "weather", args := .object [] } := by
  unfold VxTurn.calls callsTurn
  rw [List.filterMap_cons, List.filterMap_append, List.filterMap_replicate, List.replicate_succ']
  rfl

theorem decodings_agree_two_calls :
    ∃ d, (fromVertexResponse callsEnv (callsTurn 1).response).map Decoded.ofResponse = .ok d ∧
      Decoded.ofChunks Sample.codec ((intoChatStream callsEnv).chunks (callsItems 1)) = .ok d := by
  refine (decodings_agree_iff (callsTurn_splits 1) (callsItems_carry 1)).2 ⟨?_, ?_⟩
  · rw [callsTurn_calls]
    intro fc hfc
    obtain rfl := List.eq_of_mem_replicate hfc
    rfl
  · rw [callsTurn_calls, List.length_replicate]
    exact .inl (by decide)

/-- With one call for each index, the next index is that of no call again: the response ends in
tool calls, and the stream just stops. -/
theorem decodings_differ_past_last_index :
    (callsTurn (UInt32.size - 1)).Splits (callsFrames (UInt32.size - 1)) ∧
      Carries callsEnv (callsItems (UInt32.size - 1)) (callsFrames (UInt32.size - 1)) ∧
      (∀ fc ∈ (callsTurn (UInt32.size - 1)).calls, reread callsEnv Sample.codec fc.args = fc.args) ∧
      ¬∃ d, (fromVertexResponse callsEnv (callsTurn (UInt32.size - 1)).response).map
            Decoded.ofResponse = .ok d ∧
          Decoded.ofChunks Sample.codec
            ((intoChatStream callsEnv).chunks (callsItems (UInt32.size - 1))) = .ok d := by
  have hsplits := callsTurn_splits (UInt32.size - 1)
  have hitems := callsItems_carry (UInt32.size - 1)
  have hlength : (callsTurn (UInt32.size - 1)).calls.length = UInt32.size := by
    rw [callsTurn_calls, List.length_replicate]
    exact Nat.sub_add_cancel (by decide)
  refine ⟨hsplits, hitems, ?_, ?_⟩
  · rw [callsTurn_calls]
    intro fc hfc
    obtain rfl := List.eq_of_mem_replicate hfc
    rfl
  · rw [ofResponse_eq, ofChunks_eq hsplits hitems, ok_and_ok_iff, Decoded.mk.injEq, Turn.mk.injEq,
      calledFinish_eq_iff, isEmpty_iff_ofNat hlength.le, hlength]
    rintro ⟨⟨-, -, hlt | hfinish⟩, -⟩
    · exact Nat.lt_irrefl _ hlt
    · exact hfinish List.mem_cons_self

end Tako.Providers.Vertex
