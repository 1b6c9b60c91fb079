import Tako.Providers.Convert.AnthropicAgreement
import Tako.Providers.Convert.Bedrock
import Tako.Providers.Convert.BlockTurns
import Tako.Providers.Stream.BedrockIndex

/-!
# A turn of Bedrock as a response and as a stream

The blocks are numbered anew, in the order in which they come. Turns of Bedrock and of Anthropic are
read alike as responses and as streams (`block_turns_read_alike`).
-/

namespace Tako.Providers

open Orchestrator Transducer

namespace Bedrock

variable {codec : Codec} {iteration : Iteration}

/-- A turn of Bedrock, whose inputs are documents. -/
abbrev BrTurn (codec : Codec) (iteration : Iteration) : Type :=
  BlockTurn codec Int32 (documentToJson iteration)

namespace BrTurn

variable (t : BrTurn codec iteration) (stopReason : StopReason)

def output (usage : Option TokenUsage) : ConverseOutput where
  output := some ((t.textBlock.map fun _ => .text t.text).toList ++
    t.tools.map fun b => .toolUse b.id b.name b.input)
  stopReason
  usage

/-- The events of the text block, which may be without a start. -/
def textEvents (started : Bool) : List Event :=
  match t.textBlock with
  | none => []
  | some e =>
    (if started then [.contentBlockStart e.1 none] else []) ++
      e.2.map fun s => .contentBlockDelta e.1 (some (.text s))

def toolEvents (b : ToolBlock codec Int32 (documentToJson iteration)) : List Event :=
  .contentBlockStart b.index (some (.toolUse b.id b.name)) ::
    b.pieces.map fun s => .contentBlockDelta b.index (some (.toolUse s))

/-- The events with the blocks and the stop reason. -/
def events (started : Bool) : List Event :=
  t.textEvents started ++ (t.tools.flatMap toolEvents ++ [.messageStop stopReason])

def blocks : List Int32 := (t.textBlock.map (·.1)).toList ++ t.tools.map (·.index)

end BrTurn

/-- The event has nothing of a block and no stop reason. -/
def Event.isMeta : Event → Bool
  | .messageStart | .contentBlockStop | .metadata _ | .unknown => true
  | .contentBlockDelta _ none | .contentBlockDelta _ (some .other) => true
  | _ => false

/-- The events of a turn, with others anywhere among them. -/
structure Streams (t : BrTurn codec iteration) (stopReason : StopReason) (body : List Event) :
    Prop where
  distinct : t.blocks.Nodup
  events : ∃ started, body.filter (!·.isMeta) = t.events stopReason started

/-! ## What is heard of an event -/

def Event.said : Event → String
  | .contentBlockDelta _ (some (.text text)) => text
  | _ => ""

def Event.reason : Event → Option StopReason
  | .messageStop stopReason => some stopReason
  | _ => none

def chunkDeltas : ChatChunk → List ToolCallDelta
  | .delta _ toolCalls => toolCalls
  | _ => []

/-- The deltas that come of the events. -/
def deltasFrom : ToolCallState → List Event → List ToolCallDelta
  | _, [] => []
  | state, event :: events =>
    (mapEvent state event).chunks.flatMap chunkDeltas ++
      deltasFrom (mapEvent state event).state events

theorem receive_event (state : ToolCallState) (event : Event) (chunks : List ChatChunk)
    (r : Loop.Received) :
    Loop.receive ((mapEvent state event).chunks ++ chunks) r =
        Loop.receive chunks
          { r with
            text := r.text ++ event.said
            deltas := r.deltas ++ (mapEvent state event).chunks.flatMap chunkDeltas } ∧
      (mapEvent state event).finish = event.reason.map finishReason := by
  cases event with
  | messageStart | contentBlockStop | unknown | messageStop | metadata =>
    simp [mapEvent, Event.said, Event.reason]
  | contentBlockStart block start =>
    rcases start with _ | _ | _ <;>
      simp [mapEvent, Event.said, Event.reason, chunkDeltas, Loop.receive]
  | contentBlockDelta block delta =>
    cases delta with
    | none => simp [mapEvent, Event.said, Event.reason]
    | some delta =>
      cases delta with
      | other | toolUse => simp [mapEvent, Event.said, Event.reason, chunkDeltas, Loop.receive]
      | text text =>
        by_cases htext : text = ""
        · simp [mapEvent, Event.said, Event.reason, htext]
        · simp [mapEvent, Event.said, Event.reason, htext, chunkDeltas, Loop.receive]

/-- What is received of the events of a stream. -/
theorem receive_body (body : List Event) (m : Memory) (chunks : List ChatChunk)
    (r : Loop.Received) :
    Loop.receive (emit streamStep m (body.map .ok) ++ chunks) r =
        Loop.receive chunks
          { r with
            text := r.text ++ String.join (body.map Event.said)
            deltas := r.deltas ++ deltasFrom m.toolCallState body } ∧
      (final streamStep m (body.map .ok)).lastFinish =
        ((body.filterMap Event.reason).getLast?.map finishReason).or m.lastFinish := by
  induction body generalizing m r with
  | nil => simp [emit, final, deltasFrom]
  | cons event body ih =>
    obtain ⟨hreceive, hfinish⟩ := receive_event m.toolCallState event
      (emit streamStep (streamStep m (.ok event)).state (body.map .ok) ++ chunks) r
    obtain ⟨hrest, hlast⟩ := ih (streamStep m (.ok event)).state
      { r with
        text := r.text ++ event.said
        deltas := r.deltas ++ (mapEvent m.toolCallState event).chunks.flatMap chunkDeltas }
    have hgo : (streamStep m (.ok event)).goesOn = true := rfl
    have hstate : (streamStep m (.ok event)).state.lastFinish =
        (event.reason.map finishReason).or m.lastFinish := congrArg (Option.or · _) hfinish
    dsimp only at hrest
    rw [String.append_assoc, List.append_assoc] at hrest
    rw [List.map_cons, emit, final, hgo, if_pos rfl, if_pos rfl, List.append_assoc, hlast, hstate,
      List.map_cons, deltasFrom, String.join_cons]
    refine ⟨hreceive.trans hrest, ?_⟩
    rw [getLast?_filterMap_cons, Option.map_or, Option.or_assoc]

theorem isMeta_nothing {event : Event} (h : event.isMeta = true) (state : ToolCallState) :
    event.said = "" ∧ event.reason = none ∧ (mapEvent state event).chunks = [] ∧
      (mapEvent state event).state = state := by
  cases event with
  | messageStart | contentBlockStop | metadata | unknown => exact ⟨rfl, rfl, rfl, rfl⟩
  | contentBlockDelta block delta =>
    match delta with
    | none | some .other => exact ⟨rfl, rfl, rfl, rfl⟩
    | some (.text _) | some (.toolUse _) => cases h
  | contentBlockStart | messageStop => cases h

theorem deltasFrom_filter (state : ToolCallState) (body : List Event) :
    deltasFrom state (body.filter (!·.isMeta)) = deltasFrom state body := by
  induction body generalizing state with
  | nil => rfl
  | cons event body ih =>
    cases hmeta : event.isMeta with
    | true =>
      obtain ⟨-, -, hchunks, hstate⟩ := isMeta_nothing hmeta state
      rw [List.filter_cons_of_neg (by simp [hmeta]), ih, deltasFrom, hchunks, hstate]
      rfl
    | false => rw [List.filter_cons_of_pos (by simp [hmeta]), deltasFrom, deltasFrom, ih]

/-! ## What is heard of a turn -/

/-- The pieces of a block that has an index. -/
theorem deltasFrom_pieces {state : ToolCallState} {block : Int32} {index : UInt32}
    (h : state.lookup block = some index) (pieces : List String) (rest : List Event) :
    deltasFrom state
        ((pieces.map fun s => .contentBlockDelta block (some (.toolUse s))) ++ rest) =
      (pieces.map fun s => { index, argumentsFragment := some s }) ++ deltasFrom state rest := by
  induction pieces with
  | nil => rfl
  | cons s pieces ih =>
    have hchunks : (mapEvent state (.contentBlockDelta block (some (.toolUse s)))).chunks =
        [.delta none [{ index, argumentsFragment := some s }]] := by
      rw [mapEvent]
      dsimp only
      rw [h, Option.getD_some]
    rw [List.map_cons, List.cons_append, deltasFrom, hchunks, mapEvent_toolUse_of_some h, ih]
    rfl

/-- A new block has the number of the blocks before it as its index. -/
theorem deltasFrom_tool {state : ToolCallState}
    {b : ToolBlock codec Int32 (documentToJson iteration)} (hnew : b.index ∉ state.map Prod.fst)
    (hsize : state.length < UInt32.size) (rest : List Event) :
    deltasFrom state (BrTurn.toolEvents b ++ rest) =
      (b.split (UInt32.ofNat state.length)).deltas ++
        deltasFrom (state ++ [(b.index, UInt32.ofNat state.length)]) rest := by
  have hindex : nextIndex state = UInt32.ofNat state.length := if_pos hsize
  have hstate : (mapEvent state
      (.contentBlockStart b.index (some (.toolUse b.id b.name)))).state =
        state ++ [(b.index, UInt32.ofNat state.length)] := by
    rw [mapEvent_start, insert_of_notMem hnew, hindex]
  have hlookup : (state ++ [(b.index, UInt32.ofNat state.length)]).lookup b.index =
      some (UInt32.ofNat state.length) := by
    rw [← insert_of_notMem hnew, lookup_insert_self]
  unfold BrTurn.toolEvents
  rw [List.cons_append, deltasFrom, hstate, deltasFrom_pieces hlookup, mapEvent, hindex,
    SplitCall.deltas]
  unfold ToolBlock.split
  rw [List.map_map, List.cons_append]
  rfl

theorem deltasFrom_tools {tools : List (ToolBlock codec Int32 (documentToJson iteration))}
    {state : ToolCallState} (h : (state.map Prod.fst ++ tools.map (·.index)).Nodup)
    (stopReason : StopReason) :
    deltasFrom state (tools.flatMap BrTurn.toolEvents ++ [.messageStop stopReason]) =
      ((tools.zipIdx state.length).map fun e => e.1.split (UInt32.ofNat e.2)).flatMap
        SplitCall.deltas := by
  induction tools generalizing state with
  | nil => rfl
  | cons b tools ih =>
    have hsize := length_le_size h
    rw [List.length_append, List.length_map, List.length_map, List.length_cons] at hsize
    have hnew : b.index ∉ state.map Prod.fst := fun hmem =>
      (List.nodup_append.1 h).2.2 _ hmem _ List.mem_cons_self rfl
    have hrest : ((state ++ [(b.index, UInt32.ofNat state.length)]).map Prod.fst ++
        tools.map (·.index)).Nodup := by
      rw [List.map_append, List.append_assoc]
      exact h
    have ih := ih hrest
    rw [List.length_append, List.length_singleton] at ih
    rw [List.flatMap_cons, List.append_assoc, deltasFrom_tool hnew (by omega), ih,
      List.zipIdx_cons, List.map_cons, List.flatMap_cons]

/-- The map behind the events of the text block. -/
def textState (t : BrTurn codec iteration) (started : Bool) : ToolCallState :=
  if started then (t.textBlock.map fun e => (e.1, 0)).toList else []

theorem deltasFrom_said (state : ToolCallState) (block : Int32) (pieces : List String)
    (rest : List Event) :
    deltasFrom state ((pieces.map fun s => .contentBlockDelta block (some (.text s))) ++ rest) =
      deltasFrom state rest := by
  induction pieces with
  | nil => rfl
  | cons s pieces ih =>
    have hchunks : (mapEvent state (.contentBlockDelta block (some (.text s)))).chunks.flatMap
        chunkDeltas = [] := by
      rw [mapEvent]
      dsimp only
      split <;> rfl
    rw [List.map_cons, List.cons_append, deltasFrom, hchunks]
    exact ih

theorem deltasFrom_text (t : BrTurn codec iteration) (started : Bool) (rest : List Event) :
    deltasFrom [] (t.textEvents started ++ rest) = deltasFrom (textState t started) rest := by
  unfold BrTurn.textEvents textState
  cases t.textBlock with
  | none => cases started <;> rfl
  | some e =>
    cases started with
    | false => exact deltasFrom_said [] e.1 e.2 rest
    | true => exact deltasFrom_said [(e.1, 0)] e.1 e.2 rest

theorem nodup_textState {t : BrTurn codec iteration} (h : t.blocks.Nodup) (started : Bool) :
    ((textState t started).map Prod.fst ++ t.tools.map (·.index)).Nodup := by
  refine h.sublist ?_
  unfold textState BrTurn.blocks
  cases started with
  | false => exact List.sublist_append_right _ _
  | true => cases t.textBlock <;> exact List.Sublist.refl _

theorem textEvents_heard (t : BrTurn codec iteration) (started : Bool) :
    String.join ((t.textEvents started).map Event.said) = t.text ∧
      (t.textEvents started).filterMap Event.reason = [] := by
  unfold BrTurn.textEvents BlockTurn.text
  cases t.textBlock with
  | none => exact ⟨rfl, rfl⟩
  | some e => cases started <;> simp [Event.said, Event.reason, Function.comp_def]

theorem toolEvents_heard (b : ToolBlock codec Int32 (documentToJson iteration)) :
    ∀ event ∈ BrTurn.toolEvents b, event.said = "" ∧ event.reason = none := by
  refine List.forall_mem_cons.2 ⟨⟨rfl, rfl⟩, fun event hevent => ?_⟩
  obtain ⟨s, -, rfl⟩ := List.mem_map.1 hevent
  exact ⟨rfl, rfl⟩

theorem events_heard (t : BrTurn codec iteration) (stopReason : StopReason) (started : Bool) :
    String.join ((t.events stopReason started).map Event.said) = t.text ∧
      (t.events stopReason started).filterMap Event.reason = [stopReason] := by
  obtain ⟨htext, hreason⟩ := textEvents_heard t started
  have htools : ∀ event ∈ t.tools.flatMap BrTurn.toolEvents,
      event.said = "" ∧ event.reason = none := by
    intro event hevent
    obtain ⟨b, -, hb⟩ := List.mem_flatMap.1 hevent
    exact toolEvents_heard b event hb
  have hsaid : String.join ((t.tools.flatMap BrTurn.toolEvents).map Event.said) = "" :=
    join_eq_empty (List.forall_mem_map.2 fun event hevent => (htools event hevent).1)
  have hreasons : (t.tools.flatMap BrTurn.toolEvents).filterMap Event.reason = [] :=
    List.filterMap_eq_nil_iff.2 fun event hevent => (htools event hevent).2
  unfold BrTurn.events
  constructor
  · rw [List.map_append, List.map_append, String.join_append, String.join_append, htext, hsaid]
    simp [Event.said]
  · rw [List.filterMap_append, List.filterMap_append, hreason, hreasons]
    rfl

theorem finishReason_eq (stopReason : StopReason) :
    finishReason stopReason = outputFinishReason stopReason := by
  cases stopReason <;> rfl

theorem output_read (t : BrTurn codec iteration) (stopReason : StopReason)
    (usage : Option TokenUsage) :
    (fromConverseOutput iteration (t.output stopReason usage)).map Turn.ofResponse =
      .ok (t.read (outputFinishReason stopReason)) :=
  congrArg Except.ok (ofResponse_read (blockContent iteration) .text
    (fun b => .toolUse b.id b.name b.input) t (fun _ => rfl) (fun _ => rfl) _ _)

/-- The events of a stream have what those of its turn have, the calls under new indices. -/
theorem Streams.heard {t : BrTurn codec iteration} {stopReason : StopReason} {body : List Event}
    (h : Streams t stopReason body) :
    String.join (body.map Event.said) = t.text ∧
      body.filterMap Event.reason = [stopReason] ∧
      ∃ first, first + t.tools.length ≤ UInt32.size ∧ deltasFrom [] body =
        ((t.tools.zipIdx first).map fun e => e.1.split (UInt32.ofNat e.2)).flatMap
          SplitCall.deltas := by
  obtain ⟨started, hevents⟩ := h.events
  obtain ⟨htext, hreason⟩ := events_heard t stopReason started
  have hskip : ∀ event : Event, (!event.isMeta) = false →
      event.said = "" ∧ event.reason = none := by
    intro event hmeta
    have hmeta : event.isMeta = true := by simpa using hmeta
    obtain ⟨hsaid, hreason, -⟩ := isMeta_nothing hmeta []
    exact ⟨hsaid, hreason⟩
  have hnodup := nodup_textState h.distinct started
  have hsize := length_le_size hnodup
  rw [List.length_append, List.length_map, List.length_map] at hsize
  rw [← hevents] at htext hreason
  refine ⟨?_, ?_, (textState t started).length, hsize, ?_⟩
  · rwa [join_map_filter_of_empty fun event hmeta => (hskip event hmeta).1] at htext
  · rwa [filterMap_filter_of_none fun event hmeta => (hskip event hmeta).2] at hreason
  · rw [← deltasFrom_filter, hevents, BrTurn.events, deltasFrom_text,
      deltasFrom_tools hnodup]

/-- What a stream of a turn is put together to. -/
theorem stream_read {t : BrTurn codec iteration} {stopReason : StopReason} {body : List Event}
    (h : Streams t stopReason body) :
    Turn.ofChunks codec (intoChatStream.chunks (body.map .ok)) =
      .ok (t.read (outputFinishReason stopReason)) := by
  obtain ⟨htext, hreason, first, hsize, hdeltas⟩ := h.heard
  have hasc : ((t.tools.zipIdx first).map fun e => e.1.split (UInt32.ofNat e.2)).Pairwise
      (·.index < ·.index) := by
    have hfits : 0 + first + t.tools.length ≤ UInt32.size := by omega
    refine List.pairwise_map.2 ((pairwise_zipIdx hfits).imp fun {e e'} hlt => ?_)
    rw [Nat.zero_add, Nat.zero_add] at hlt
    exact hlt
  have hcalls : ((t.tools.zipIdx first).map fun e => e.1.split (UInt32.ofNat e.2)).map
      SplitCall.call = t.calls := by
    unfold BlockTurn.calls
    conv_rhs => rw [← List.zipIdx_map_fst first t.tools, List.map_map]
    rw [List.map_map]
    rfl
  have hfinish : (final streamStep {} (body.map .ok)).lastFinish.getD .other =
      outputFinishReason stopReason := by
    rw [(receive_body body {} [] {}).2, hreason, ← finishReason_eq]
    rfl
  unfold Turn.ofChunks
  change (Loop.receive (emit streamStep {} (body.map .ok) ++
    [.end ((final streamStep {} (body.map .ok)).lastFinish.getD .other)
      (final streamStep {} (body.map .ok)).lastUsage]) {}).map _ = _
  rw [hfinish, (receive_body body {} _ {}).1, htext, hdeltas, String.empty_append,
    List.nil_append]
  exact congrArg Except.ok (ofReceived_eq hasc hcalls _ _)

/-! ## A turn with two calls -/

def inOrder : Iteration where
  order entries := entries
  perm := .refl

/-- A text and two calls. -/
def twoCalls : BrTurn Sample.codec inOrder where
  textBlock := some (0, ["h", "i"])
  tools := [emptyBlock 1 "a" (.object []) ["\x7b", "\x7d"] rfl braces_mem,
    emptyBlock 2 "b" (.object []) [] rfl nothing_mem]

def twoCallsBody : List Event :=
  [.messageStart, .contentBlockDelta 0 (some (.text "h")), .contentBlockDelta 0 (some (.text "i")),
    .contentBlockStop, .contentBlockStart 1 (some (.toolUse "a" "rm")),
    .contentBlockDelta 1 (some (.toolUse "\x7b")), .contentBlockDelta 1 (some (.toolUse "\x7d")),
    .contentBlockStop, .contentBlockStart 2 (some (.toolUse "b" "rm")), .contentBlockStop,
    .messageStop .toolUse, .metadata (some ⟨7, 3⟩)]

theorem twoCalls_streams : Streams twoCalls .toolUse twoCallsBody where
  distinct := by decide
  events := ⟨false, rfl⟩

end Bedrock

/-- The turns of Anthropic and Bedrock are read alike as responses and as streams. -/
theorem block_turns_read_alike (codec : Codec) :
    (∀ (t : Anthropic.AnTurn codec) (stopReason : Option String) (usage : Anthropic.AnUsage)
        (parse : String → Except String Anthropic.AnEvent) (body : List Anthropic.AnEvent)
        (items : List (Except String String)), Anthropic.Streams t stopReason body →
      Transmits (Anthropic.reading parse) items (body ++ [.messageStop]) →
        ∃ d, (Anthropic.fromAnthropicResponse (t.response stopReason usage)).map
            Turn.ofResponse = .ok d ∧
          Turn.ofChunks codec ((Anthropic.intoChatStream parse).chunks items) = .ok d) ∧
      ∀ (iteration : Bedrock.Iteration) (t : Bedrock.BrTurn codec iteration)
        (stopReason : Bedrock.StopReason) (usage : Option Bedrock.TokenUsage)
        (body : List Bedrock.Event), Bedrock.Streams t stopReason body →
        ∃ d, (Bedrock.fromConverseOutput iteration (t.output stopReason usage)).map
            Turn.ofResponse = .ok d ∧
          Turn.ofChunks codec (Bedrock.intoChatStream.chunks (body.map .ok)) = .ok d := by
  constructor
  · intro t stopReason usage parse body items h hitems
    exact ⟨_, Anthropic.response_read t stopReason usage, Anthropic.stream_read h hitems⟩
  · intro iteration t stopReason usage body h
    exact ⟨_, Bedrock.output_read t stopReason usage, Bedrock.stream_read h⟩

theorem two_calls_read_alike :
    (∃ d, (Anthropic.fromAnthropicResponse
          (Anthropic.twoCalls.response (some "tool_use") ⟨7, 3⟩)).map Turn.ofResponse = .ok d ∧
        Turn.ofChunks Sample.codec
          ((Anthropic.intoChatStream
              (Anthropic.parseTable (Anthropic.bodyTable ++ Anthropic.stopTable))).chunks
            ((Anthropic.bodyTable ++ Anthropic.stopTable).map fun e => .ok e.1)) = .ok d) ∧
      ∃ d, (Bedrock.fromConverseOutput Bedrock.inOrder
          (Bedrock.twoCalls.output .toolUse (some ⟨7, 3⟩))).map Turn.ofResponse = .ok d ∧
        Turn.ofChunks Sample.codec
          (Bedrock.intoChatStream.chunks (Bedrock.twoCallsBody.map .ok)) = .ok d := by
  constructor
  · refine (block_turns_read_alike Sample.codec).1 _ _ _ _ _ _ Anthropic.twoCalls_streams ?_
    exact Anthropic.transmits_table (by decide +kernel)
  · exact (block_turns_read_alike Sample.codec).2 _ _ _ _ _ Bedrock.twoCalls_streams

end Tako.Providers
