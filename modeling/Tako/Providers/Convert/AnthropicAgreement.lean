import Tako.Providers.Convert.Anthropic
import Tako.Providers.Convert.BlockTurns
import Tako.Theory.SortedMap

/-!
# A turn of Anthropic as a response and as a stream

The indices of the blocks go into the deltas as they are.
-/

namespace Tako.Providers

open Orchestrator Transducer

namespace Anthropic

variable {codec : Codec} {parse : String → Except String AnEvent}

/-- A turn of Anthropic, whose inputs are JSON. -/
abbrev AnTurn (codec : Codec) : Type := BlockTurn codec UInt32 fun input : Json => input

namespace AnTurn

variable (t : AnTurn codec) (stopReason : Option String) (usage : AnUsage)

def response : AnResponse where
  content := (t.textBlock.map fun _ => .text t.text).toList ++
    t.tools.map fun b => .toolUse b.id b.name b.input
  stopReason
  usage

def textEvents : List AnEvent :=
  match t.textBlock with
  | none => []
  | some e =>
    .contentBlockStart e.1 (.text "") :: e.2.map fun s => .contentBlockDelta e.1 (.textDelta s)

def toolEvents (b : ToolBlock codec UInt32 fun input : Json => input) : List AnEvent :=
  .contentBlockStart b.index (.toolUse b.id b.name) ::
    b.pieces.map fun s => .contentBlockDelta b.index (.inputJsonDelta s)

/-- The events with the blocks and the stop reason. -/
def events : List AnEvent :=
  t.textEvents ++ t.tools.flatMap toolEvents ++
    (stopReason.map fun r => .messageDelta (some r) usage).toList

end AnTurn

/-- The event has nothing of a block and no stop reason. -/
def AnEvent.isMeta : AnEvent → Bool
  | .ping | .messageStart _ | .contentBlockStop _ | .messageDelta none _ => true
  | _ => false

/-- The events of a turn up to the end of the message, with others anywhere among them. -/
structure Streams (t : AnTurn codec) (stopReason : Option String) (body : List AnEvent) :
    Prop where
  ascending : t.tools.Pairwise (·.index < ·.index)
  events : ∃ usage, body.filter (!·.isMeta) = t.events stopReason usage

/-! ## What is heard of an event -/

def AnEvent.said : AnEvent → String
  | .contentBlockDelta _ (.textDelta text) => text
  | _ => ""

def AnEvent.deltas : AnEvent → List ToolCallDelta
  | .contentBlockStart index (.toolUse id name) => [{ index, id := some id, name := some name }]
  | .contentBlockDelta index (.inputJsonDelta partialJson) =>
    [{ index, argumentsFragment := some partialJson }]
  | _ => []

def AnEvent.reason : AnEvent → Option String
  | .messageDelta stopReason _ => stopReason
  | _ => none

/-- The stream does not stop here. -/
def AnEvent.goesOn : AnEvent → Bool
  | .messageStop | .error _ => false
  | _ => true

theorem receive_event (m : Memory) {event : AnEvent} (h : event.goesOn = true)
    (chunks : List ChatChunk) (r : Loop.Received) :
    Loop.receive ((frameStep m event).out ++ chunks) r =
        Loop.receive chunks
          { r with text := r.text ++ event.said, deltas := r.deltas ++ event.deltas } ∧
      (frameStep m event).goesOn = true ∧
      (frameStep m event).state.lastFinish =
        (event.reason.map finishReason).or m.lastFinish := by
  cases event with
  | messageStop | error => cases h
  | messageStart | contentBlockStop | ping | messageDelta =>
    simp [frameStep, AnEvent.said, AnEvent.deltas, AnEvent.reason]
  | contentBlockStart index contentBlock =>
    cases contentBlock <;>
      simp [frameStep, AnEvent.said, AnEvent.deltas, AnEvent.reason, Loop.receive]
  | contentBlockDelta index delta =>
    cases delta <;> simp [frameStep, AnEvent.said, AnEvent.deltas, AnEvent.reason, Loop.receive]

/-- What is received of the events before the end of the message. -/
theorem receive_body {body : List AnEvent} (h : ∀ event ∈ body, event.goesOn = true) (m : Memory)
    (chunks : List ChatChunk) (r : Loop.Received) :
    Loop.receive (emit frameStep m (body ++ [.messageStop]) ++ chunks) r =
        Loop.receive chunks
          { r with
            text := r.text ++ String.join (body.map AnEvent.said)
            deltas := r.deltas ++ body.flatMap AnEvent.deltas } ∧
      (final frameStep m (body ++ [.messageStop])).lastFinish =
        ((body.filterMap AnEvent.reason).getLast?.map finishReason).or m.lastFinish := by
  induction body generalizing m r with
  | nil => simp [emit, final, frameStep]
  | cons event body ih =>
    obtain ⟨hreceive, hgo, hfinish⟩ := receive_event m (h event List.mem_cons_self)
      (emit frameStep (frameStep m event).state (body ++ [.messageStop]) ++ chunks) r
    obtain ⟨hrest, hlast⟩ := ih (fun e he => h e (List.mem_cons_of_mem event he))
      (frameStep m event).state
      { r with text := r.text ++ event.said, deltas := r.deltas ++ event.deltas }
    rw [List.cons_append, emit, final, hgo, if_pos rfl, if_pos rfl, List.append_assoc, hreceive,
      hrest, hlast, hfinish, List.map_cons, List.flatMap_cons, String.join_cons,
      String.append_assoc, List.append_assoc]
    refine ⟨rfl, ?_⟩
    rw [getLast?_filterMap_cons, Option.map_or, Option.or_assoc]

theorem isMeta_nothing {event : AnEvent} (h : event.isMeta = true) :
    event.said = "" ∧ event.deltas = [] ∧ event.reason = none ∧ event.goesOn = true := by
  cases event with
  | ping | messageStart | contentBlockStop => exact ⟨rfl, rfl, rfl, rfl⟩
  | messageDelta stopReason usage =>
    cases stopReason with
    | none => exact ⟨rfl, rfl, rfl, rfl⟩
    | some => cases h
  | contentBlockStart | contentBlockDelta | messageStop | error => cases h

/-! ## What is heard of a turn -/

theorem textEvents_heard (t : AnTurn codec) :
    String.join (t.textEvents.map AnEvent.said) = t.text ∧
      t.textEvents.flatMap AnEvent.deltas = [] ∧ t.textEvents.filterMap AnEvent.reason = [] ∧
      ∀ event ∈ t.textEvents, event.goesOn = true := by
  unfold AnTurn.textEvents BlockTurn.text
  cases t.textBlock with
  | none => exact ⟨rfl, rfl, rfl, fun _ h => by cases h⟩
  | some e =>
    simp [AnEvent.said, AnEvent.deltas, AnEvent.reason, AnEvent.goesOn, Function.comp_def]

theorem toolEvents_heard (b : ToolBlock codec UInt32 fun input : Json => input) :
    (∀ event ∈ AnTurn.toolEvents b,
      event.said = "" ∧ event.reason = none ∧ event.goesOn = true) ∧
      (AnTurn.toolEvents b).flatMap AnEvent.deltas = (b.split b.index).deltas := by
  unfold AnTurn.toolEvents SplitCall.deltas ToolBlock.split
  constructor
  · refine List.forall_mem_cons.2 ⟨⟨rfl, rfl, rfl⟩, fun event hevent => ?_⟩
    obtain ⟨s, -, rfl⟩ := List.mem_map.1 hevent
    exact ⟨rfl, rfl, rfl⟩
  · rw [List.flatMap_cons, List.flatMap_map, List.map_map]
    exact congrArg (List.cons _) List.map_eq_flatMap.symm

/-- The events of a turn have its text, the fragments of its calls and its stop reason. -/
theorem events_heard (t : AnTurn codec) (stopReason : Option String) (usage : AnUsage) :
    String.join ((t.events stopReason usage).map AnEvent.said) = t.text ∧
      (t.events stopReason usage).flatMap AnEvent.deltas =
        (t.tools.map fun b => b.split b.index).flatMap SplitCall.deltas ∧
      (t.events stopReason usage).filterMap AnEvent.reason = stopReason.toList ∧
      ∀ event ∈ t.events stopReason usage, event.goesOn = true := by
  obtain ⟨htext, hdeltas, hreason, hgo⟩ := textEvents_heard t
  have htools : ∀ event ∈ t.tools.flatMap AnTurn.toolEvents,
      event.said = "" ∧ event.reason = none ∧ event.goesOn = true := by
    intro event hevent
    obtain ⟨b, -, hb⟩ := List.mem_flatMap.1 hevent
    exact (toolEvents_heard b).1 event hb
  have hsaid : String.join ((t.tools.flatMap AnTurn.toolEvents).map AnEvent.said) = "" :=
    join_eq_empty (List.forall_mem_map.2 fun event hevent => (htools event hevent).1)
  have hreasons : (t.tools.flatMap AnTurn.toolEvents).filterMap AnEvent.reason = [] :=
    List.filterMap_eq_nil_iff.2 fun event hevent => (htools event hevent).2.1
  have hcalls : (t.tools.flatMap AnTurn.toolEvents).flatMap AnEvent.deltas =
      (t.tools.map fun b => b.split b.index).flatMap SplitCall.deltas := by
    rw [List.flatMap_assoc, List.flatMap_map]
    exact List.flatMap_congr fun b _ => (toolEvents_heard b).2
  unfold AnTurn.events
  refine ⟨?_, ?_, ?_, fun event hevent => ?_⟩
  · rw [List.map_append, List.map_append, String.join_append, String.join_append, htext, hsaid]
    cases stopReason <;> simp [AnEvent.said]
  · rw [List.flatMap_append, List.flatMap_append, hdeltas, hcalls]
    cases stopReason <;> simp [AnEvent.deltas]
  · rw [List.filterMap_append, List.filterMap_append, hreason, hreasons]
    cases stopReason <;> rfl
  · rcases List.mem_append.1 hevent with hblocks | hlast
    · rcases List.mem_append.1 hblocks with hfirst | htool
      · exact hgo event hfirst
      · exact (htools event htool).2.2
    · cases stopReason with
      | none => cases hlast
      | some reason =>
        rw [List.mem_singleton.1 hlast]
        rfl

theorem finishReason_eq (stopReason : Option String) :
    (stopReason.map finishReason).getD .other = responseFinish stopReason := by
  cases stopReason with
  | none => rfl
  | some reason =>
    rw [Option.map_some, Option.getD_some]
    unfold finishReason responseFinish
    split <;> simp_all

theorem response_read (t : AnTurn codec) (stopReason : Option String) (usage : AnUsage) :
    (fromAnthropicResponse (t.response stopReason usage)).map Turn.ofResponse =
      .ok (t.read (responseFinish stopReason)) :=
  congrArg Except.ok (ofResponse_read responseContent .text
    (fun b => .toolUse b.id b.name b.input) t (fun _ => rfl) (fun _ => rfl) _ _)

/-- The events of a stream have what those of its turn have. -/
theorem Streams.heard {t : AnTurn codec} {stopReason : Option String} {body : List AnEvent}
    (h : Streams t stopReason body) :
    String.join (body.map AnEvent.said) = t.text ∧
      body.flatMap AnEvent.deltas =
        (t.tools.map fun b => b.split b.index).flatMap SplitCall.deltas ∧
      body.filterMap AnEvent.reason = stopReason.toList ∧
      ∀ event ∈ body, event.goesOn = true := by
  obtain ⟨usage, hevents⟩ := h.events
  obtain ⟨htext, hdeltas, hreason, hgo⟩ := events_heard t stopReason usage
  have hskip : ∀ event : AnEvent, (!event.isMeta) = false →
      event.said = "" ∧ event.deltas = [] ∧ event.reason = none ∧ event.goesOn = true :=
    fun event hmeta => isMeta_nothing (by simpa using hmeta)
  rw [← hevents] at htext hdeltas hreason hgo
  refine ⟨?_, ?_, ?_, fun event hevent => ?_⟩
  · rwa [join_map_filter_of_empty fun event hmeta => (hskip event hmeta).1] at htext
  · rwa [flatMap_filter_of_nil fun event hmeta => (hskip event hmeta).2.1] at hdeltas
  · rwa [filterMap_filter_of_none fun event hmeta => (hskip event hmeta).2.2.1] at hreason
  · cases hmeta : event.isMeta with
    | true => exact (isMeta_nothing hmeta).2.2.2
    | false => exact hgo event (List.mem_filter.2 ⟨hevent, by simp [hmeta]⟩)

/-- What a stream of a turn is put together to. -/
theorem stream_read {t : AnTurn codec} {stopReason : Option String} {body : List AnEvent}
    (h : Streams t stopReason body) {items : List (Except String String)}
    (hitems : Transmits (reading parse) items (body ++ [.messageStop])) :
    Turn.ofChunks codec ((intoChatStream parse).chunks items) =
      .ok (t.read (responseFinish stopReason)) := by
  obtain ⟨htext, hdeltas, hreason, hgo⟩ := h.heard
  have hrun : emit (intoChatStream parse).step {} items =
        emit frameStep {} (body ++ [.messageStop]) ∧
      final (intoChatStream parse).step {} items =
        final frameStep {} (body ++ [.messageStop]) := hitems.run _
  have hasc : (t.tools.map fun b => b.split b.index).Pairwise (·.index < ·.index) :=
    List.pairwise_map.2 h.ascending
  have hcalls : (t.tools.map fun b => b.split b.index).map SplitCall.call = t.calls :=
    List.map_map
  have hfinish : (final (intoChatStream parse).step {} items).lastFinish.getD .other =
      responseFinish stopReason := by
    rw [hrun.2, (receive_body hgo {} [] {}).2, hreason, ← finishReason_eq]
    cases stopReason <;> rfl
  unfold Turn.ofChunks
  change (Loop.receive (emit (intoChatStream parse).step {} items ++
    [.end ((final (intoChatStream parse).step {} items).lastFinish.getD .other)
      (final (intoChatStream parse).step {} items).lastUsage]) {}).map _ = _
  rw [hfinish, hrun.1, (receive_body hgo {} _ {}).1, htext, hdeltas, String.empty_append,
    List.nil_append]
  exact congrArg Except.ok (ofReceived_eq hasc hcalls _ _)

/-! ## A turn with two calls -/

/-- The parser that knows the texts of a table. -/
def parseTable (table : List (String × AnEvent)) (text : String) : Except String AnEvent :=
  (table.lookup text).elim (.error "expected value") .ok

theorem transmits_table {table : List (String × AnEvent)} (h : (table.map Prod.fst).Nodup) :
    Transmits (reading (parseTable table)) (table.map fun e => .ok e.1) (table.map Prod.snd) := by
  have hall : ∀ l : List (String × AnEvent), (∀ e ∈ l, e ∈ table) →
      Transmits (reading (parseTable table)) (l.map fun e => .ok e.1) (l.map Prod.snd) := by
    intro l
    induction l with
    | nil => exact fun _ => .nil
    | cons e l ih =>
      intro hl
      refine .frame ?_ (ih fun e' he => hl e' (List.mem_cons_of_mem e he))
      have hlookup : table.lookup e.1 = some e.2 :=
        (SortedMap.mem_iff_lookup_of_nodup h).1 (hl e List.mem_cons_self)
      rw [reading, parseTable, hlookup]
      rfl
  exact hall table fun _ he => he

/-- A text and two calls. -/
def twoCalls : AnTurn Sample.codec where
  textBlock := some (0, ["h", "i"])
  tools := [emptyBlock 1 "a" (.object []) ["\x7b", "\x7d"] rfl braces_mem,
    emptyBlock 2 "b" (.object []) [] rfl nothing_mem]

def bodyTable : List (String × AnEvent) :=
  [("\x7b\"type\":\"message_start\",\"message\":\x7b\"usage\":\x7b\"input_tokens\":7\x7d\x7d\x7d",
      .messageStart ⟨7, 0⟩),
    ("\x7b\"type\":\"content_block_start\",\"index\":0,\"content_block\":" ++
      "\x7b\"type\":\"text\"\x7d\x7d",
      .contentBlockStart 0 (.text "")),
    ("\x7b\"type\":\"content_block_delta\",\"index\":0,\"delta\":" ++
      "\x7b\"type\":\"text_delta\",\"text\":\"h\"\x7d\x7d",
      .contentBlockDelta 0 (.textDelta "h")),
    ("\x7b\"type\":\"ping\"\x7d", .ping),
    ("\x7b\"type\":\"content_block_delta\",\"index\":0,\"delta\":" ++
      "\x7b\"type\":\"text_delta\",\"text\":\"i\"\x7d\x7d",
      .contentBlockDelta 0 (.textDelta "i")),
    ("\x7b\"type\":\"content_block_stop\",\"index\":0\x7d", .contentBlockStop 0),
    ("\x7b\"type\":\"content_block_start\",\"index\":1,\"content_block\":" ++
      "\x7b\"type\":\"tool_use\",\"id\":\"a\",\"name\":\"rm\"\x7d\x7d",
      .contentBlockStart 1 (.toolUse "a" "rm")),
    ("\x7b\"type\":\"content_block_delta\",\"index\":1,\"delta\":" ++
      "\x7b\"type\":\"input_json_delta\",\"partial_json\":\"\x7b\"\x7d\x7d",
      .contentBlockDelta 1 (.inputJsonDelta "\x7b")),
    ("\x7b\"type\":\"content_block_delta\",\"index\":1,\"delta\":" ++
      "\x7b\"type\":\"input_json_delta\",\"partial_json\":\"\x7d\"\x7d\x7d",
      .contentBlockDelta 1 (.inputJsonDelta "\x7d")),
    ("\x7b\"type\":\"content_block_start\",\"index\":2,\"content_block\":" ++
      "\x7b\"type\":\"tool_use\",\"id\":\"b\",\"name\":\"rm\"\x7d\x7d",
      .contentBlockStart 2 (.toolUse "b" "rm")),
    ("\x7b\"type\":\"message_delta\",\"delta\":\x7b\"stop_reason\":\"tool_use\"\x7d\x7d",
      .messageDelta (some "tool_use") {})]

def stopTable : List (String × AnEvent) :=
  [("\x7b\"type\":\"message_stop\"\x7d", .messageStop)]

theorem twoCalls_streams : Streams twoCalls (some "tool_use") (bodyTable.map Prod.snd) where
  ascending := by decide
  events := ⟨{}, rfl⟩

end Anthropic

end Tako.Providers
