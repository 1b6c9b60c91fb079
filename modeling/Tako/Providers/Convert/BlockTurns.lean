import Tako.Orchestrator.Interleaved
import Tako.Orchestrator.Texts
import Tako.Providers.Convert.Agreement

/-!
# Turns of blocks

A turn of Anthropic or Bedrock is a text block and blocks with tool calls. In a stream each block
has an index and comes in pieces.
-/

namespace Tako.Providers

open Orchestrator Transducer

/-- A block with a tool call, with the JSON text of its input in pieces. -/
structure ToolBlock (codec : Codec) (ι : Type) {α : Type} (json : α → Json) where
  index : ι
  id : String
  name : String
  input : α
  pieces : List String
  spells : Spells codec (String.join pieces) (json input)

/-- An optional text block with its text in pieces, and then blocks with tool calls. -/
structure BlockTurn (codec : Codec) (ι : Type) {α : Type} (json : α → Json) where
  textBlock : Option (ι × List String)
  tools : List (ToolBlock codec ι json)

section
variable {codec : Codec} {ι α : Type} {json : α → Json}

theorem join_pieces (pieces : List String) :
    String.join ((none :: pieces.map some).filterMap fun f => f) = String.join pieces := by
  rw [List.filterMap_cons_none rfl, List.filterMap_map]
  exact congrArg String.join List.filterMap_some

/-- The call of a block under an index. -/
def ToolBlock.split (b : ToolBlock codec ι json) (index : UInt32) : SplitCall codec where
  index
  id := b.id
  name := b.name
  args := json b.input
  first := none
  rest := b.pieces.map some
  spells := by
    rw [join_pieces]
    exact b.spells

namespace BlockTurn

variable (t : BlockTurn codec ι json)

def text : String := String.join (t.textBlock.elim [] (·.2))

def calls : List (String × String × Json) := t.tools.map fun b => (b.id, b.name, json b.input)

/-- What both ways of reading come to. -/
def read (finishReason : FinishReason) : Turn := ⟨t.text, t.calls, finishReason⟩

end BlockTurn

/-- What is received has the turn's text and its calls. -/
theorem ofReceived_eq {t : BlockTurn codec ι json} {calls : List (SplitCall codec)}
    (hasc : calls.Pairwise (·.index < ·.index)) (hcalls : calls.map SplitCall.call = t.calls)
    (finishReason : FinishReason) (usage : Usage) :
    Turn.of (Loop.Received.message codec ⟨t.text, calls.flatMap SplitCall.deltas, finishReason,
      usage⟩) finishReason = t.read finishReason := by
  have hassembled : assembleToolCalls codec (calls.flatMap SplitCall.deltas) =
      t.calls.map toolCallPart := by
    rw [assembleToolCalls_flatMap codec hasc, ← hcalls, List.map_map]
    rfl
  unfold Turn.of
  rw [Loop.Received.message_text, received_toolCalls, hassembled]
  exact congrArg (Turn.mk t.text · finishReason) (OpenAi.plainMessage_toolCalls "" t.calls)

/-- A response with the blocks of a turn, where empty texts are left out. -/
theorem ofResponse_read {β : Type} (content : β → Option ContentPart) (ofText : String → β)
    (ofTool : ToolBlock codec ι json → β) (t : BlockTurn codec ι json)
    (htext : ∀ s, content (ofText s) = if s = "" then none else some (.text s))
    (htool : ∀ b, content (ofTool b) = some (.toolCall b.id b.name (json b.input)))
    (finishReason : FinishReason) (usage : Usage) :
    Turn.ofResponse ⟨⟨.assistant, ((t.textBlock.map fun _ => ofText t.text).toList ++
      t.tools.map ofTool).filterMap content⟩, finishReason, usage, []⟩ = t.read finishReason := by
  have htools : (t.tools.map ofTool).filterMap content = t.calls.map toolCallPart := by
    have hcontent : content ∘ ofTool = some ∘ fun b => .toolCall b.id b.name (json b.input) :=
      funext htool
    unfold BlockTurn.calls
    rw [List.filterMap_map, hcontent, List.filterMap_eq_map, List.map_map]
    rfl
  have hblock : ((t.textBlock.map fun _ => ofText t.text).toList).filterMap content =
      if t.text = "" then [] else [.text t.text] := by
    cases hnone : t.textBlock with
    | none =>
      unfold BlockTurn.text
      rw [hnone]
      rfl
    | some e =>
      rw [Option.map_some, Option.toList_some, List.filterMap_cons, htext]
      by_cases hempty : t.text = ""
      · rw [if_pos hempty, if_pos hempty]
        rfl
      · rw [if_neg hempty, if_neg hempty]
        rfl
  rw [List.filterMap_append, hblock, htools]
  exact OpenAi.turn_of_plainMessage t.text t.calls finishReason

end

theorem join_eq_empty {l : List String} (h : ∀ s ∈ l, s = "") : String.join l = "" := by
  induction l with
  | nil => rfl
  | cons s l ih =>
    rw [String.join_cons, h s List.mem_cons_self, ih fun s' hs => h s' (List.mem_cons_of_mem s hs)]
    rfl

section
variable {α β : Type} {p : α → Bool} {l : List α}

theorem flatMap_filter_of_nil {f : α → List β} (h : ∀ a, p a = false → f a = []) :
    (l.filter p).flatMap f = l.flatMap f := by
  induction l with
  | nil => rfl
  | cons a l ih =>
    cases hp : p a with
    | true => rw [List.filter_cons_of_pos hp, List.flatMap_cons, List.flatMap_cons, ih]
    | false =>
      rw [List.filter_cons_of_neg (by simp [hp]), List.flatMap_cons, h a hp, List.nil_append, ih]

theorem join_map_filter_of_empty {f : α → String} (h : ∀ a, p a = false → f a = "") :
    String.join ((l.filter p).map f) = String.join (l.map f) := by
  induction l with
  | nil => rfl
  | cons a l ih =>
    cases hp : p a with
    | true =>
      rw [List.filter_cons_of_pos hp, List.map_cons, List.map_cons, String.join_cons,
        String.join_cons, ih]
    | false =>
      rw [List.filter_cons_of_neg (by simp [hp]), List.map_cons, String.join_cons, h a hp,
        String.empty_append, ih]

theorem filterMap_filter_of_none {f : α → Option β} (h : ∀ a, p a = false → f a = none) :
    (l.filter p).filterMap f = l.filterMap f := by
  rw [List.filterMap_filter]
  refine List.filterMap_congr fun a _ => ?_
  split
  · rfl
  · next hp => exact (h a (Bool.not_eq_true _ ▸ hp)).symm

theorem getLast?_filterMap_cons (f : α → Option β) (a : α) (l : List α) :
    ((a :: l).filterMap f).getLast? = (l.filterMap f).getLast?.or (f a) := by
  rw [← List.singleton_append, List.filterMap_append, List.getLast?_append]
  cases h : f a <;> simp [h]

end

/-! ## A block of a call without arguments -/

section
variable {ι α : Type} {json : α → Json}

/-- A call without arguments: its input comes as an empty object, or not at all. -/
def emptyBlock (index : ι) (id : String) (input : α) (pieces : List String)
    (h : json input = .object []) (hpieces : String.join pieces ∈ ["", "\x7b\x7d"]) :
    ToolBlock Sample.codec ι json where
  index
  id
  name := "rm"
  input
  pieces
  spells := by
    rcases List.mem_cons.1 hpieces with htext | hpieces
    · rw [htext, Spells, if_pos rfl, h]
    · rw [List.mem_singleton.1 hpieces, Spells, if_neg (by decide), h]
      rfl

theorem braces_mem : String.join ["\x7b", "\x7d"] ∈ ["", "\x7b\x7d"] := by decide

theorem nothing_mem : String.join [] ∈ ["", "\x7b\x7d"] := by decide

end

end Tako.Providers
