import Tako.Core.Error
import Tako.Providers.Convert.Basic
import Tako.Providers.Stream.Anthropic

/-!
# Requests and responses of Anthropic

`tako-providers/anthropic/src/convert.rs`: the system text stands beside the messages, and a message
is a list of typed blocks.
-/

namespace Tako.Providers.Anthropic

/-! ## Requests -/

inductive AnImageSource where
  | base64 (mediaType data : String)
  | url (url : String)

inductive AnBlock where
  | text (text : String)
  | toolUse (id name : String) (input : Json)
  | toolResult (toolUseId content : String) (isError : Bool)
  | image (source : AnImageSource)

structure AnMessage where
  role : String
  content : List AnBlock

structure AnTool where
  name : String
  description : String
  inputSchema : Json

structure AnRequest where
  model : String
  messages : List AnMessage
  system : Option String
  maxTokens : UInt32
  tools : List AnTool
  temperature : Option Rat
  stopSequences : List String
  stream : Bool

def toolSchemaToAn (t : ToolSchema) : AnTool where
  name := t.name
  description := t.description
  inputSchema := t.inputSchema

def isSupportedAnthropicMime (mime : String) : Bool :=
  mime ∈ ["image/jpeg", "image/png", "image/gif", "image/webp"]

variable (toText : Json → String)

/-- Empty texts and images of other types are dropped. -/
def partToBlock : ContentPart → Option AnBlock
  | .text s => if s = "" then none else some (.text s)
  | .toolCall id name args => some (.toolUse id name args)
  | .toolResult id result isError => some (.toolResult id (toText result) isError)
  | .image mime dataB64 =>
    if isSupportedAnthropicMime mime then
      some (.image (.base64 mime (stripDataUrlPrefix dataB64)))
    else none
  | .imageUrl url _ => some (.image (.url url))

def contentToBlocks (parts : List ContentPart) : List AnBlock :=
  parts.filterMap (partToBlock toText)

/-- The text of a system message takes the place of an earlier one. -/
def systemOf (messages : List Message) : Option String :=
  messages.foldl (fun system m =>
    if m.role = .system ∧ m.text ≠ "" then some m.text else system) none

/-- A message without blocks is left out. -/
def messageToAn (m : Message) : Option AnMessage :=
  match m.role with
  | .system => none
  | .user | .tool => block "user"
  | .assistant => block "assistant"
where
  block (role : String) : Option AnMessage :=
    let content := contentToBlocks toText m.content
    if content.isEmpty then none else some { role, content }

def toAnthropicRequest (req : ChatRequest) (defaultMaxTokens : UInt32) : AnRequest where
  model := req.model
  messages := req.messages.filterMap (messageToAn toText)
  system := systemOf req.messages
  maxTokens := req.maxTokens.getD defaultMaxTokens
  tools := req.tools.map toolSchemaToAn
  temperature := req.temperature
  stopSequences := req.stop
  stream := req.stream

/-! ## Responses -/

inductive AnResponseBlock where
  | text (text : String)
  | toolUse (id name : String) (input : Json)

structure AnResponse where
  content : List AnResponseBlock := []
  stopReason : Option String := none
  usage : AnUsage := {}

/-- Empty texts are dropped. -/
def responseContent : AnResponseBlock → Option ContentPart
  | .text text => if text = "" then none else some (.text text)
  | .toolUse id name input => some (.toolCall id name input)

def responseFinish : Option String → FinishReason
  | some "end_turn" => .stop
  | some "max_tokens" => .length
  | some "tool_use" => .toolCalls
  | some "stop_sequence" => .stop
  | _ => .other

def fromAnthropicResponse (resp : AnResponse) : Result ChatResponse :=
  .ok
    { message := ⟨.assistant, resp.content.filterMap responseContent⟩
      finishReason := responseFinish resp.stopReason
      usage := ⟨resp.usage.inputTokens, resp.usage.outputTokens⟩ }

end Tako.Providers.Anthropic
