import Tako.Core.Error
import Tako.Providers.Convert.Basic

/-!
# Requests and responses of OpenAI and Mistral

`tako-providers/openai/src/convert.rs` and `mistral/src/convert.rs`: one wire format, with two more
fields in Mistral's requests and one more finish reason in its responses.
-/

namespace Tako.Providers

namespace OpenAi

/-! ## Requests -/

structure OaToolCallFunction where
  name : String
  arguments : String

structure OaToolCall where
  id : String
  kind : String := "function"
  function : OaToolCallFunction

structure OaImageUrl where
  url : String

inductive OaContentBlock where
  | text (text : String)
  | imageUrl (imageUrl : OaImageUrl)

/-- A flat string, or typed blocks if the message has an image. -/
inductive OaContent where
  | text (text : String)
  | blocks (blocks : List OaContentBlock)

structure OaMessage where
  role : String
  content : Option OaContent
  toolCalls : List OaToolCall := []
  toolCallId : Option String := none

structure OaStreamOptions where
  includeUsage : Bool

structure OaRequest where
  model : String
  messages : List OaMessage
  tools : List WireTool
  temperature : Option Rat
  maxTokens : Option UInt32
  stop : List String
  stream : Bool
  streamOptions : Option OaStreamOptions

def buildDataUrl (mime dataB64 : String) : String :=
  s!"data:{mime};base64,{stripDataUrlPrefix dataB64}"

/-- What the pass over a message's parts has collected. -/
structure Collected where
  toolCalls : List OaToolCall := []
  toolCallId : Option String := none
  toolResultContent : Option String := none
  textParts : List String := []
  blocks : List OaContentBlock := []
  hasImage : Bool := false

variable (supported : String → Bool) (toText : Json → String)

/-- One more part. A tool result takes the place of an earlier one. -/
def Collected.add (c : Collected) : ContentPart → Collected
  | .text s => { c with textParts := c.textParts ++ [s], blocks := c.blocks ++ [.text s] }
  | .toolCall id name args =>
    { c with
      toolCalls := c.toolCalls ++
        [{ id, function := { name, arguments := toText args } }] }
  | .toolResult id result _ =>
    { c with toolCallId := some id, toolResultContent := some (toText result) }
  | .image mime dataB64 =>
    if supported mime then
      { c with
        hasImage := true
        blocks := c.blocks ++ [.imageUrl ⟨buildDataUrl mime dataB64⟩] }
    else c
  | .imageUrl url _ =>
    { c with hasImage := true, blocks := c.blocks ++ [.imageUrl ⟨url⟩] }

/-- The `content` field: the tool result, blocks, a flat string or nothing. -/
def Collected.content (c : Collected) : Option OaContent :=
  match c.toolResultContent with
  | some result => some (.text result)
  | none =>
    if c.hasImage then some (.blocks c.blocks)
    else if c.textParts.isEmpty then none else some (.text (String.join c.textParts))

def collect (parts : List ContentPart) : Collected :=
  parts.foldl (Collected.add supported toText) {}

/-- A message on the wire, for the image types that the vendor supports. -/
def messageToWire (m : Message) : OaMessage :=
  let c := collect supported toText m.content
  { role := roleToStr m.role, content := c.content, toolCalls := c.toolCalls
    toolCallId := c.toolCallId }

def isSupportedOpenaiMime (mime : String) : Bool :=
  mime ∈ ["image/jpeg", "image/png", "image/gif", "image/webp"]

def messageToOa : Message → OaMessage := messageToWire isSupportedOpenaiMime toText

def toOpenaiRequest (req : ChatRequest) : OaRequest where
  model := req.model
  messages := req.messages.map (messageToOa toText)
  tools := req.tools.map toolSchemaToWire
  temperature := req.temperature
  maxTokens := req.maxTokens
  stop := req.stop
  stream := req.stream
  streamOptions := if req.stream then some ⟨true⟩ else none

/-! ## Responses -/

structure OaResponseToolCallFunction where
  name : String
  arguments : String

structure OaResponseToolCall where
  id : String
  function : OaResponseToolCallFunction

structure OaResponseMessage where
  content : Option String := none
  toolCalls : List OaResponseToolCall := []

structure OaChoice where
  message : OaResponseMessage
  finishReason : Option String := none

structure OaUsage where
  promptTokens : UInt32 := 0
  completionTokens : UInt32 := 0

structure OaResponse where
  choices : List OaChoice
  usage : OaUsage := {}

variable (parse : String → Option Json)

/-- The arguments of a call. A text that is no JSON becomes a string. -/
def decodedArgs (arguments : String) : Json :=
  if arguments = "" then .object [] else (parse arguments).getD (.string arguments)

def decodedCall (tc : OaResponseToolCall) : ContentPart :=
  .toolCall tc.id tc.function.name (decodedArgs parse tc.function.arguments)

def decodedContent (message : OaResponseMessage) : List ContentPart :=
  (message.content.filter (· ≠ "")).toList.map .text ++ message.toolCalls.map (decodedCall parse)

/-- A response, for a vendor's table of finish reasons. -/
def fromResponse (noChoices : String) (finishOf : Option String → FinishReason)
    (resp : OaResponse) : Result ChatResponse :=
  match resp.choices with
  | [] => .error (.invalid noChoices)
  | choice :: _ =>
    .ok
      { message := ⟨.assistant, decodedContent parse choice.message⟩
        finishReason := finishOf choice.finishReason
        usage := ⟨resp.usage.promptTokens, resp.usage.completionTokens⟩ }

/-- The finish reasons of responses. -/
def responseFinish : Option String → FinishReason
  | some "stop" => .stop
  | some "length" => .length
  | some "tool_calls" | some "function_call" => .toolCalls
  | some "content_filter" => .contentFilter
  | _ => .other

def fromOpenaiResponse : OaResponse → Result ChatResponse :=
  fromResponse parse "openai response had no choices" responseFinish

end OpenAi

namespace Mistral

open OpenAi

structure MiRequest where
  model : String
  messages : List OaMessage
  tools : List WireTool
  temperature : Option Rat
  maxTokens : Option UInt32
  stop : List String
  stream : Bool
  safePrompt : Option Bool
  randomSeed : Option UInt64

variable (toText : Json → String) (parse : String → Option Json)

def isSupportedMistralMime (mime : String) : Bool :=
  mime ∈ ["image/jpeg", "image/png", "image/gif", "image/webp"]

def messageToMi : Message → OaMessage := messageToWire isSupportedMistralMime toText

def toMistralRequest (req : ChatRequest) (safePrompt : Option Bool) (randomSeed : Option UInt64) :
    MiRequest where
  model := req.model
  messages := req.messages.map (messageToMi toText)
  tools := req.tools.map toolSchemaToWire
  temperature := req.temperature
  maxTokens := req.maxTokens
  stop := req.stop
  stream := req.stream
  safePrompt
  randomSeed

/-- The finish reasons of responses. -/
def responseFinish : Option String → FinishReason
  | some "stop" => .stop
  | some "length" | some "model_length" => .length
  | some "tool_calls" | some "function_call" => .toolCalls
  | some "content_filter" => .contentFilter
  | _ => .other

def fromMistralResponse : OaResponse → Result ChatResponse :=
  fromResponse parse "mistral response had no choices" responseFinish

end Mistral

end Tako.Providers
