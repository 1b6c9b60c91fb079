import Tako.Core.Chat

/-!
# OpenAI's wire format

The requests and responses of `/v1/chat/completions` (`tako-compat/src/openai.rs`). Times of
creation are left out.
-/

namespace Tako.Compat

/-! ## Requests -/

inductive OaStop where
  | one (s : String)
  | many (v : List String)

/-- `tool_call_id` is accepted and discarded. -/
structure OaMessage where
  role : String
  content : Option String
  toolCallId : Option String := none

structure OaChatRequest where
  model : String
  messages : List OaMessage
  temperature : Option Rat := none
  maxTokens : Option UInt32 := none
  stop : Option OaStop := none
  stream : Bool := false

/-- Unknown roles are the user's; a text that is empty is no part. -/
def OaMessage.toMessage (m : OaMessage) : Message where
  role :=
    match m.role with
    | "system" => .system
    | "assistant" => .assistant
    | "tool" => .tool
    | _ => .user
  content :=
    match m.content with
    | some text => if text = "" then [] else [.text text]
    | none => []

def fromOpenaiRequest (req : OaChatRequest) : ChatRequest where
  model := req.model
  messages := req.messages.map OaMessage.toMessage
  tools := []
  temperature := req.temperature
  maxTokens := req.maxTokens
  stop :=
    match req.stop with
    | some (.one s) => [s]
    | some (.many v) => v
    | none => []
  stream := req.stream

/-! ## Responses -/

structure OaResponseMessage where
  role : String
  content : String

structure OaChoice where
  index : UInt32
  message : OaResponseMessage
  finishReason : String

structure OaUsage where
  promptTokens : UInt32
  completionTokens : UInt32
  totalTokens : UInt32

structure OaResponse where
  id : String
  object : String
  model : String
  choices : List OaChoice
  usage : OaUsage

def finishReasonStr : FinishReason → String
  | .stop => "stop"
  | .length => "length"
  | .toolCalls => "tool_calls"
  | .contentFilter => "content_filter"
  | .error => "error"
  | .other => "stop"

def usageToOa (u : Usage) : OaUsage where
  promptTokens := u.inputTokens
  completionTokens := u.outputTokens
  totalTokens := u.total

/-- The id of a response, at so many nanoseconds. -/
def newChunkId (nanos : Nat) : String := s!"chatcmpl-tako-{nanos}"

def toOpenaiResponse (nanos : Nat) (model : String) (resp : ChatResponse) : OaResponse where
  id := newChunkId nanos
  object := "chat.completion"
  model
  choices := [{
    index := 0
    message := { role := "assistant", content := resp.message.text }
    finishReason := finishReasonStr resp.finishReason }]
  usage := usageToOa resp.usage

end Tako.Compat
