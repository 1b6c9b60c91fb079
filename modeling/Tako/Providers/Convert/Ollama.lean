import Tako.Providers.Convert.Basic

/-!
# Requests of Ollama

`tako-providers/ollama/src/convert.rs`: images stand beside the text, and neither a tool call nor a
tool result has an id.
-/

namespace Tako.Providers.Ollama

structure OlOptions where
  temperature : Option Rat := none
  numPredict : Option UInt32 := none
  stop : List String := []

structure OlToolCallFunction where
  name : String
  arguments : Json

structure OlToolCall where
  function : OlToolCallFunction

structure OlMessage where
  role : String
  content : String
  toolCalls : List OlToolCall := []
  images : List String := []

structure OlRequest where
  model : String
  messages : List OlMessage
  tools : List WireTool
  stream : Bool
  options : OlOptions

/-- What the pass over a message's parts has collected. -/
structure Collected where
  textParts : List String := []
  toolCalls : List OlToolCall := []
  toolResult : Option String := none
  images : List String := []

variable (toText : Json → String)

/-- One more part. A tool result takes the place of an earlier one. -/
def Collected.add (c : Collected) : ContentPart → Collected
  | .text s => { c with textParts := c.textParts ++ [s] }
  | .toolCall _ name args => { c with toolCalls := c.toolCalls ++ [⟨⟨name, args⟩⟩] }
  | .toolResult _ result _ => { c with toolResult := some (toText result) }
  | .image _ dataB64 => { c with images := c.images ++ [stripDataUrlPrefix dataB64] }
  | .imageUrl _ _ => c

def collect (parts : List ContentPart) : Collected := parts.foldl (Collected.add toText) {}

def messageToOl (m : Message) : OlMessage :=
  let c := collect toText m.content
  { role := roleToStr m.role
    content := c.toolResult.getD (String.join c.textParts)
    toolCalls := c.toolCalls
    images := c.images }

def toOllamaRequest (req : ChatRequest) : OlRequest where
  model := req.model
  messages := req.messages.map (messageToOl toText)
  tools := req.tools.map toolSchemaToWire
  stream := req.stream
  options := { temperature := req.temperature, numPredict := req.maxTokens, stop := req.stop }

end Tako.Providers.Ollama
