import Tako.Core.Error
import Tako.Providers.Convert.Basic
import Tako.Providers.Stream.Vertex

/-!
# Requests and responses of Vertex AI

`tako-providers/vertex/src/convert.rs`. The model is not in the request's body but in its address.
A function response names its function, which is looked up among the tool calls of the request.
-/

namespace Tako.Providers.Vertex

/-! ## Requests -/

inductive VxPart where
  | text (text : String)
  | functionCall (name : String) (args : Json)
  | functionResponse (name : String) (response : Json)
  | inlineData (mimeType data : String)
  | fileData (mimeType fileUri : String)

structure VxContent where
  role : Option String
  parts : List VxPart

structure VxFunctionDeclaration where
  name : String
  description : String
  parameters : Json

structure VxTool where
  functionDeclarations : List VxFunctionDeclaration

structure VxGenerationConfig where
  temperature : Option Rat
  maxOutputTokens : Option UInt32
  stopSequences : List String

structure VxRequest where
  contents : List VxContent
  systemInstruction : Option VxContent
  tools : List VxTool
  generationConfig : Option VxGenerationConfig

def roleToVx : Role → String
  | .user => "user"
  | .assistant => "model"
  | .tool => "function"
  | .system => "user"

def toolSchemaToVx (t : ToolSchema) : VxFunctionDeclaration where
  name := t.name
  description := t.description
  parameters := t.inputSchema

def isSupportedVertexMime (mime : String) : Bool :=
  mime ∈ ["image/jpeg", "image/png", "image/gif", "image/webp"]

/-- `tool_call_names`: the name of the last call with an id. -/
def toolCallName (messages : List Message) (id : String) : Option String :=
  ((messages.flatMap Message.toolCalls).reverse.find? (·.1 = id)).map (·.2.1)

def partToVx (nameOf : String → Option String) : ContentPart → Option VxPart
  | .text s => if s = "" then none else some (.text s)
  | .toolCall _ name args => some (.functionCall name args)
  | .toolResult id result _ => some (.functionResponse ((nameOf id).getD id) result)
  | .image mime dataB64 =>
    if isSupportedVertexMime mime then some (.inlineData mime (stripDataUrlPrefix dataB64))
    else none
  | .imageUrl url mime =>
    match mime with
    | some mime => if isSupportedVertexMime mime then some (.fileData mime url) else none
    | none => none

def messageToVx (nameOf : String → Option String) (m : Message) : VxContent where
  role := some (roleToVx m.role)
  parts := m.content.filterMap (partToVx nameOf)

/-- All system texts, each on its own lines. -/
def systemInstruction (messages : List Message) : Option VxContent :=
  let texts := (messages.filter (·.role = .system)).flatMap fun m =>
    m.content.filterMap ContentPart.asText
  if texts.isEmpty then none
  else some { role := none, parts := [.text ("\n".intercalate texts)] }

def toVertexRequest (req : ChatRequest) : VxRequest where
  contents := (req.messages.filter (·.role ≠ .system)).map
    (messageToVx (toolCallName req.messages))
  systemInstruction := systemInstruction req.messages
  tools := if req.tools.isEmpty then [] else [⟨req.tools.map toolSchemaToVx⟩]
  generationConfig :=
    if req.temperature.isSome || req.maxTokens.isSome || !req.stop.isEmpty then
      some ⟨req.temperature, req.maxTokens, req.stop⟩
    else none

/-! ## Responses -/

variable (E : Env)

/-- The parts of a candidate: a text that is not empty, then a function call. -/
def partContent (p : VxResponsePart) : List ContentPart :=
  ((p.text.filter (· ≠ "")).map .text).toList ++
    (p.functionCall.map fun fc =>
      .toolCall (vertexToolCallId E fc.name fc.args) fc.name fc.args).toList

/-- A plain finish counts as one with tool calls where there are some. -/
def responseFinish (cand : VxCandidate) : FinishReason :=
  let reason := finishReasonFromVx cand.finishReason
  if ¬cand.functionCalls.isEmpty ∧ (reason = .stop ∨ reason = .other) then .toolCalls else reason

def fromVertexResponse (resp : VxResponse) : Result ChatResponse :=
  match resp.candidates with
  | [] => .error (.invalid "vertex response had no candidates")
  | cand :: _ =>
    .ok
      { message := ⟨.assistant, cand.parts.flatMap (partContent E)⟩
        finishReason := responseFinish cand
        usage := frameUsage {} resp.usageMetadata }

end Tako.Providers.Vertex
