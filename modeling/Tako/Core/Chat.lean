import Tako.Core.Types

/-!
# Conversations, requests and responses

The chat types of `tako-core/src/types.rs`. An `f32` or `f64` is an exact rational, a `BTreeMap` the
list of its entries in key order.
-/

namespace Tako

/-- The acting subject of a request. -/
structure Principal where
  tenantId : String
  userId : String
  roles : List String := []
  traceId : Option String := none
  metadata : List (String × String) := []
  deriving DecidableEq, Repr

structure Capabilities where
  maxContextTokens : UInt32 := 0
  supportsStreaming : Bool := false
  supportsTools : Bool := false
  supportsVision : Bool := false
  supportsJsonMode : Bool := false
  usdPerInputMtok : Option Rat := none
  usdPerOutputMtok : Option Rat := none
  deriving DecidableEq, Repr

/-! ## Messages -/

inductive Role where
  | system
  | user
  | assistant
  | tool
  deriving DecidableEq, Repr

/-- `format!("{:?}", role)`. -/
def Role.debug : Role → String
  | .system => "System"
  | .user => "User"
  | .assistant => "Assistant"
  | .tool => "Tool"

/-- The serialised form: the name in lower case. -/
def Role.toJson : Role → Json
  | .system => .string "system"
  | .user => .string "user"
  | .assistant => .string "assistant"
  | .tool => .string "tool"

inductive ContentPart where
  | text (s : String)
  | image (mime dataB64 : String)
  | imageUrl (url : String) (mime : Option String)
  | toolCall (id name : String) (args : Json)
  | toolResult (id : String) (result : Json) (isError : Bool)
  deriving Repr

/-- `ContentPart::as_text`. -/
def ContentPart.asText : ContentPart → Option String
  | .text s => some s
  | _ => none

/-- The serialised form: the tag first, then the fields in order. -/
def ContentPart.toJson : ContentPart → Json
  | .text s => .object [("type", .string "text"), ("text", .string s)]
  | .image mime dataB64 =>
    .object [("type", .string "image"), ("mime", .string mime), ("data_b64", .string dataB64)]
  | .imageUrl url mime =>
    .object ([("type", .string "image_url"), ("url", .string url)] ++
      (mime.map fun m => ("mime", Json.string m)).toList)
  | .toolCall id name args =>
    .object [("type", .string "tool_call"), ("id", .string id), ("name", .string name),
      ("args", args)]
  | .toolResult id result isError =>
    .object [("type", .string "tool_result"), ("id", .string id), ("result", result),
      ("is_error", .bool isError)]

structure Message where
  role : Role
  content : List ContentPart
  deriving Repr

namespace Message

def system (text : String) : Message := ⟨.system, [.text text]⟩
def user (text : String) : Message := ⟨.user, [.text text]⟩
def assistant (text : String) : Message := ⟨.assistant, [.text text]⟩

def toJson (m : Message) : Json :=
  .object [("role", m.role.toJson), ("content", .array (m.content.map ContentPart.toJson))]

/-- The text parts of a message, joined. -/
def text (m : Message) : String := String.join (m.content.filterMap ContentPart.asText)

/-- The tool calls of a message: id, name and arguments. -/
def toolCalls (m : Message) : List (String × String × Json) :=
  m.content.filterMap fun
    | .toolCall id name args => some (id, name, args)
    | _ => none

end Message

/-! ## Requests and responses -/

structure ChatRequest where
  model : String
  messages : List Message
  tools : List ToolSchema := []
  temperature : Option Rat := none
  maxTokens : Option UInt32 := none
  stop : List String := []
  stream : Bool := false
  metadata : List (String × String) := []
  deriving Repr

/-- `ChatRequest::new`. -/
def ChatRequest.new (model : String) (messages : List Message) : ChatRequest := { model, messages }

/-- The serialised form without the fields that are at their defaults; `f32ToJson` prints a
temperature. -/
def ChatRequest.toJson (f32ToJson : Rat → Json) (req : ChatRequest) : Json :=
  .object ([("model", .string req.model), ("messages", .array (req.messages.map Message.toJson))] ++
    (if req.tools.isEmpty then [] else [("tools", .array (req.tools.map ToolSchema.toJson))]) ++
    optionalMember "temperature" f32ToJson req.temperature ++
    optionalMember "max_tokens" (fun n => .ofU64 n.toNat) req.maxTokens ++
    (if req.stop.isEmpty then [] else [("stop", .array (req.stop.map .string))]) ++
    [("stream", .bool req.stream)] ++
    if req.metadata.isEmpty then []
    else [("metadata", .object (req.metadata.map fun e => (e.1, .string e.2)))])

inductive FinishReason where
  | stop
  | length
  | toolCalls
  | contentFilter
  | error
  | other
  deriving DecidableEq, Repr

/-- `format!("{:?}", finish_reason)`. -/
def FinishReason.debug : FinishReason → String
  | .stop => "Stop"
  | .length => "Length"
  | .toolCalls => "ToolCalls"
  | .contentFilter => "ContentFilter"
  | .error => "Error"
  | .other => "Other"

structure Usage where
  inputTokens : UInt32 := 0
  outputTokens : UInt32 := 0
  deriving DecidableEq, Repr

/-- `u32::saturating_add`. -/
def saturatingAdd32 (a b : UInt32) : UInt32 :=
  if a.toNat + b.toNat < UInt32.size then a + b else 0xffffffff

/-- `u64::saturating_add`. -/
def saturatingAdd64 (a b : UInt64) : UInt64 :=
  if a.toNat + b.toNat < UInt64.size then a + b else 0xffffffffffffffff

namespace Usage

/-- `Usage::total`. -/
def total (u : Usage) : UInt32 := saturatingAdd32 u.inputTokens u.outputTokens

/-- Both counts, added without overflow. -/
def add (u v : Usage) : Usage :=
  ⟨saturatingAdd32 u.inputTokens v.inputTokens, saturatingAdd32 u.outputTokens v.outputTokens⟩

end Usage

structure ChatResponse where
  message : Message
  finishReason : FinishReason
  usage : Usage
  raw : List (String × Json) := []
  deriving Repr

structure ToolCallDelta where
  index : UInt32
  id : Option String := none
  name : Option String := none
  argumentsFragment : Option String := none
  deriving DecidableEq, Repr

inductive ChatChunk where
  | delta (text : Option String) (toolCalls : List ToolCallDelta)
  | error (message : String)
  | «end» (finishReason : FinishReason) (usage : Usage)
  deriving Repr

/-! ## Routing, policies and budgets -/

structure RoutingDecision where
  providerId : String
  confidence : Rat
  reason : Option String := none
  deriving DecidableEq, Repr

inductive PolicyStage where
  | preChat
  | preTool
  | postChat
  deriving DecidableEq, Repr

/-- What a policy engine sees of a call. -/
structure PolicyContext where
  stage : PolicyStage
  model : String
  messagesHash : String
  tools : List String
  toolArgsHash : Option String := none
  responseHash : Option String := none
  deriving DecidableEq, Repr

inductive PolicyDecision where
  | allow
  | deny (reason : String)
  | redactMessages (mask : List String)
  | redactResponse (mask : List String)
  | forceModel (model : String)
  | requireApproval (reason : String)
  deriving DecidableEq, Repr

/-- The decisions after which a call is not made. -/
def PolicyDecision.Blocks : PolicyDecision → Prop
  | .deny _ | .requireApproval _ => True
  | _ => False

instance : DecidablePred PolicyDecision.Blocks
  | .deny _ | .requireApproval _ => .isTrue trivial
  | .allow | .redactMessages _ | .redactResponse _ | .forceModel _ => .isFalse id

structure Budget where
  maxUsdPerRequest : Option Rat := none
  maxUsdPerDay : Option Rat := none
  maxTokensPerRequest : Option UInt32 := none
  maxUsdPerTenantPerDay : List (String × Rat) := []
  deriving DecidableEq, Repr

end Tako
