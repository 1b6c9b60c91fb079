import Tako.Orchestrator.Basic
import Tako.Providers.Convert.Anthropic
import Tako.Providers.Convert.HttpGeneric
import Tako.Providers.Convert.Ollama
import Tako.Providers.Convert.OpenAi
import Tako.Providers.Convert.Vertex

/-!
# Adapters

The `client.rs` of each provider crate (`lib.rs` of `http-generic`): how a request is sent to a
vendor, and what its failures become. Seven adapters post JSON to an HTTP endpoint, Bedrock goes
through the AWS SDK. Credentials, headers and timeouts are left out, and of a request to Bedrock
the converted messages. How a vendor's answer is read is a parameter.
-/

namespace Tako.Providers

/-! ## What is sent -/

/-- The address of a request, with the model that it names. -/
inductive Endpoint where
  | plain (url : String)
  | azure (endpoint deployment apiVersion : String)
  | google (base projectId location model action : String)

def Endpoint.url : Endpoint → String
  | .plain url => url
  | .azure endpoint deployment apiVersion =>
    s!"{endpoint}/openai/deployments/{deployment}/chat/completions?api-version={apiVersion}"
  | .google base projectId location model action =>
    s!"{base}/v1/projects/{projectId}/locations/{location}/publishers/google/models/" ++
      s!"{model}:{action}"

def Endpoint.model? : Endpoint → Option String
  | .plain _ => none
  | .azure _ deployment _ => some deployment
  | .google _ _ _ model _ => some model

inductive WireBody where
  | openAi (body : OpenAi.OaRequest)
  | mistral (body : Mistral.MiRequest)
  | anthropic (body : Anthropic.AnRequest)
  | ollama (body : Ollama.OlRequest)
  | vertex (body : Vertex.VxRequest)
  | rendered (template : Json) (req : ChatRequest)

/-- The model that a body names. -/
def WireBody.model? : WireBody → Option String
  | .openAi body => some body.model
  | .mistral body => some body.model
  | .anthropic body => some body.model
  | .ollama body => some body.model
  | .vertex _ => none
  | .rendered template req => if HttpGeneric.namesModel template then some req.model else none

/-- A rendered body names no model exactly if it is the same whatever the request's model is. -/
theorem WireBody.rendered_model?_eq_none_iff (f32ToJson : Rat → Json) (template : Json)
    (req : ChatRequest) :
    (WireBody.rendered template req).model? = none ↔
      ∀ model, HttpGeneric.renderTemplate f32ToJson req template =
        HttpGeneric.renderTemplate f32ToJson { req with model } template := by
  have hother : req.model ≠ req.model ++ "a" := fun h => by
    have hlength := congrArg String.length h
    simp at hlength
  simp only [HttpGeneric.renderTemplate_eq_iff, WireBody.model?]
  cases HttpGeneric.namesModel template with
  | false => simp
  | true =>
    refine iff_of_false (by simp) fun h => ?_
    exact (h (req.model ++ "a")).elim (by simp) hother

structure HttpRequest where
  endpoint : Endpoint
  body : WireBody

/-- A call of `converse`, or of `converse_stream`. -/
structure ConverseRequest where
  modelId : String
  streaming : Bool

/-- What goes to a vendor. -/
inductive WireRequest where
  | http (req : HttpRequest)
  | converse (req : ConverseRequest)

/-- All the places of a request that name a model. -/
def WireRequest.models : WireRequest → List String
  | .http req => req.endpoint.model?.toList ++ req.body.model?.toList
  | .converse req => [req.modelId]

/-! ## What comes back -/

/-- `send` fails, or there is an answer. -/
inductive Reply where
  | failed (error : String)
  | answered (status : Nat) (body : String)

/-- `StatusCode::is_success`. -/
def isSuccess (status : Nat) : Bool := 200 ≤ status && status < 300

/-- `SdkError`. A service error has a code and the status of the HTTP response. -/
inductive SdkError where
  | constructionFailure
  | timeoutError
  | dispatchFailure
  | responseError (status : Nat)
  | serviceError (code : String) (status : Nat)

/-- `format!("{e}")`. -/
def SdkError.display : SdkError → String
  | .constructionFailure => "failed to construct request"
  | .timeoutError => "request has timed out"
  | .dispatchFailure => "dispatch failure"
  | .responseError _ => "response error"
  | .serviceError _ _ => "service error"

/-- The vendors' endpoints. -/
structure Net (W : Type) where
  post : HttpRequest → W → Reply × W
  converse : ConverseRequest → W → Except SdkError String × W

/-- How a vendor's answers are read: a response as a whole, or as a stream. -/
structure Decoder where
  response : String → Result ChatResponse
  stream : String → List (Result ChatChunk)

/-- `UrlPrefetchConfig::rewrite`, which replaces images in the messages. -/
abbrev Prefetch (W : Type) := List Message → W → Result (List Message) × W

/-! ## Errors -/

/-- `map_error` of most adapters, in nanoseconds: too many requests are an error of its own. -/
def mapError (id model : String) (showStatus : Nat → String) (status : Nat) (body : String) :
    TakoError :=
  if status = 429 then .rateLimited 1000000000
  else ((TakoError.ofProvider id model s!"HTTP {showStatus status}").withStatus status).withRawBody
    body

/-- The status handling of `HttpGenericProvider`. -/
def genericError (id model : String) (showStatus : Nat → String) (status : Nat) (body : String) :
    TakoError :=
  ((TakoError.ofProvider id model s!"HTTP {showStatus status}").withStatus status).withRawBody body

def mapSdkError (providerId model : String) (e : SdkError) : TakoError :=
  .ofProvider providerId model e.display

/-! ## Adapters of HTTP endpoints -/

/-- `if req.model.is_empty() { req.model.clone_from(&self.inner.model) }` -/
def defaultModel (model : String) (req : ChatRequest) : ChatRequest :=
  if req.model = "" then { req with model } else req

/-- What the adapters do not share. `encode` is given whether the request is to be streamed. -/
structure HttpAdapter (W : Type) where
  id : String
  model : String
  prefetch : Option (Prefetch W) := none
  prepare : ChatRequest → ChatRequest := defaultModel model
  encode : Bool → ChatRequest → HttpRequest
  mapError : Nat → String → TakoError

variable {W α : Type}

/-- The images of a request are fetched first, if that is turned on. -/
def prefetched (prefetch : Option (Prefetch W)) (req : ChatRequest) (w : W) :
    Result ChatRequest × W :=
  match prefetch with
  | none => (.ok req, w)
  | some rewrite =>
    match rewrite req.messages w with
    | (.ok messages, w) => (.ok { req with messages }, w)
    | (.error e, w) => (.error e, w)

namespace HttpAdapter

variable (a : HttpAdapter W)

def answer (decode : String → Result α) : Reply → Result α
  | .failed error => .error (.transport error)
  | .answered status body =>
    if isSuccess status then decode body else .error (a.mapError status body)

def send (net : Net W) (streaming : Bool) (decode : String → Result α) (req : ChatRequest) (w : W) :
    Result α × W :=
  let (reply, w) := net.post (a.encode streaming req) w
  (a.answer decode reply, w)

def call (net : Net W) (streaming : Bool) (decode : String → Result α) (req : ChatRequest) (w : W) :
    Result α × W :=
  match prefetched a.prefetch (a.prepare req) w with
  | (.error e, w) => (.error e, w)
  | (.ok req, w) => a.send net streaming decode req w

end HttpAdapter

/-- The libraries that print JSON, a status and an `f32`. -/
structure Printer where
  json : Json → String
  status : Nat → String
  f32ToJson : Rat → Json

variable (P : Printer)

structure OpenAiProvider where
  model : String
  baseUrl : String

def OpenAiProvider.id (p : OpenAiProvider) : String := s!"openai:{p.model}"

def OpenAiProvider.adapter (p : OpenAiProvider) : HttpAdapter W where
  id := p.id
  model := p.model
  encode stream req :=
    { endpoint := .plain (Str.trimEndMatches p.baseUrl '/' ++ "/v1/chat/completions")
      body := .openAi (OpenAi.toOpenaiRequest P.json { req with stream }) }
  mapError := mapError p.id p.model P.status

structure AzureOpenAiProvider where
  deployment : String
  endpoint : String
  apiVersion : String

def AzureOpenAiProvider.id (p : AzureOpenAiProvider) : String := s!"azure-openai:{p.deployment}"

/-- Azure routes by the deployment in the address. -/
def AzureOpenAiProvider.adapter (p : AzureOpenAiProvider) : HttpAdapter W where
  id := p.id
  model := p.deployment
  encode stream req :=
    { endpoint := .azure (Str.trimEndMatches p.endpoint '/') p.deployment p.apiVersion
      body := .openAi (OpenAi.toOpenaiRequest P.json { req with stream }) }
  mapError := mapError p.id p.deployment P.status

structure AnthropicProvider where
  model : String
  baseUrl : String
  defaultMaxTokens : UInt32 := 4096

def AnthropicProvider.id (p : AnthropicProvider) : String := s!"anthropic:{p.model}"

def AnthropicProvider.adapter (p : AnthropicProvider) : HttpAdapter W where
  id := p.id
  model := p.model
  encode stream req :=
    { endpoint := .plain (Str.trimEndMatches p.baseUrl '/' ++ "/v1/messages")
      body := .anthropic
        (Anthropic.toAnthropicRequest P.json { req with stream } p.defaultMaxTokens) }
  mapError := mapError p.id p.model P.status

structure MistralProvider where
  model : String
  baseUrl : String
  safePrompt : Option Bool := none
  randomSeed : Option UInt64 := none

def MistralProvider.id (p : MistralProvider) : String := s!"mistral:{p.model}"

def MistralProvider.adapter (p : MistralProvider) : HttpAdapter W where
  id := p.id
  model := p.model
  encode stream req :=
    { endpoint := .plain (Str.trimEndMatches p.baseUrl '/' ++ "/v1/chat/completions")
      body := .mistral
        (Mistral.toMistralRequest P.json { req with stream } p.safePrompt p.randomSeed) }
  mapError := mapError p.id p.model P.status

structure OllamaProvider (W : Type) where
  model : String
  baseUrl : String := "http://localhost:11434"
  urlPrefetch : Option (Prefetch W) := none

def OllamaProvider.id (p : OllamaProvider W) : String := s!"ollama:{p.model}"

def OllamaProvider.adapter (p : OllamaProvider W) : HttpAdapter W where
  id := p.id
  model := p.model
  prefetch := p.urlPrefetch
  encode stream req :=
    { endpoint := .plain (Str.trimEndMatches p.baseUrl '/' ++ "/api/chat")
      body := .ollama (Ollama.toOllamaRequest P.json { req with stream }) }
  mapError := mapError p.id p.model P.status

structure VertexProvider where
  model : String
  projectId : String
  location : String := "us-central1"
  endpointUrl : Option String := none

def VertexProvider.id (p : VertexProvider) : String := s!"vertex:{p.model}"

def VertexProvider.baseEndpoint (p : VertexProvider) : String :=
  match p.endpointUrl with
  | some u => Str.trimEndMatches u '/'
  | none => s!"https://{p.location}-aiplatform.googleapis.com"

/-- The model of the request is not looked at. -/
def VertexProvider.adapter (p : VertexProvider) : HttpAdapter W where
  id := p.id
  model := p.model
  prepare req := req
  encode stream req :=
    { endpoint := .google p.baseEndpoint p.projectId p.location p.model
        (if stream then "streamGenerateContent?alt=sse" else "generateContent")
      body := .vertex (Vertex.toVertexRequest req) }
  mapError := mapError p.id p.model P.status

/-- `HttpGenericConfig`, which has to have an id, a model and a URL. -/
structure HttpGenericProvider where
  id : String
  model : String
  url : String
  bodyTemplate : Json
  streams : Bool := false
  model_ne : model ≠ ""

/-- The id is not made of the model, and the request's `stream` is not set. -/
def HttpGenericProvider.adapter (p : HttpGenericProvider) : HttpAdapter W where
  id := p.id
  model := p.model
  encode _ req := { endpoint := .plain p.url, body := .rendered p.bodyTemplate req }
  mapError := genericError p.id p.model P.status

/-! ## Bedrock -/

/-- `toConverseInputs` tells whether a request can be converted. -/
structure BedrockProvider (W : Type) where
  model : String
  toConverseInputs : ChatRequest → Result Unit
  urlPrefetch : Option (Prefetch W) := none

namespace BedrockProvider

variable (p : BedrockProvider W)

def id : String := s!"bedrock:{p.model}"

def request (streaming : Bool) : ConverseRequest := { modelId := p.model, streaming }

def answer (decode : String → Result α) : Except SdkError String → Result α
  | .ok output => decode output
  | .error e => .error (mapSdkError p.id p.model e)

def call (net : Net W) (streaming : Bool) (decode : String → Result α) (req : ChatRequest) (w : W) :
    Result α × W :=
  match prefetched p.urlPrefetch (defaultModel p.model req) w with
  | (.error e, w) => (.error e, w)
  | (.ok req, w) =>
    match p.toConverseInputs req with
    | .error e => (.error e, w)
    | .ok () =>
      match net.converse (p.request streaming) w with
      | (reply, w) => (p.answer decode reply, w)

end BedrockProvider

/-! ## All adapters -/

inductive Adapter (W : Type) where
  | openAi (p : OpenAiProvider)
  | azureOpenAi (p : AzureOpenAiProvider)
  | anthropic (p : AnthropicProvider)
  | mistral (p : MistralProvider)
  | ollama (p : OllamaProvider W)
  | vertex (p : VertexProvider)
  | httpGeneric (p : HttpGenericProvider)
  | bedrock (p : BedrockProvider W)

namespace Adapter

/-- The adapter of an HTTP endpoint, or Bedrock. -/
def kind : Adapter W → HttpAdapter W ⊕ BedrockProvider W
  | .openAi p => .inl (p.adapter P)
  | .azureOpenAi p => .inl (p.adapter P)
  | .anthropic p => .inl (p.adapter P)
  | .mistral p => .inl (p.adapter P)
  | .ollama p => .inl (p.adapter P)
  | .vertex p => .inl (p.adapter P)
  | .httpGeneric p => .inl (p.adapter P)
  | .bedrock p => .inr p

def id : Adapter W → String
  | .openAi p => p.id
  | .azureOpenAi p => p.id
  | .anthropic p => p.id
  | .mistral p => p.id
  | .ollama p => p.id
  | .vertex p => p.id
  | .httpGeneric p => p.id
  | .bedrock p => p.id

/-- The model that an adapter is configured with, Azure's deployment. -/
def model : Adapter W → String
  | .openAi p => p.model
  | .azureOpenAi p => p.deployment
  | .anthropic p => p.model
  | .mistral p => p.model
  | .ollama p => p.model
  | .vertex p => p.model
  | .httpGeneric p => p.model
  | .bedrock p => p.model

variable (a : Adapter W)

/-- What the adapter makes of a request whose images have been fetched. -/
def wire (streaming : Bool) (req : ChatRequest) : WireRequest :=
  match a.kind P with
  | .inl adapter => .http (adapter.encode streaming (adapter.prepare req))
  | .inr p => .converse (p.request streaming)

def call (net : Net W) (streaming : Bool) (decode : String → Result α) (req : ChatRequest) (w : W) :
    Result α × W :=
  match a.kind P with
  | .inl adapter => adapter.call net streaming decode req w
  | .inr p => p.call net streaming decode req w

/-- `HttpGenericProvider::stream` fails without a `stream_config`. -/
def canStream : Adapter W → Bool
  | .httpGeneric p => p.streams
  | _ => true

def noStreamConfig : TakoError :=
  .invalid ("tako-providers-http-generic: no stream_config set on this provider; " ++
    "set HttpGenericConfig::stream_config to OpenAiSse or NdJson to enable streaming")

/-- The adapter as a provider. -/
def provider (net : Net W) (decoder : Decoder) (capabilities : Capabilities)
    (estimateCostUsd : ChatRequest → Rat) : Orchestrator.LlmProvider W where
  id := a.id
  capabilities
  estimateCostUsd
  chat _ req w := a.call P net false decoder.response req w
  stream _ req w :=
    if a.canStream then a.call P net true (fun body => .ok (decoder.stream body)) req w
    else (.error noStreamConfig, w)

end Adapter

end Tako.Providers
