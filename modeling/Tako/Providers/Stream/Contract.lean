import Tako.Providers.Stream.Anthropic
import Tako.Providers.Stream.Bedrock
import Tako.Providers.Stream.HttpGeneric
import Tako.Providers.Stream.Ollama
import Tako.Providers.Stream.OpenAi
import Tako.Providers.Stream.Vertex

/-!
# The contract of the streams

Each adapter ends with one `End`, after deltas and errors (`chunks_end`). That an error comes once,
and last, is not so: all adapters but Bedrock's go on after a frame that does not parse.
-/

namespace Tako.Providers

open Transducer

/-- The providers with a stream adapter, with what their adapters are given. -/
inductive Provider where
  | openAi (parse : String → Except String OpenAi.StreamFrame)
  | anthropic (parse : String → Except String Anthropic.AnEvent)
  | mistral (parse : String → Except String OpenAi.StreamFrame)
  | vertex (E : Vertex.Env)
  | bedrock
  | ollama (E : Ollama.Env)
  | httpGeneric (E : HttpGeneric.Env) (config : HttpGeneric.StreamConfig)

namespace Provider

def intoChatStream : Provider → StreamAdapter
  | openAi parse => OpenAi.intoChatStream parse
  | anthropic parse => Anthropic.intoChatStream parse
  | mistral parse => Mistral.intoChatStream parse
  | vertex E => Vertex.intoChatStream E
  | bedrock => Bedrock.intoChatStream
  | ollama E => Ollama.intoChatStream E
  | httpGeneric E (.openAiSse P) => HttpGeneric.streamOpenAiSse E P
  | httpGeneric E (.ndJson P) => HttpGeneric.streamNdjson E P

/-- What an item of the upstream lets the adapter yield. -/
def kind : (p : Provider) → p.intoChatStream.Item → Kind
  | openAi parse | mistral parse => loopKind (OpenAi.reading parse) OpenAi.StreamFrame.kind
  | anthropic parse => loopKind (Anthropic.reading parse) Anthropic.AnEvent.kind
  | vertex E => loopKind (Vertex.reading E) Vertex.VxResponse.kind
  | bedrock => Bedrock.kind
  | ollama E => loopKind (Ollama.reading E) Ollama.OlResponse.kind
  | httpGeneric E (.openAiSse P) =>
    loopKind (HttpGeneric.sseReading E) (HttpGeneric.frameKind E P)
  | httpGeneric E (.ndJson P) =>
    loopKind (HttpGeneric.lineReading E) (HttpGeneric.lineFrameKind E P)

theorem follows (p : Provider) : ∃ I, p.intoChatStream.Follows p.kind I := by
  cases p with
  | openAi | mistral => exact ⟨_, .of_fits fun m => loopStep_fits (OpenAi.frameStep_fits m)⟩
  | anthropic => exact ⟨_, .of_fits fun m => loopStep_fits (Anthropic.frameStep_fits m)⟩
  | vertex => exact ⟨_, .of_fits fun m => loopStep_fits (Vertex.frameStep_fits m)⟩
  | bedrock => exact ⟨_, .of_fits Bedrock.streamStep_fits⟩
  | ollama => exact ⟨_, .of_fits Ollama.streamStep_fits⟩
  | httpGeneric E config =>
    cases config with
    | openAiSse => exact ⟨_, .of_fits fun m => loopStep_fits (HttpGeneric.frameStep_fits m)⟩
    | ndJson =>
      refine ⟨fun m => m.lastFinish = none, rfl, fun m i hm => ?_, fun m i hm hgo => ?_⟩
      · exact loopStep_fits (HttpGeneric.lineFrameStep_fits hm) i
      · exact HttpGeneric.lineStep_finish hm hgo

end Provider

variable (p : Provider) (items : List p.intoChatStream.Item)

/-- The end of a stream comes once, and last. -/
theorem chunks_end : ∃ chunks finishReason usage,
    p.intoChatStream.chunks items = chunks ++ [.end finishReason usage] ∧
      ∀ c ∈ chunks, c.IsDelta ∨ c.IsError := by
  obtain ⟨I, h⟩ := p.follows
  exact ⟨_, _, _, rfl, good_or_bad h.fits h.kept h.start⟩

/-- A stream keeps the contract exactly if nothing comes after a frame that does not parse. -/
theorem conforms_iff_silent :
    Conforms (p.intoChatStream.chunks items) ↔ Orderly (items.map p.kind) := by
  obtain ⟨I, h⟩ := p.follows
  exact conforms_iff_orderly h

/-- After deltas and errors the end of a stream comes once, and last. The errors come to one, right
before the end, exactly if nothing comes after a frame that does not parse. -/
theorem stream_contract :
    (∃ chunks finishReason usage,
      p.intoChatStream.chunks items = chunks ++ [.end finishReason usage] ∧
        ∀ c ∈ chunks, c.IsDelta ∨ c.IsError) ∧
      (Conforms (p.intoChatStream.chunks items) ↔ Orderly (items.map p.kind)) :=
  ⟨chunks_end p items, conforms_iff_silent p items⟩

/-- Bedrock's stream keeps the contract. -/
theorem bedrock_conforms (items : List Bedrock.intoChatStream.Item) :
    Conforms (Bedrock.intoChatStream.chunks items) :=
  (conforms_iff_orderly (.of_fits Bedrock.streamStep_fits)).2 (Bedrock.orderly_kinds items)

/-! ## A frame cut short -/

/-- A frame that is cut short does not parse. The one that is tried besides parses. -/
def samplesParse (data : String) : Except String OpenAi.StreamFrame :=
  if data = "\x7b" then .error "EOF while parsing an object at line 1 column 1"
  else .ok { choices := [{ delta := { content := some "Hi" } }] }

/-- After a frame that is cut short, the OpenAI stream goes on with a text. -/
theorem delta_after_error : ¬Conforms ((Provider.openAi samplesParse).intoChatStream.chunks
    [.ok "\x7b", .ok "\x7b\"choices\":[\x7b\"delta\":\x7b\"content\":\"Hi\"\x7d\x7d]\x7d"]) := by
  rw [conforms_iff]
  rintro (⟨hdelta, -⟩ | ⟨-, hnil⟩)
  · exact hdelta
  · cases hnil

end Tako.Providers
