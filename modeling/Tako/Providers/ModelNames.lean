import Mathlib.Data.List.TakeWhile
import Tako.Orchestrator.Models
import Tako.Orchestrator.Sample
import Tako.Providers.Adapters

/-!
# The model on the wire

An adapter's id is the vendor's name, a colon and the model. The orchestrators take the model of
their requests from between the first two colons, and most adapters put that on the wire unless it
is empty. So the configured model is what is sent exactly if it has no colon, or begins with one,
or the adapter does not look at the request's model (`wire_model_iff`).
-/

namespace Tako.Providers

open Orchestrator

variable {W : Type}

/-! ## Ids -/

theorem head?_splitOn (a : Char) (l : List Char) :
    (l.splitOn a).head? = some (l.takeWhile (· ≠ a)) := by
  induction l with
  | nil => rfl
  | cons b l ih =>
    rw [List.splitOn_cons_eq_if_modifyHead]
    by_cases h : b = a
    · simp [h]
    · simp [h, ih, List.head?_modifyHead]

/-- An id made of a vendor's name and a model. -/
theorem modelOf_eq {vendor : String} (h : ':' ∉ vendor.toList) (model : String) :
    modelOf (vendor ++ ":" ++ model) = Str.beforeFirst model ':' := by
  have hid : (vendor ++ ":" ++ model).toList = vendor.toList ++ ':' :: model.toList := by simp
  unfold modelOf
  rw [hid, List.splitOn_append_cons_self_of_not_mem h, List.getElem?_cons_succ,
    ← List.head?_eq_getElem?, head?_splitOn]
  rfl

/-! ## What is sent -/

/-- Every model that the request names on the wire is the configured one. -/
def Adapter.Carries (P : Printer) (a : Adapter W) (streaming : Bool) (req : ChatRequest) : Prop :=
  ∀ m ∈ (a.wire P streaming req).models, m = a.model

/-- The adapter sends its own model, whatever the request's is. -/
def Adapter.OwnModel : Adapter W → Prop
  | .vertex _ | .bedrock _ => True
  | .httpGeneric p => HttpGeneric.namesModel p.bodyTemplate = false
  | _ => False

theorem defaultModel_model_eq_iff {model : String} {req : ChatRequest} :
    (defaultModel model req).model = model ↔ req.model = "" ∨ req.model = model := by
  unfold defaultModel
  split <;> simp_all

theorem Adapter.carries_iff (P : Printer) (a : Adapter W) (streaming : Bool) (req : ChatRequest) :
    a.Carries P streaming req ↔ a.OwnModel ∨ req.model = "" ∨ req.model = a.model := by
  have hdefault (model : String) :
      (∀ m ∈ [(defaultModel model req).model], m = model) ↔
        False ∨ req.model = "" ∨ req.model = model := by
    rw [List.forall_mem_singleton, defaultModel_model_eq_iff, false_or]
  cases a with
  | openAi p | anthropic p | mistral p | ollama p => exact hdefault p.model
  | azureOpenAi p =>
    refine Iff.trans ?_ (hdefault p.deployment)
    exact List.forall_mem_cons.trans (and_iff_right rfl)
  | vertex p | bedrock p => exact iff_of_true (List.forall_mem_singleton.2 rfl) (.inl trivial)
  | httpGeneric p =>
    change (∀ m ∈ (if HttpGeneric.namesModel p.bodyTemplate then
      some (defaultModel p.model req).model else none).toList, m = p.model) ↔
        HttpGeneric.namesModel p.bodyTemplate = false ∨ req.model = "" ∨ req.model = p.model
    cases HttpGeneric.namesModel p.bodyTemplate with
    | false => simp
    | true =>
      rw [if_pos rfl, Option.toList_some, hdefault, false_or, Bool.true_eq_false, false_or]

/-! ## What reaches the vendor -/

theorem defaultModel_messages (model : String) (req : ChatRequest) (messages : List Message) :
    defaultModel model { req with messages } = { defaultModel model req with messages } := by
  unfold defaultModel
  split <;> rfl

theorem HttpAdapter.call_congr {α : Type} (a : HttpAdapter W) {net net' : Net W} {streaming : Bool}
    {req : ChatRequest}
    (h : ∀ messages, net.post (a.encode streaming { a.prepare req with messages }) =
      net'.post (a.encode streaming { a.prepare req with messages }))
    (decode : String → Result α) (w : W) :
    a.call net streaming decode req w = a.call net' streaming decode req w := by
  have hsend (messages : List Message) (w : W) :
      a.send net streaming decode { a.prepare req with messages } w =
        a.send net' streaming decode { a.prepare req with messages } w := by
    unfold send
    rw [h]
  unfold call prefetched
  cases a.prefetch with
  | none => exact hsend (a.prepare req).messages w
  | some rewrite =>
    dsimp only
    cases rewrite (a.prepare req).messages w with
    | mk r w' =>
      cases r with
      | error e => rfl
      | ok messages => exact hsend messages w'

theorem BedrockProvider.call_congr {α : Type} {p : BedrockProvider W} {net net' : Net W}
    {streaming : Bool}
    (h : net.converse (p.request streaming) = net'.converse (p.request streaming))
    (decode : String → Result α) (req : ChatRequest) (w : W) :
    p.call net streaming decode req w = p.call net' streaming decode req w := by
  unfold call
  rw [h]

/-- Two nets that agree on the request are the same to an adapter. -/
def Net.Agrees (net net' : Net W) : WireRequest → Prop
  | .http req => net.post req = net'.post req
  | .converse req => net.converse req = net'.converse req

/-- What reaches the vendor is the request on the wire, with images in its messages replaced. -/
theorem Adapter.call_congr {α : Type} {P : Printer} {a : Adapter W} {net net' : Net W}
    {streaming : Bool} {req : ChatRequest}
    (h : ∀ messages, net.Agrees net' (a.wire P streaming { req with messages }))
    (decode : String → Result α) (w : W) :
    a.call P net streaming decode req w = a.call P net' streaming decode req w := by
  cases a with
  | vertex p => exact HttpAdapter.call_congr _ h decode w
  | bedrock p => exact BedrockProvider.call_congr (h []) decode req w
  | openAi p | azureOpenAi p | anthropic p | mistral p | ollama p | httpGeneric p =>
    refine HttpAdapter.call_congr (p.adapter P) (fun messages => ?_) decode w
    have hmessages := h messages
    rw [Net.Agrees.eq_def] at hmessages
    exact (defaultModel_messages _ req messages) ▸ hmessages

/-! ## The configured model -/

/-- The model that the orchestrators read off the adapter's id is the configured one or empty, or
it is not looked at. -/
def Adapter.ModelIntact : Adapter W → Prop
  | .vertex _ | .bedrock _ => True
  | .httpGeneric p => HttpGeneric.namesModel p.bodyTemplate = false ∨
    modelOf p.id = "" ∨ modelOf p.id = p.model
  | a => ':' ∉ a.model.toList ∨ a.model.toList.head? = some ':'

theorem intact_iff (model : String) :
    ':' ∉ model.toList ∨ model.toList.head? = some ':' ↔
      Str.beforeFirst model ':' = "" ∨ Str.beforeFirst model ':' = model := by
  rw [Str.beforeFirst_eq_self_iff, Str.beforeFirst_eq_empty_iff]
  by_cases hempty : model = ""
  · simp [hempty]
  · simp [hempty, or_comm]

theorem Adapter.modelIntact_iff (a : Adapter W) :
    a.ModelIntact ↔ a.OwnModel ∨ modelOf a.id = "" ∨ modelOf a.id = a.model := by
  have hcomposed (vendor : String) (h : ':' ∉ vendor.toList) (model : String) :
      ':' ∉ model.toList ∨ model.toList.head? = some ':' ↔
        False ∨ modelOf (vendor ++ ":" ++ model) = "" ∨
          modelOf (vendor ++ ":" ++ model) = model := by
    rw [modelOf_eq h, intact_iff, false_or]
  cases a with
  | openAi p => exact hcomposed "openai" (by decide) p.model
  | azureOpenAi p => exact hcomposed "azure-openai" (by decide) p.deployment
  | anthropic p => exact hcomposed "anthropic" (by decide) p.model
  | mistral p => exact hcomposed "mistral" (by decide) p.model
  | ollama p => exact hcomposed "ollama" (by decide) p.model
  | vertex p | bedrock p => exact iff_of_true trivial (.inl trivial)
  | httpGeneric p => exact Iff.rfl

/-! ## Requests through adapters -/

/-- A request that an orchestrator makes through an adapter carries exactly the configured model if
and only if the model is not cut at a colon. -/
theorem wire_model_iff (P : Printer) (a : Adapter W) {req : ChatRequest} (h : Issued W a.id req)
    (streaming : Bool) : a.Carries P streaming req ↔ a.ModelIntact := by
  rw [a.carries_iff, a.modelIntact_iff, h.model]

namespace ModelNames

def printer : Printer := ⟨fun _ => "", fun _ => "", fun _ => .null⟩

/-- A vendor that has one answer. -/
def net : Net Nat := ⟨fun _ n => (.answered 200 "", n + 1), fun _ n => (.ok "", n + 1)⟩

def decoder : Decoder := ⟨fun _ => .ok Sample.done, fun _ => Sample.chunks Sample.done⟩

def agent (a : Adapter Nat) : SingleAgent Nat where
  codec := Sample.codec
  provider := a.provider printer net decoder {} fun _ => 0
  tools := Sample.tools

/-- What the agent asks at first. -/
def asked (model : String) : ChatRequest := { model, messages := [.user "hi"] }

def ollama (model : String) : Adapter Nat := .ollama { model }

theorem issued_ollama (model : String) :
    Issued Nat (ollama model).id (asked (modelOf (ollama model).id)) :=
  .single (agent (ollama model)) Sample.acme Sample.input 0 (.inl List.mem_cons_self) (if_pos rfl)

theorem wire_model_llama3 : (ollama "llama3").Carries printer false (asked "llama3") :=
  (wire_model_iff printer (ollama "llama3") (issued_ollama "llama3") false).2 (.inl (by decide))

/-- The tag of an Ollama model is cut off. -/
theorem wire_model_cut_at_tag :
    ¬∀ (a : Adapter Nat) (req : ChatRequest), Issued Nat a.id req →
      ∀ streaming, a.Carries printer streaming req := by
  intro h
  have hmodel : "llama3" = "llama3:8b" :=
    h (ollama "llama3:8b") _ (issued_ollama "llama3:8b") false "llama3" List.mem_cons_self
  exact absurd hmodel (by decide)

end ModelNames

end Tako.Providers
