import Tako.Providers.ModelNames

/-!
# `FallbackProvider`

A primary provider and its fallbacks (`tako-runtime/src/fallback.rs`): where a call fails with a
transient error, the next provider gets the same request. So the request names the model of the
primary's id, also where a fallback puts it on the wire (`fallback_model_iff`).
-/

namespace Tako.Runtime

open Orchestrator Providers Traced

variable {W α : Type}

structure FallbackProvider (W : Type) where
  primary : LlmProvider W
  fallbacks : List (LlmProvider W) := []

/-- A call of a provider in the chain. The primary is the provider 0. -/
structure Called (α : Type) where
  index : Nat
  provider : String
  req : ChatRequest
  result : Result α

/-- `chat` or `stream` of a provider. -/
abbrev Method (W α : Type) := LlmProvider W → Principal → ChatRequest → W → Result α × W

namespace FallbackProvider

/-- The provider gets a clone of the request. -/
def ask (method : Method W α) (p : Principal) (req : ChatRequest) (i : Nat)
    (provider : LlmProvider W) : Traced W (Called α) TakoError α :=
  .call (method provider p req) fun _ r => ⟨i, provider.id, req, r⟩

/-- The fallbacks from the `i`-th provider on. -/
def cascade (ask : Nat → LlmProvider W → Traced W (Called α) TakoError α) :
    Nat → TakoError → List (LlmProvider W) → Traced W (Called α) TakoError α
  | _, lastErr, [] => .throw lastErr
  | i, _, fb :: fallbacks => do
    match ← (ask i fb).attempt with
    | .ok r => pure r
    | .error e => if e.isTransient then cascade ask (i + 1) e fallbacks else .throw e

variable (F : FallbackProvider W)

def answer (method : Method W α) (p : Principal) (req : ChatRequest) :
    Traced W (Called α) TakoError α := do
  match ← (ask method p req 0 F.primary).attempt with
  | .ok r => pure r
  | .error e => if e.isTransient then cascade (ask method p req) 1 e F.fallbacks else .throw e

def chat : Principal → ChatRequest → Traced W (Called ChatResponse) TakoError ChatResponse :=
  F.answer LlmProvider.chat

/-- Only the start of a stream is tried again. -/
def stream (p : Principal) (req : ChatRequest) :
    Traced W (Called (List (Result ChatChunk))) TakoError (List (Result ChatChunk)) :=
  F.answer LlmProvider.stream p req

/-- `id`, `capabilities` and the estimate are the primary's. -/
def provider : LlmProvider W where
  id := F.primary.id
  capabilities := F.primary.capabilities
  estimateCostUsd := F.primary.estimateCostUsd
  chat p req w := (((F.chat p req).run w).result, ((F.chat p req).run w).world)
  stream p req w := (((F.stream p req).run w).result, ((F.stream p req).run w).world)

/-! ## Who is called -/

/-- The call passes the request on to the provider of its index. -/
def Forwards (req : ChatRequest) (c : Called α) : Prop :=
  c.req = req ∧ (F.primary :: F.fallbacks)[c.index]?.map (·.id) = some c.provider

variable {F} {method : Method W α} {p : Principal} {req : ChatRequest}

theorem cascade_forwards {i : Nat} {fallbacks : List (LlmProvider W)}
    (h : ∀ j fb, fallbacks[j]? = some fb → (F.primary :: F.fallbacks)[i + j]? = some fb)
    (lastErr : TakoError) :
    (cascade (ask method p req) i lastErr fallbacks).Acts (F.Forwards req) := by
  induction fallbacks generalizing i lastErr with
  | nil => exact .throw _
  | cons fb fallbacks ih =>
    have hfb : (F.primary :: F.fallbacks)[i]? = some fb := h 0 fb rfl
    have hrest (j : Nat) (fb' : LlmProvider W) (hj : fallbacks[j]? = some fb') :
        (F.primary :: F.fallbacks)[i + 1 + j]? = some fb' := by
      rw [Nat.add_right_comm, Nat.add_assoc]
      exact h (j + 1) fb' hj
    refine .bind (Acts.attempt (.call fun w => ⟨rfl, ?_⟩)) fun r => ?_
    · rw [hfb]
      rfl
    · split
      · exact .pure _
      · split
        · exact ih hrest _
        · exact .throw _

theorem answer_forwards : (F.answer method p req).Acts (F.Forwards req) := by
  refine .bind (Acts.attempt (.call fun w => ⟨rfl, rfl⟩)) fun r => ?_
  split
  · exact .pure _
  · split
    · refine cascade_forwards (fun j fb hj => ?_) _
      rw [Nat.add_comm]
      exact hj
    · exact .throw _

end FallbackProvider

/-! ## The models of the fallbacks -/

/-- A request that an orchestrator makes through the chain names a fallback's own model on the wire
exactly if that is the model of the primary's id, or none is there, or the fallback does not look
at it. -/
theorem fallback_model_iff {F : FallbackProvider W} {i : Nat} {a : Adapter W}
    (hi : F.fallbacks[i]?.map (·.id) = some a.id) {req : ChatRequest}
    (h : Issued W F.provider.id req) {method : Method W α} {p : Principal} {w : W} {c : Called α}
    (hc : c ∈ ((F.answer method p req).run w).trace) (hindex : c.index = i + 1) (P : Printer)
    (streaming : Bool) :
    c.provider = a.id ∧ (a.Carries P streaming c.req ↔
      a.OwnModel ∨ modelOf F.primary.id = "" ∨ modelOf F.primary.id = a.model) := by
  obtain ⟨hreq, hprovider⟩ := FallbackProvider.answer_forwards w c hc
  rw [hindex, List.getElem?_cons_succ, hi] at hprovider
  refine ⟨(Option.some.inj hprovider).symm, ?_⟩
  rw [hreq, a.carries_iff, h.model]
  rfl

/-! ## A chain -/

namespace Fallback

open ModelNames

/-- A vendor that is not there. -/
def down : Net Nat :=
  ⟨fun _ n => (.failed "connection refused", n + 1), fun _ n => (.error .dispatchFailure, n + 1)⟩

/-- A chain of two Ollama models; the first does not answer. -/
def chain (primary fallback : String) : FallbackProvider Nat where
  primary := (ollama primary).provider printer down decoder {} fun _ => 0
  fallbacks := [(ollama fallback).provider printer net decoder {} fun _ => 0]

def chainAgent (primary fallback : String) : SingleAgent Nat where
  codec := Sample.codec
  provider := (chain primary fallback).provider
  tools := Sample.tools

theorem issued_chain (primary fallback : String) :
    Issued Nat (chain primary fallback).provider.id (asked (modelOf (ollama primary).id)) :=
  .single (chainAgent primary fallback) Sample.acme Sample.input 0 (.inl List.mem_cons_self)
    (if_pos rfl)

/-- The call of the fallback. -/
def fallbackCall (primary fallback : String) : Called ChatResponse :=
  ⟨1, (ollama fallback).id, asked (modelOf (ollama primary).id), .ok Sample.done⟩

theorem fallbackCall_mem (primary fallback : String) :
    fallbackCall primary fallback ∈ (((chain primary fallback).chat Sample.acme
      (asked (modelOf (ollama primary).id))).run 0).trace :=
  List.mem_cons_of_mem _ List.mem_cons_self

theorem fallback_model_same :
    (ollama "llama3").Carries printer false (fallbackCall "llama3" "llama3").req :=
  (fallback_model_iff (F := chain "llama3" "llama3") (i := 0) (a := ollama "llama3") rfl
    (issued_chain "llama3" "llama3") (fallbackCall_mem "llama3" "llama3") rfl printer false).2.2
      (.inr (.inr (by decide)))

/-- The fallback is asked for the primary's model. -/
theorem fallback_model_of_primary :
    ¬∀ (F : FallbackProvider Nat) (i : Nat) (a : Adapter Nat),
      F.fallbacks[i]?.map (·.id) = some a.id → ∀ req, Issued Nat F.provider.id req →
      ∀ p w, ∀ c ∈ ((F.chat p req).run w).trace, c.index = i + 1 →
      a.Carries printer false c.req := by
  intro h
  have hmodel : "llama3" = "mistral" :=
    h (chain "llama3" "mistral") 0 (ollama "mistral") rfl _ (issued_chain "llama3" "mistral")
      Sample.acme 0 _ (fallbackCall_mem "llama3" "mistral") rfl "llama3" List.mem_cons_self
  exact absurd hmodel (by decide)

end Fallback

end Tako.Runtime
