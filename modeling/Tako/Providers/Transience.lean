import Tako.Providers.ModelNames

/-!
# Transient failures

`is_transient` (`tako-core/src/error.rs`) reads a status from 500 to 599 off a provider error, and
counts on the adapters for the rest: too many requests have to become `RateLimited`. The adapters
with `map_error` do so. `HttpGenericProvider` keeps the 429 as a status, and `map_sdk_error` of
Bedrock keeps nothing at all of an error but its text (`transient_iff`).
-/

namespace Tako.Providers

variable {W : Type}

/-! ## Failures -/

/-- An exchange that fails, or ends in an answer that is no success. -/
inductive HttpFailure where
  | transport (error : String)
  | answered (status : Nat) (body : String) (failed : isSuccess status = false)

namespace HttpFailure

def reply : HttpFailure → Reply
  | .transport error => .failed error
  | .answered status body _ => .answered status body

def status? : HttpFailure → Option Nat
  | .transport _ => none
  | .answered status _ _ => some status

end HttpFailure

/-- The status of a request that may be repeated. -/
def IsTemporary (status : Nat) : Prop := status = 429 ∨ 500 ≤ status ∧ status < 600

/-- The status of a request that was wrong, or may not be made. -/
def IsClientFault (status : Nat) : Prop :=
  400 ≤ status ∧ status < 500 ∧ status ≠ 408 ∧ status ≠ 429

instance : DecidablePred IsTemporary := fun status =>
  inferInstanceAs (Decidable (status = 429 ∨ 500 ≤ status ∧ status < 600))

instance : DecidablePred IsClientFault := fun status =>
  inferInstanceAs (Decidable (400 ≤ status ∧ status < 500 ∧ status ≠ 408 ∧ status ≠ 429))

def HttpFailure.Temporary : HttpFailure → Prop
  | .transport _ => True
  | .answered status _ _ => IsTemporary status

def HttpFailure.ClientFault : HttpFailure → Prop
  | .transport _ => False
  | .answered status _ _ => IsClientFault status

namespace SdkError

/-- The codes of throttling and of a service that is not available. -/
def throttlingCodes : List String :=
  ["ThrottlingException", "ServiceUnavailableException", "ModelNotReadyException"]

def Temporary : SdkError → Prop
  | .constructionFailure => False
  | .timeoutError | .dispatchFailure => True
  | .responseError status => IsTemporary status
  | .serviceError code status => code ∈ throttlingCodes ∨ IsTemporary status

def ClientFault : SdkError → Prop
  | .constructionFailure | .timeoutError | .dispatchFailure => False
  | .responseError status => IsClientFault status
  | .serviceError code status => code ∉ throttlingCodes ∧ IsClientFault status

end SdkError

/-! ## Their errors -/

def HttpAdapter.error (a : HttpAdapter W) : HttpFailure → TakoError
  | .transport error => .transport error
  | .answered status body _ => a.mapError status body

/-- A failure ends a call in its error. -/
theorem HttpAdapter.answer_reply {α : Type} (a : HttpAdapter W) (decode : String → Result α)
    (f : HttpFailure) : a.answer decode f.reply = .error (a.error f) := by
  cases f with
  | transport error => rfl
  | answered status body failed =>
    unfold HttpFailure.reply answer
    dsimp only
    rw [failed]
    rfl

/-- The failures of an HTTP endpoint, or of the SDK. -/
def FailureOf : HttpAdapter W ⊕ BedrockProvider W → Type
  | .inl _ => HttpFailure
  | .inr _ => SdkError

def errorOf : (k : HttpAdapter W ⊕ BedrockProvider W) → FailureOf k → TakoError
  | .inl a, f => a.error f
  | .inr p, e => mapSdkError p.id p.model e

/-- How a call ends whose exchange fails. -/
def answerTo {α : Type} (decode : String → Result α) :
    (k : HttpAdapter W ⊕ BedrockProvider W) → FailureOf k → Result α
  | .inl a, f => a.answer decode (HttpFailure.reply f)
  | .inr p, e => p.answer decode (.error e)

theorem answerTo_eq {α : Type} (decode : String → Result α) (k : HttpAdapter W ⊕ BedrockProvider W)
    (f : FailureOf k) : answerTo decode k f = .error (errorOf k f) := by
  cases k with
  | inl a => exact a.answer_reply decode f
  | inr p => rfl

def TemporaryOf : (k : HttpAdapter W ⊕ BedrockProvider W) → FailureOf k → Prop
  | .inl _, f => HttpFailure.Temporary f
  | .inr _, e => SdkError.Temporary e

def ClientFaultOf : (k : HttpAdapter W ⊕ BedrockProvider W) → FailureOf k → Prop
  | .inl _, f => HttpFailure.ClientFault f
  | .inr _, e => SdkError.ClientFault e

/-- The error of a failure that may go away is transient, that of a wrong request is not. -/
structure Recognises (k : HttpAdapter W ⊕ BedrockProvider W) (f : FailureOf k) : Prop where
  temporary : TemporaryOf k f → (errorOf k f).isTransient = true
  clientFault : ClientFaultOf k f → (errorOf k f).isTransient = false

/-! ## Which adapters recognise them -/

/-- A status that a provider error is given. -/
theorem isTransient_withStatus (id model message body : String) (status : Nat) :
    (((TakoError.ofProvider id model message).withStatus status).withRawBody body).isTransient =
      true ↔ 500 ≤ status ∧ status < 600 := by
  simp [TakoError.ofProvider, TakoError.withStatus, TakoError.withRawBody, TakoError.isTransient]

theorem mapError_isTransient (id model : String) (showStatus : Nat → String) (status : Nat)
    (body : String) :
    (mapError id model showStatus status body).isTransient = true ↔ IsTemporary status := by
  unfold mapError IsTemporary
  split
  · next h => exact iff_of_true rfl (.inl h)
  · next h => rw [isTransient_withStatus, or_iff_right h]

theorem genericError_isTransient (id model : String) (showStatus : Nat → String) (status : Nat)
    (body : String) :
    (genericError id model showStatus status body).isTransient = true ↔
      500 ≤ status ∧ status < 600 :=
  isTransient_withStatus _ _ _ _ _

theorem mapSdkError_isTransient (id model : String) (e : SdkError) :
    (mapSdkError id model e).isTransient = false := rfl

theorem not_isTemporary_of_isClientFault {status : Nat} (h : IsClientFault status) :
    ¬IsTemporary status := by
  unfold IsClientFault at h
  unfold IsTemporary
  omega

theorem recognises_of_mapError {a : HttpAdapter W} {id model : String}
    {showStatus : Nat → String} (ha : a.mapError = mapError id model showStatus)
    (f : HttpFailure) : Recognises (.inl a) f where
  temporary h := by
    cases f with
    | transport error => rfl
    | answered status body failed =>
      change (a.mapError status body).isTransient = true
      rw [ha]
      exact (mapError_isTransient _ _ _ _ _).2 h
  clientFault h := by
    cases f with
    | transport error => exact h.elim
    | answered status body failed =>
      change (a.mapError status body).isTransient = false
      rw [ha, Bool.eq_false_iff]
      exact fun ht => not_isTemporary_of_isClientFault h ((mapError_isTransient _ _ _ _ _).1 ht)

theorem recognises_of_genericError {a : HttpAdapter W} {id model : String}
    {showStatus : Nat → String} (ha : a.mapError = genericError id model showStatus)
    (f : HttpFailure) : Recognises (.inl a) f ↔ f.status? ≠ some 429 := by
  cases f with
  | transport error =>
    exact iff_of_true ⟨fun _ => rfl, fun h => h.elim⟩ nofun
  | answered status body failed =>
    have transient : (errorOf (.inl a) (HttpFailure.answered status body failed)).isTransient =
        true ↔ 500 ≤ status ∧ status < 600 := by
      change (a.mapError status body).isTransient = true ↔ _
      rw [ha]
      exact genericError_isTransient _ _ _ _ _
    constructor
    · intro h hs
      obtain rfl : status = 429 := Option.some.inj hs
      have := transient.1 (h.temporary (.inl rfl))
      omega
    · intro hs
      refine ⟨fun h => transient.2 (h.resolve_left fun h => hs (congrArg some h)), fun h => ?_⟩
      rw [Bool.eq_false_iff]
      exact fun ht => not_isTemporary_of_isClientFault h (.inr (transient.1 ht))

theorem recognises_bedrock (p : BedrockProvider W) (e : SdkError) :
    Recognises (.inr p) e ↔ ¬e.Temporary := by
  have hnever : (errorOf (.inr p) e).isTransient = false := mapSdkError_isTransient _ _ e
  constructor
  · intro h he
    exact Bool.false_ne_true (hnever.symm.trans (h.temporary he))
  · intro h
    exact ⟨fun he => absurd he h, fun _ => hnever⟩

/-- What an adapter has to be spared: Bedrock every failure that may go away, `HttpGenericProvider`
the status 429. -/
def Adapter.Spared (P : Printer) : (a : Adapter W) → FailureOf (a.kind P) → Prop
  | .bedrock _, e => ¬SdkError.Temporary e
  | .httpGeneric _, f => HttpFailure.status? f ≠ some 429
  | _, _ => True

/-- A failure ends a call in its error, and each adapter recognises each failure that it is not to
be spared. -/
theorem transient_iff {α : Type} (P : Printer) (a : Adapter W) (f : FailureOf (a.kind P))
    (decode : String → Result α) :
    answerTo decode (a.kind P) f = .error (errorOf (a.kind P) f) ∧
      (Recognises (a.kind P) f ↔ a.Spared P f) := by
  refine ⟨answerTo_eq _ _ _, ?_⟩
  cases a with
  | openAi p | azureOpenAi p | anthropic p | mistral p | ollama p | vertex p =>
    exact iff_of_true (recognises_of_mapError rfl f) trivial
  | httpGeneric p => exact recognises_of_genericError rfl f
  | bedrock p => exact recognises_bedrock p f

def haiku : BedrockProvider Nat where
  model := "anthropic.claude-3-haiku"
  toConverseInputs _ := .ok ()

/-- Throttling by Bedrock is no transient error. -/
theorem not_transient_throttled :
    ¬∀ (a : Adapter Nat) (f : FailureOf (a.kind ModelNames.printer)),
      Recognises (a.kind ModelNames.printer) f := by
  intro h
  exact (recognises_bedrock haiku (.serviceError "ThrottlingException" 429)).1
    (h (.bedrock haiku) (.serviceError "ThrottlingException" 429)) (.inl List.mem_cons_self)

end Tako.Providers
