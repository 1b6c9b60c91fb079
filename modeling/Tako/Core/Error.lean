/-!
# `TakoError`

The unified error type (`tako-core/src/error.rs`). Durations are in nanoseconds. The boxed
`source` of a provider error is left out, since nothing inspects it.
-/

namespace Tako

/-- Vendor details kept beside a provider error. -/
structure ProviderErrorDetails where
  providerId : String
  model : String
  statusCode : Option Nat := none
  vendorErrorCode : Option String := none
  rawBody : Option String := none
  deriving DecidableEq, Repr

inductive TakoError where
  | provider (message : String) (details : ProviderErrorDetails)
  | transport (message : String)
  | policyDenied (message : String)
  | budgetExhausted (message : String)
  | rateLimited (retryIn : Nat)
  | circuitOpen
  | tool (message : String)
  | invalid (message : String)
  | notFound (message : String)
  | cancelled
  | timeout (after : Nat)
  | io (message : String)
  | serde (message : String)
  deriving DecidableEq, Repr

/-- The `Display` text of an error; `debugDuration` prints a duration as `{:?}` does. -/
def TakoError.display (debugDuration : Nat → String) : TakoError → String
  | .provider message _ => s!"provider error: {message}"
  | .transport message => s!"transport error: {message}"
  | .policyDenied message => s!"policy denied: {message}"
  | .budgetExhausted message => s!"budget exhausted: {message}"
  | .rateLimited retryIn => s!"rate limited: retry in {debugDuration retryIn}"
  | .circuitOpen => "circuit open"
  | .tool message => s!"tool error: {message}"
  | .invalid message => s!"invalid input: {message}"
  | .notFound message => s!"not found: {message}"
  | .cancelled => "cancelled"
  | .timeout after => s!"timeout after {debugDuration after}"
  | .io message => s!"io: {message}"
  | .serde message => s!"serde: {message}"

/-! ## Provider errors -/

/-- `TakoError::provider`. -/
def TakoError.ofProvider (providerId model message : String) : TakoError :=
  .provider message { providerId, model }

def TakoError.withStatus (status : Nat) : TakoError → TakoError
  | .provider message details => .provider message { details with statusCode := some status }
  | e => e

def TakoError.withRawBody (body : String) : TakoError → TakoError
  | .provider message details => .provider message { details with rawBody := some body }
  | e => e

/-- `TakoError::is_transient`: the error is worth a retry. -/
def TakoError.isTransient : TakoError → Bool
  | .rateLimited _ | .timeout _ | .transport _ | .circuitOpen => true
  | .provider _ details => details.statusCode.any fun s => 500 ≤ s && s < 600
  | _ => false

/-- `Result<T, TakoError>`. -/
abbrev Result (α : Type) := Except TakoError α

end Tako
