import Tako.Auth.Jsonwebtoken
import Tako.Rust.Str
import Tako.Theory.Traced

/-!
# Tokens of an OIDC issuer

`OidcAuthResolver::resolve` (`tako-compat/src/auth/oidc.rs`): the key set of the issuer is cached and
fetched again when it is old or does not fit, and a token that passes may be introspected.
-/

namespace Tako.Auth

/-! ## The configuration -/

inductive IntrospectionAuthMethod where
  | clientSecretBasic
  | clientSecretPost
  | clientSecretJwt
  | privateKeyJwt
  | tlsClientAuth
  | selfSignedTlsClientAuth
  deriving DecidableEq

/-- `κ` are the keys that sign client assertions. Of an mTLS client only matters that there is
one. -/
structure IntrospectionConfig (κ : Type) where
  introspectUri : String
  clientId : String
  clientSecret : Option String := none
  authMethod : IntrospectionAuthMethod := .clientSecretBasic
  clientAssertionKey : Option (Algorithm × κ) := none
  mtlsClient : Bool := false

structure OidcAuthResolver (κ : Type) where
  issuer : String
  audience : String
  jwksUri : String
  /-- In nanoseconds. -/
  refreshInterval : Nat := 3600000000000
  claims : ClaimNames := {}
  introspection : Option (IntrospectionConfig κ) := none
  /-- Whether there is a hook. -/
  mtlsRefreshHook : Bool := false

structure IntrospectRequest where
  uri : String
  form : List (String × String)
  basicAuth : Option (String × Option String) := none
  mtls : Bool := false

/-! ## The surroundings -/

/-- Clocks, the endpoints of the issuer and what else the resolver calls, in a world `W`. -/
structure OidcBackend (J : Jsonwebtoken) (κ W : Type) where
  /-- Seconds since the Unix epoch. -/
  unixNow : W → Nat
  /-- The monotonic clock, in nanoseconds. -/
  instant : W → Nat
  getJwks : String → W → Reply (List J.Jwk) × W
  /-- The answer's body is read as its `active`. -/
  introspect : IntrospectRequest → W → Reply Bool × W
  forceRefresh : W → Result Unit × W
  makeJti : W → String
  signingKey : String → κ
  encode : Algorithm → List (String × Json) → κ → Except String String
  /-- A status, and the error that `error_for_status` makes of it, as texts. -/
  statusText : Nat → String
  statusError : Nat → String

structure CachedJwks (J : Jsonwebtoken) where
  jwks : List J.Jwk
  fetchedAt : Nat

structure OidcState (J : Jsonwebtoken) (W : Type) where
  world : W
  cache : Option (CachedJwks J) := none

/-- `clock` is a reading of the Unix clock by a validation. -/
inductive OidcAct (J : Jsonwebtoken) where
  | clock (now : Nat)
  | getJwks (r : Result (Answer (List J.Jwk)))
  | introspect (req : IntrospectRequest) (r : Result (Answer Bool))
  | forceRefresh (r : Result Unit)

namespace OidcAuthResolver

variable {J : Jsonwebtoken} {κ W : Type} (R : OidcAuthResolver κ) (B : OidcBackend J κ W)

abbrev M (J : Jsonwebtoken) (W : Type) := Traced (OidcState J W) (OidcAct J) TakoError

/-- A call of the world with an action for the trace. -/
def ask {α : Type} (h : W → Result α × W) (act : Result α → OidcAct J) : M J W α :=
  .call (fun s => ((h s.world).1, { s with world := (h s.world).2 })) fun _ => act

/-! ## The key set -/

/-- The cached key set, unless it is too old. -/
def fresh (s : OidcState J W) : Option (List J.Jwk) :=
  s.cache.bind fun c =>
    if B.instant s.world - c.fetchedAt < R.refreshInterval then some c.jwks else none

def fetchJwks : M J W (List J.Jwk) := do
  let resp ← ask (fun w => ((B.getJwks R.jwksUri w).1.mapError fun e =>
    .transport s!"oidc: jwks GET {R.jwksUri} failed: {e}", (B.getJwks R.jwksUri w).2)) .getJwks
  if resp.isStatusError then
    .throw (.transport s!"oidc: jwks {R.jwksUri}: {B.statusError resp.status}")
  else do
    let jwks ← .ofExcept (resp.json.mapError fun e =>
      .invalid s!"oidc: malformed JWKS: {e.display}")
    .modify fun s => { s with cache := some ⟨jwks, B.instant s.world⟩ }
    pure jwks

/-- The cache is looked at under the read lock, and again under the write lock. -/
def jwks (force : Bool) : M J W (List J.Jwk) := do
  match ← .read fun s => if force then none else fresh R B s with
  | some jwks => pure jwks
  | none =>
    match ← .read fun s => if force then none else fresh R B s with
    | some jwks => pure jwks
    | none => fetchJwks R B

/-! ## Validation -/

/-- `JwkSet::find`. -/
def find (jwks : List J.Jwk) (kid : String) : Option J.Jwk :=
  jwks.find? fun jwk => J.keyId jwk = some kid

/-- HMAC algorithms are not allowed. -/
def allowedAlg : Algorithm → Bool
  | .rs256 | .rs384 | .rs512 | .es256 | .es384 | .ps256 | .ps384 | .ps512 | .edDsa => true
  | .hs256 | .hs384 | .hs512 => false

def validation (alg : Algorithm) : Validation :=
  { ((Validation.new alg).setAudience [R.audience]).setIssuer [R.issuer] with
    requiredSpecClaims := ["exp", "iss", "aud"] }

def validateAgainst (now : Nat) (token : String) (jwks : List J.Jwk) : Result Principal := do
  let header ← (J.decodeHeader token).mapError fun e =>
    .invalid s!"oidc: malformed JWT header: {e}"
  let kid ← (header.kid.elim (.error (.invalid "oidc: JWT missing `kid` header")) .ok)
  let jwk ← ((find jwks kid).elim
    (.error (.invalid s!"oidc: no JWK in cache matches `kid` = {kid}")) .ok)
  Except.rejectIf (¬allowedAlg header.alg)
    (.invalid s!"oidc: rejecting unsupported alg `{header.alg.debug}` (HS* and `none` not allowed)")
  let key ← (J.fromJwk jwk).mapError fun e => .invalid s!"oidc: cannot build DecodingKey: {e}"
  let claims ← (J.decode now token key (R.validation header.alg)).mapError fun e =>
    .invalid s!"oidc: {e}"
  principalFromClaims "oidc" R.claims claims

/-! ## Introspection -/

def buildClientAssertion (clientId audience : String) (key : κ) (alg : Algorithm) :
    M J W String := do
  let now ← .read fun s => B.unixNow s.world
  let jti ← .read fun s => B.makeJti s.world
  let claims : List (String × Json) :=
    [("aud", .string audience), ("exp", .ofU64 (now + 30)), ("iat", .ofU64 now),
      ("iss", .string clientId), ("jti", .string jti), ("sub", .string clientId)]
  .ofExcept ((B.encode alg claims key).mapError fun e =>
    .invalid s!"oidc: client-assertion sign ({alg.debug}): {e}")

/-- The client assertion, for the methods that have one. -/
def assertion (cfg : IntrospectionConfig κ) : M J W (Option String) :=
  match cfg.authMethod with
  | .clientSecretJwt =>
    match cfg.clientSecret with
    | none => .throw (.invalid "oidc: client_secret_jwt requires client_secret to be set")
    | some secret => do
      let jwt ← buildClientAssertion B cfg.clientId cfg.introspectUri (B.signingKey secret) .hs256
      pure (some jwt)
  | .privateKeyJwt =>
    match cfg.clientAssertionKey with
    | none => .throw (.invalid "oidc: private_key_jwt requires client_assertion_key to be set")
    | some (alg, key) => do
      let jwt ← buildClientAssertion B cfg.clientId cfg.introspectUri key alg
      pure (some jwt)
  | _ => pure none

/-- The name of an mTLS method. -/
def mtlsMethodName : IntrospectionAuthMethod → Option String
  | .tlsClientAuth => some "tls_client_auth"
  | .selfSignedTlsClientAuth => some "self_signed_tls_client_auth"
  | _ => none

/-- The credentials in the form. -/
def credentials (cfg : IntrospectionConfig κ) (jwt : Option String) : List (String × String) :=
  match cfg.authMethod with
  | .clientSecretPost =>
    ("client_id", cfg.clientId) :: (cfg.clientSecret.map fun s => ("client_secret", s)).toList
  | .clientSecretJwt | .privateKeyJwt =>
    ("client_assertion_type", "urn:ietf:params:oauth:client-assertion-type:jwt-bearer") ::
      (jwt.map fun s => ("client_assertion", s)).toList
  | _ => []

def introspectForm (cfg : IntrospectionConfig κ) (jwt : Option String) (token : String) :
    List (String × String) :=
  [("token", token), ("token_type_hint", "access_token")] ++ credentials cfg jwt

def introspectSendOnce (cfg : IntrospectionConfig κ) (form : List (String × String)) :
    M J W (Answer Bool) :=
  let req : IntrospectRequest :=
    { uri := cfg.introspectUri
      form
      basicAuth :=
        if cfg.authMethod = .clientSecretBasic then some (cfg.clientId, cfg.clientSecret) else none
      mtls := (mtlsMethodName cfg.authMethod).isSome && cfg.mtlsClient }
  ask (fun w => ((B.introspect req w).1.mapError fun e =>
    .transport s!"oidc: introspect POST {cfg.introspectUri}: {e}", (B.introspect req w).2))
    (.introspect req)

def shouldRetryWithRefresh (cfg : IntrospectionConfig κ) : TakoError → Bool
  | .transport _ => R.mtlsRefreshHook && cfg.mtlsClient
  | _ => false

/-- The POST, and once more after a refresh of the mTLS identity, whether that works or not. -/
def introspectSend (cfg : IntrospectionConfig κ) (form : List (String × String)) :
    M J W (Answer Bool) := do
  match ← (introspectSendOnce B cfg form).attempt with
  | .ok resp => pure resp
  | .error e =>
    if R.shouldRetryWithRefresh cfg e then do
      let _ ← (ask B.forceRefresh .forceRefresh : M J W Unit).attempt
      introspectSendOnce B cfg form
    else .throw e

/-- What an answer of the introspection endpoint means. -/
def checkActive (resp : Answer Bool) : Result Unit := do
  Except.rejectIf (¬resp.isSuccess)
    (.invalid s!"oidc: introspect endpoint returned {B.statusText resp.status}: {resp.text}")
  let active ← resp.json.mapError fun e => .invalid s!"oidc: introspect response parse: {e.display}"
  Except.rejectIf (¬active) (.invalid "oidc: token revoked (introspection `active=false`)")

def introspect (token : String) : M J W Unit :=
  match R.introspection with
  | none => pure ()
  | some cfg => do
    let jwt ← assertion B cfg
    .ofExcept (match mtlsMethodName cfg.authMethod with
      | some name =>
        Except.rejectIf (¬cfg.mtlsClient)
          (.invalid s!"oidc: {name} requires mtls_client to be set")
      | none => .ok ())
    let resp ← introspectSend R B cfg (introspectForm cfg jwt token)
    .ofExcept (checkActive B resp)

/-! ## Resolution -/

/-- The texts that make a validation be tried again with a new key set. -/
def markers : List String := ["InvalidSignature", "no JWK in cache matches", "InvalidKid"]

def retries : TakoError → Bool
  | .invalid msg => markers.any (Str.contains msg ·)
  | _ => false

/-- A validation at the time that the clock shows. -/
def validateNow (token : String) (jwks : List J.Jwk) : M J W (Result Principal) := do
  let now ← .read fun s => B.unixNow s.world
  .emit (.clock now)
  pure (R.validateAgainst now token jwks)

/-- The validation with the cached key set, and once more with a new one. -/
def validate (token : String) : M J W Principal := do
  let cached ← R.jwks B false
  match ← R.validateNow B token cached with
  | .ok p => pure p
  | .error e =>
    if retries e then do
      let latest ← R.jwks B true
      let r ← R.validateNow B token latest
      .ofExcept r
    else .throw e

def resolve (token : String) : M J W Principal := do
  let principal ← R.validate B token
  R.introspect B token
  pure principal

end OidcAuthResolver

end Tako.Auth
