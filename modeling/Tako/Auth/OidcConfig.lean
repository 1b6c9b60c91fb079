import Tako.Auth.Oidc

/-!
# How an OIDC resolver is made

`OidcAuthResolver::discover` reads the discovery document of the issuer, and the `with_…` builders
change the resolver afterwards, in any order (`tako-compat/src/auth/oidc.rs`). PEM texts are read by
libraries; of an mTLS client only matters that there is one, so the roots that it trusts are left
out.
-/

namespace Tako.Auth

/-- The fields of a discovery document that are read. -/
structure DiscoveryDoc where
  jwksUri : String
  issuer : String
  introspectionEndpoint : Option String := none
  introspectionEndpointAuthMethodsSupported : Option (List String) := none
  endSessionEndpoint : Option String := none

/-- A resolver, with what the issuer advertised. -/
structure ConfiguredResolver (κ : Type) extends OidcAuthResolver κ where
  discoveredIntrospectionUri : Option String := none
  discoveredIntrospectionAuthMethods : Option (List String) := none
  discoveredEndSessionUri : Option String := none

/-- What the constructors call. Clients and keys are built from the bytes of PEM texts, and
`debugList` is `{:?}` of a list of texts. -/
structure OidcSetup (κ : Type) where
  buildResolverHttpClient : Option (List UInt8) → Result Unit
  getDiscoveryDoc : String → Reply DiscoveryDoc
  statusError : Nat → String
  buildMtlsReqwestClient : (cert key : List UInt8) → Option (List UInt8) → Result Unit
  encodingKeyFromPem : Algorithm → List UInt8 → Except String κ
  debugList : List String → String

namespace ConfiguredResolver

variable {κ : Type} (S : OidcSetup κ) (R : ConfiguredResolver κ)

/-! ## Discovery -/

def discoveryUrl (issuer : String) : String :=
  Str.trimEndMatches issuer '/' ++ "/.well-known/openid-configuration"

/-- The issuer of the document is compared without its trailing slashes, and the resolver gets the
one that is configured. -/
def discoverInner (issuer audience : String) (extraRootCaPem : Option (List UInt8)) :
    Result (ConfiguredResolver κ) := do
  S.buildResolverHttpClient extraRootCaPem
  let url := discoveryUrl issuer
  let resp ← (S.getDiscoveryDoc url).mapError fun e =>
    .transport s!"oidc: discovery GET {url} failed: {e}"
  Except.rejectIf (resp.isStatusError)
    (.transport s!"oidc: discovery {url}: {S.statusError resp.status}")
  let doc ← resp.json.mapError fun e => .invalid s!"oidc: malformed discovery doc: {e.display}"
  Except.rejectIf (Str.trimEndMatches doc.issuer '/' ≠ Str.trimEndMatches issuer '/')
    (.invalid (s!"oidc: discovery `issuer` ({doc.issuer}) does not match configured issuer " ++
      s!"({issuer})"))
  .ok
    { issuer
      audience
      jwksUri := doc.jwksUri
      discoveredIntrospectionUri := doc.introspectionEndpoint
      discoveredIntrospectionAuthMethods := doc.introspectionEndpointAuthMethodsSupported
      discoveredEndSessionUri := doc.endSessionEndpoint }

def discover (issuer audience : String) : Result (ConfiguredResolver κ) :=
  discoverInner S issuer audience none

def discoverWithExtraRoot (issuer audience : String) (extraRootCaPem : List UInt8) :
    Result (ConfiguredResolver κ) :=
  discoverInner S issuer audience (some extraRootCaPem)

/-! ## Builders -/

def withRefreshInterval (d : Nat) : ConfiguredResolver κ := { R with refreshInterval := d }

def withClaims (tenant user roles : String) : ConfiguredResolver κ :=
  { R with claims := { tenant, user, roles } }

def withIntrospectionUri (uri clientId : String) (clientSecret : Option String) :
    ConfiguredResolver κ :=
  { R with introspection := some { introspectUri := uri, clientId, clientSecret } }

def withIntrospection (clientId : String) (clientSecret : Option String) :
    Result (ConfiguredResolver κ) :=
  match R.discoveredIntrospectionUri with
  | none => .error (.invalid ("oidc: issuer did not advertise `introspection_endpoint`; " ++
      "use `with_introspection_uri` for explicit URI"))
  | some uri => .ok (R.withIntrospectionUri uri clientId clientSecret)

/-- A change of the introspection, if there is one. -/
def mapIntrospection (f : IntrospectionConfig κ → IntrospectionConfig κ) : ConfiguredResolver κ :=
  { R with introspection := R.introspection.map f }

def withIntrospectionAuthMethod (method : IntrospectionAuthMethod) : ConfiguredResolver κ :=
  R.mapIntrospection fun cfg => { cfg with authMethod := method }

/-- The strongest method that is advertised and that there is a credential for. -/
def pickAuthMethod (cfg : IntrospectionConfig κ) (list : List String) :
    Option IntrospectionAuthMethod :=
  if cfg.mtlsClient ∧ "tls_client_auth" ∈ list then some .tlsClientAuth
  else if cfg.mtlsClient ∧ "self_signed_tls_client_auth" ∈ list then some .selfSignedTlsClientAuth
  else if cfg.clientAssertionKey.isSome ∧ "private_key_jwt" ∈ list then some .privateKeyJwt
  else if cfg.clientSecret.isSome ∧ "client_secret_jwt" ∈ list then some .clientSecretJwt
  else if "client_secret_basic" ∈ list then some .clientSecretBasic
  else if "client_secret_post" ∈ list then some .clientSecretPost
  else none

def withIntrospectionAuthMethodFromDiscovery : Result (ConfiguredResolver κ) :=
  match R.introspection with
  | none => .ok R
  | some cfg =>
    match R.discoveredIntrospectionAuthMethods with
    | none => .ok (R.withIntrospectionAuthMethod .clientSecretBasic)
    | some list =>
      match pickAuthMethod cfg list with
      | some picked => .ok (R.withIntrospectionAuthMethod picked)
      | none => .error (.invalid ("oidc: no supported introspection auth method advertised " ++
          s!"by issuer; supported: {S.debugList list}"))

def withIntrospectionPrivateKey (key : Algorithm × κ) : ConfiguredResolver κ :=
  R.mapIntrospection fun cfg => { cfg with clientAssertionKey := some key }

/-- `ClientAssertionKey::from_…_pem`. -/
def clientAssertionKeyFromPem (alg : Algorithm) (pem : List UInt8) : Result (Algorithm × κ) := do
  let key ← (S.encodingKeyFromPem alg pem).mapError fun e =>
    .invalid s!"oidc: invalid {alg.debug} client-assertion key: {e}"
  .ok (alg, key)

/-- A key is read even if there is no introspection that it could be for. -/
def withIntrospectionJwtPem (alg : Algorithm) (pem : List UInt8) :
    Result (ConfiguredResolver κ) := do
  let key ← clientAssertionKeyFromPem S alg pem
  .ok (R.mapIntrospection fun cfg =>
    { cfg with clientAssertionKey := some key, authMethod := .privateKeyJwt })

def withIntrospectionJwtRs256Pem (pem : List UInt8) := R.withIntrospectionJwtPem S .rs256 pem

def withIntrospectionJwtEs256Pem (pem : List UInt8) := R.withIntrospectionJwtPem S .es256 pem

def withIntrospectionJwtEd25519Pem (pem : List UInt8) := R.withIntrospectionJwtPem S .edDsa pem

/-- The mTLS builders: nothing is read unless there is an introspection. -/
def withMtls (method : IntrospectionAuthMethod) (cert key : List UInt8)
    (extraRootCaPem : Option (List UInt8)) : Result (ConfiguredResolver κ) := do
  if R.introspection.isNone then
    .ok R
  else
    S.buildMtlsReqwestClient cert key extraRootCaPem
    .ok (R.mapIntrospection fun cfg => { cfg with mtlsClient := true, authMethod := method })

def withIntrospectionMtls (cert key : List UInt8) := R.withMtls S .tlsClientAuth cert key none

def withIntrospectionMtlsExtraRoot (cert key extraRootCaPem : List UInt8) :=
  R.withMtls S .tlsClientAuth cert key (some extraRootCaPem)

def withIntrospectionMtlsCombined (combined : List UInt8) :=
  R.withIntrospectionMtls S combined combined

def withIntrospectionSelfSignedMtls (cert key : List UInt8) :=
  R.withMtls S .selfSignedTlsClientAuth cert key none

def withIntrospectionSelfSignedMtlsExtraRoot (cert key extraRootCaPem : List UInt8) :=
  R.withMtls S .selfSignedTlsClientAuth cert key (some extraRootCaPem)

def withIntrospectionSelfSignedMtlsCombined (combined : List UInt8) :=
  R.withIntrospectionSelfSignedMtls S combined combined

def withMtlsRefreshHook : ConfiguredResolver κ := { R with mtlsRefreshHook := true }

/-! ## Orders of builders -/

/-- A call of a builder. -/
inductive Builder (κ : Type) where
  | refreshInterval (d : Nat)
  | claims (tenant user roles : String)
  | introspection (clientId : String) (clientSecret : Option String)
  | introspectionUri (uri clientId : String) (clientSecret : Option String)
  | authMethod (method : IntrospectionAuthMethod)
  | authMethodFromDiscovery
  | privateKey (key : Algorithm × κ)
  | jwtRs256Pem (pem : List UInt8)
  | jwtEs256Pem (pem : List UInt8)
  | jwtEd25519Pem (pem : List UInt8)
  | mtls (cert key : List UInt8)
  | mtlsExtraRoot (cert key extraRootCaPem : List UInt8)
  | mtlsCombined (combined : List UInt8)
  | selfSignedMtls (cert key : List UInt8)
  | selfSignedMtlsExtraRoot (cert key extraRootCaPem : List UInt8)
  | selfSignedMtlsCombined (combined : List UInt8)
  | mtlsRefreshHook

def Builder.apply : Builder κ → Result (ConfiguredResolver κ)
  | refreshInterval d => .ok (R.withRefreshInterval d)
  | claims tenant user roles => .ok (R.withClaims tenant user roles)
  | introspection clientId clientSecret => R.withIntrospection clientId clientSecret
  | introspectionUri uri clientId clientSecret =>
    .ok (R.withIntrospectionUri uri clientId clientSecret)
  | authMethod method => .ok (R.withIntrospectionAuthMethod method)
  | authMethodFromDiscovery => R.withIntrospectionAuthMethodFromDiscovery S
  | privateKey key => .ok (R.withIntrospectionPrivateKey key)
  | jwtRs256Pem pem => R.withIntrospectionJwtRs256Pem S pem
  | jwtEs256Pem pem => R.withIntrospectionJwtEs256Pem S pem
  | jwtEd25519Pem pem => R.withIntrospectionJwtEd25519Pem S pem
  | mtls cert key => R.withIntrospectionMtls S cert key
  | mtlsExtraRoot cert key extra => R.withIntrospectionMtlsExtraRoot S cert key extra
  | mtlsCombined combined => R.withIntrospectionMtlsCombined S combined
  | selfSignedMtls cert key => R.withIntrospectionSelfSignedMtls S cert key
  | selfSignedMtlsExtraRoot cert key extra =>
    R.withIntrospectionSelfSignedMtlsExtraRoot S cert key extra
  | selfSignedMtlsCombined combined => R.withIntrospectionSelfSignedMtlsCombined S combined
  | mtlsRefreshHook => .ok R.withMtlsRefreshHook

/-- Builders, one after the other, until one fails. -/
def configure : ConfiguredResolver κ → List (Builder κ) → Result (ConfiguredResolver κ) :=
  List.foldlM (Builder.apply S)

end ConfiguredResolver

end Tako.Auth
