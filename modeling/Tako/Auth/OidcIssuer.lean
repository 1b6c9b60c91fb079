import Tako.Auth.OidcConfig
import Tako.Auth.OidcSoundness

/-!
# Which issuer a discovered resolver accepts

Discovery takes two spellings of an issuer for the same if they differ in trailing slashes only. A
token is held against the configured spelling, to the letter.
-/

namespace Tako.Auth

open Traced

/-! ## Accepted tokens -/

namespace OidcAuthResolver

variable {J : Jsonwebtoken} {κ W : Type} {R : OidcAuthResolver κ} {B : OidcBackend J κ W}
  {s : OidcState J W} {token iss : String} {payload : Claims} {p : Principal}

/-- Whatever is cached, there is a history in which the issuer has answered it. -/
theorem exists_genuine (s : OidcState J W) : ∃ h : List (OidcAct J), Genuine h s := by
  cases hcache : s.cache with
  | none =>
    refine ⟨[], fun c hc => ?_⟩
    rw [hcache] at hc
    cases hc
  | some c =>
    refine ⟨[.getJwks (.ok ⟨200, "", .ok c.jwks⟩)], fun c' hc' => ?_⟩
    rw [hcache] at hc'
    cases hc'
    exact ⟨_, List.mem_singleton_self _, rfl, rfl⟩

/-- A token that is accepted passed a validation, from any state. -/
theorem validated_of_resolve (h : ((R.resolve B token).run s).result = .ok p) :
    ∃ now, ∃ jwks : List J.Jwk, R.validateAgainst now token jwks = .ok p := by
  obtain ⟨h', hs⟩ := exists_genuine s
  have hs' : Genuine (h' ++ []) s := by rwa [List.append_nil]
  obtain ⟨-, hspec⟩ := resolve_spec token [] s hs'
  obtain ⟨⟨now, jwks, -, -, hok⟩, -⟩ := hspec p h
  exact ⟨now, jwks, hok⟩

/-- If a token that is accepted names one issuer, then that is the resolver's. -/
theorem issuer_eq_of_resolve (hJ : J.Documented) (h : ((R.resolve B token).run s).result = .ok p)
    (hpayload : J.payload token = some payload)
    (hiss : payload.lookup "iss" = some (.string iss)) : iss = R.issuer := by
  obtain ⟨now, jwks, hok⟩ := validated_of_resolve h
  obtain ⟨header, payload', hverified, -⟩ := validateAgainst_verified hJ hok
  obtain rfl : payload = payload' := Option.some.inj (hpayload.symm.trans hverified.payload)
  obtain ⟨value, hvalue, hnames⟩ := hverified.iss
  obtain rfl : .string iss = value := Option.some.inj (hiss.symm.trans hvalue)
  rcases hnames with heq | ⟨items, heq, -⟩
  · exact Json.string.inj heq
  · cases heq

variable (R B) in
/-- In the state `s`, the resolver accepts the token with some issuer in the place of its own. -/
def AcceptsButIssuer (token : String) (s : OidcState J W) (p : Principal) : Prop :=
  ∃ issuer, (({ R with issuer }.resolve B token).run s).result = .ok p

end OidcAuthResolver

/-! ## Discovery -/

namespace ConfiguredResolver

section

variable {κ : Type} {S : OidcSetup κ} {R R' : ConfiguredResolver κ}

/-- When discovery succeeds, and what it makes of the document. -/
theorem discoverInner_ok {issuer audience : String} {extraRootCaPem : Option (List UInt8)}
    (h : discoverInner S issuer audience extraRootCaPem = .ok R) :
    ∃ a doc, S.getDiscoveryDoc (discoveryUrl issuer) = .ok a ∧ a.json = .ok doc ∧
      Str.trimEndMatches doc.issuer '/' = Str.trimEndMatches issuer '/' ∧
      R.issuer = issuer ∧ R.audience = audience ∧ R.jwksUri = doc.jwksUri := by
  simp only [discoverInner, Except.bind_eq_ok, Except.mapError_eq_ok, Except.rejectIf_eq_ok,
    Decidable.not_not] at h
  obtain ⟨-, -, a, ha, -, -, doc, hdoc, -, heq, hR⟩ := h
  cases hR
  exact ⟨a, doc, ha, hdoc, heq, rfl, rfl, rfl⟩

theorem withIntrospection_issuer {clientId : String} {clientSecret : Option String}
    (h : R.withIntrospection clientId clientSecret = .ok R') : R'.issuer = R.issuer := by
  unfold withIntrospection at h
  split at h
  · cases h
  · cases h
    rfl

theorem withIntrospectionJwtPem_issuer {alg : Algorithm} {pem : List UInt8}
    (h : R.withIntrospectionJwtPem S alg pem = .ok R') : R'.issuer = R.issuer := by
  obtain ⟨key, -, h⟩ := Except.bind_eq_ok.1 h
  cases h
  rfl

theorem withMtls_issuer {method : IntrospectionAuthMethod} {cert key : List UInt8}
    {extraRootCaPem : Option (List UInt8)}
    (h : R.withMtls S method cert key extraRootCaPem = .ok R') : R'.issuer = R.issuer := by
  unfold withMtls at h
  split at h
  · cases h
    rfl
  · obtain ⟨-, -, h⟩ := Except.bind_eq_ok.1 h
    cases h
    rfl

theorem withIntrospectionAuthMethodFromDiscovery_issuer
    (h : R.withIntrospectionAuthMethodFromDiscovery S = .ok R') : R'.issuer = R.issuer := by
  unfold withIntrospectionAuthMethodFromDiscovery at h
  repeat' split at h
  all_goals
    cases h
    try rfl

/-- No builder changes the issuer. -/
theorem Builder.apply_issuer {b : Builder κ} (h : b.apply S R = .ok R') :
    R'.issuer = R.issuer := by
  cases b with
  | refreshInterval | claims | introspectionUri | authMethod | privateKey | mtlsRefreshHook =>
    cases h
    rfl
  | introspection => exact withIntrospection_issuer h
  | authMethodFromDiscovery => exact withIntrospectionAuthMethodFromDiscovery_issuer h
  | jwtRs256Pem | jwtEs256Pem | jwtEd25519Pem => exact withIntrospectionJwtPem_issuer h
  | mtls | mtlsExtraRoot | mtlsCombined | selfSignedMtls | selfSignedMtlsExtraRoot
  | selfSignedMtlsCombined => exact withMtls_issuer h

theorem configure_nil (R : ConfiguredResolver κ) : configure S R [] = .ok R := rfl

theorem configure_issuer {bs : List (Builder κ)} (h : configure S R bs = .ok R') :
    R'.issuer = R.issuer := by
  induction bs generalizing R with
  | nil =>
    cases h
    rfl
  | cons b bs ih =>
    obtain ⟨R₁, hb, hbs⟩ := Except.bind_eq_ok.1 h
    exact (ih hbs).trans (Builder.apply_issuer hb)

variable {J : Jsonwebtoken} {W : Type} {B : OidcBackend J κ W} {s : OidcState J W}
  {issuer audience token : String} {extraRootCaPem : Option (List UInt8)} {bs : List (Builder κ)}
  {a : Answer DiscoveryDoc} {doc : DiscoveryDoc} {payload : Claims} {p : Principal}

/-- The issuers of the document and of the configuration differ in trailing slashes at most. A token
of the one in the document, which passes every other check, is accepted exactly if they do not
differ at all. -/
theorem discovered_accepts_iff (hJ : J.Documented)
    (hget : S.getDiscoveryDoc (discoveryUrl issuer) = .ok a) (hdoc : a.json = .ok doc)
    (hdiscover : discoverInner S issuer audience extraRootCaPem = .ok R)
    (hconfigure : configure S R bs = .ok R') (hpayload : J.payload token = some payload)
    (hiss : payload.lookup "iss" = some (.string doc.issuer))
    (hrest : R'.AcceptsButIssuer B token s p) :
    Str.trimEndMatches doc.issuer '/' = Str.trimEndMatches issuer '/' ∧
      (((R'.resolve B token).run s).result = .ok p ↔ doc.issuer = issuer) := by
  obtain ⟨a', doc', hget', hdoc', htrim, hissuer, -⟩ := discoverInner_ok hdiscover
  obtain rfl : a = a' := Except.ok.inj (hget.symm.trans hget')
  obtain rfl : doc = doc' := Except.ok.inj (hdoc.symm.trans hdoc')
  have hR' : R'.issuer = issuer := (configure_issuer hconfigure).trans hissuer
  obtain ⟨i, hi⟩ := hrest
  have hstated : doc.issuer = i := OidcAuthResolver.issuer_eq_of_resolve hJ hi hpayload hiss
  refine ⟨htrim, ?_, ?_⟩
  · intro hok
    exact (OidcAuthResolver.issuer_eq_of_resolve hJ hok hpayload hiss).trans hR'
  · intro heq
    have hsame : i = R'.issuer := (hstated.symm.trans heq).trans hR'.symm
    rwa [hsame] at hi

end

/-! ## An issuer with and without a slash -/

/-- The document at every URL is the one given. -/
def sampleSetup (doc : DiscoveryDoc) : OidcSetup Unit where
  buildResolverHttpClient _ := .ok ()
  getDiscoveryDoc _ := .ok { status := 200, json := .ok doc }
  statusError n := toString n
  buildMtlsReqwestClient _ _ _ := .ok ()
  encodingKeyFromPem _ _ := .ok ()
  debugList list := ", ".intercalate list

def sampleDoc : DiscoveryDoc := { issuer := "https://idp", jwksUri := "https://idp/jwks" }

/-- The resolver that is discovered under a spelling of the issuer. -/
def sampleDiscovered (issuer : String) : ConfiguredResolver Unit :=
  { issuer, audience := "tako-api", jwksUri := "https://idp/jwks" }

/-- Configured with a slash, which the document does not have, the resolver refuses what it accepts
without. -/
theorem slash_refused :
    discover (sampleSetup sampleDoc) "https://idp/" "tako-api" =
        .ok (sampleDiscovered "https://idp/") ∧
      (Sample.crate OidcAuthResolver.sampleTable).payload "single" =
        some (OidcAuthResolver.sampleClaims (.string sampleDoc.issuer)) ∧
      (sampleDiscovered "https://idp/").AcceptsButIssuer OidcAuthResolver.sampleIssuer "single"
        { world := 900 } { tenantId := "acme", userId := "alice" } ∧
      (((sampleDiscovered "https://idp/").resolve OidcAuthResolver.sampleIssuer "single").run
        { world := 900 }).result = .error (.invalid "oidc: InvalidIssuer") :=
  ⟨rfl, rfl, ⟨"https://idp", rfl⟩, rfl⟩

theorem same_spelling_accepted :
    Str.trimEndMatches sampleDoc.issuer '/' = Str.trimEndMatches "https://idp" '/' ∧
      ((((sampleDiscovered "https://idp").resolve OidcAuthResolver.sampleIssuer "single").run
        { world := 900 }).result = .ok { tenantId := "acme", userId := "alice" } ↔
        sampleDoc.issuer = "https://idp") := by
  have hget : (sampleSetup sampleDoc).getDiscoveryDoc (discoveryUrl "https://idp") =
      .ok { status := 200, json := .ok sampleDoc } := rfl
  have hdiscover : discoverInner (sampleSetup sampleDoc) "https://idp" "tako-api" none =
      .ok (sampleDiscovered "https://idp") := rfl
  have hpayload : (Sample.crate OidcAuthResolver.sampleTable).payload "single" =
      some (OidcAuthResolver.sampleClaims (.string sampleDoc.issuer)) := rfl
  exact discovered_accepts_iff (Sample.crate_documented OidcAuthResolver.sampleTable) hget rfl
    hdiscover (configure_nil _) hpayload rfl ⟨"https://idp", rfl⟩

end ConfiguredResolver

end Tako.Auth
