import Tako.Governance.Sigstore.Sample

/-!
# The signer's identity

The SAN policy, the checks of the leaf certificate's extensions, and what a regex policy accepts.
`SanMatch::Regex` is documented as an anchored match and implemented as a search, so the two
differ on every pattern that matches some part of a text but not the whole of it.
-/

namespace Tako.Sigstore

open Except Regex

variable {Key Re : Type} (D : Deps Key Re)

/-! ## The policy -/

inductive SanMatch (Re : Type) where
  | exact (s : String)
  | regex (r : Re)

def SanMatch.matches (m : SanMatch Re) (value : String) : Bool :=
  match m with
  | .exact s => s = value
  | .regex r => D.regexIsMatch r value

structure IdentityPolicy (Re : Type) where
  issuer : String
  sanMatch : SanMatch Re

def IdentityPolicy.exact (issuer san : String) : IdentityPolicy Re := ⟨issuer, .exact san⟩

def IdentityPolicy.regex (issuer sanPattern : String) : Result (IdentityPolicy Re) := do
  let r ← (D.regexNew sanPattern).mapError
    (invalid s!"sigstore: invalid SAN regex `{sanPattern}`")
  .ok ⟨issuer, .regex r⟩

/-! ## The leaf's extensions -/

/-- `id-kp-codeSigning`. -/
def codeSigning : ObjectIdentifier := "1.3.6.1.5.5.7.3.3"

def checkCodeSigningEku (cert : Certificate) : Result Unit := do
  let ekuPair ← (D.getExtendedKeyUsage cert).mapError (invalid "sigstore: cert EKU extension")
  match ekuPair with
  | none => .error (.invalid "sigstore: cert missing ExtendedKeyUsage extension")
  | some (_, eku) =>
    rejectIf (codeSigning ∉ eku) (.invalid "sigstore: cert EKU does not include codeSigning")

/-- The text of a general name of the three kinds that the policy looks at. -/
def GeneralName.text? : GeneralName → Option String
  | .rfc822Name s | .uniformResourceIdentifier s | .dnsName s => some s
  | .other => none

def extractSanValues (cert : Certificate) : Result (List String) := do
  let sanPair ← (D.getSubjectAltName cert).mapError (invalid "sigstore: cert SAN extension")
  match sanPair with
  | none => .error (.invalid "sigstore: cert missing SubjectAltName extension")
  | some (_, san) =>
    let out := san.filterMap GeneralName.text?
    rejectIf (out.isEmpty = true) (.invalid "sigstore: cert SAN has no rfc822/URI/DNS entry")
    .ok out

/-- The loop body of `extract_oidc_issuer`: the value of an issuer extension of either version. -/
def oidcIssuerOf (ext : Extension) : Option (Result String) :=
  if ext.extnId = fulcioOidcIssuerV1 then
    some <| match String.fromUTF8? ⟨ext.extnValue.toArray⟩ with
      | some s => .ok s
      | none => .error (invalid "sigstore: OIDC issuer (v1) utf8" (D.utf8Error ext.extnValue))
  else if ext.extnId = fulcioOidcIssuerV2 then
    some ((D.ia5FromDer ext.extnValue).mapError (invalid "sigstore: OIDC issuer (v2)"))
  else
    none

def extractOidcIssuer (cert : Certificate) : Result String :=
  match cert.extensions with
  | none => .error (.invalid "sigstore: cert has no extensions")
  | some extensions =>
    match extensions.findSome? (oidcIssuerOf D) with
    | some issuer => issuer
    | none => .error (.invalid "sigstore: cert has no Fulcio OIDC issuer extension (v1 or v2)")

/-- Some SAN of the certificate matches the policy. -/
def checkSan (identity : IdentityPolicy Re) (sans : List String) : Result Unit :=
  rejectIf ((sans.find? (identity.sanMatch.matches D)).isNone = true) (.invalid
    s!"sigstore: no cert SAN in {D.debugStrings sans} matches identity policy")

theorem checkSan_eq_ok {identity : IdentityPolicy Re} {sans : List String} :
    checkSan D identity sans = .ok () ↔ ∃ s ∈ sans, identity.sanMatch.matches D s = true := by
  simp [checkSan]

/-! ## Search and whole match -/

/-- A regex policy accepts only SAN lists that hold a whole match, whatever the list is, exactly
when every match that its pattern finds inside a text grows to the whole text. `spans r a m b`
says that the expression `r` matches `m` between `a` and `b`. -/
theorem regexPolicy_wholeMatch_iff (spans : Re → List Char → List Char → List Char → Prop)
    (hsearch : ∀ r s, D.regexIsMatch r s = true ↔
      ∃ a m b, s.toList = a ++ m ++ b ∧ spans r a m b)
    (issuer sanPattern : String) (r : Re) (hr : D.regexNew sanPattern = .ok r) :
    ∃ identity, IdentityPolicy.regex D issuer sanPattern = .ok identity ∧
      ((∀ sans, checkSan D identity sans = .ok () → ∃ s ∈ sans, spans r [] s.toList []) ↔
        Covers (spans r)) := by
  refine ⟨⟨issuer, .regex r⟩, by rw [IdentityPolicy.regex, hr]; rfl, ?_⟩
  simp only [checkSan_eq_ok, SanMatch.matches, hsearch]
  constructor
  · intro h a m b hm
    -- the text around the match, as the only SAN of a certificate
    obtain ⟨s, hs, hwhole⟩ := h [String.ofList (a ++ m ++ b)]
      ⟨_, List.mem_singleton_self _, a, m, b, String.toList_ofList, hm⟩
    rw [List.mem_singleton.1 hs, String.toList_ofList] at hwhole
    exact hwhole
  · rintro h sans ⟨s, hs, a, m, b, heq, hm⟩
    exact ⟨s, hs, heq ▸ h a m b hm⟩

open Sample in
/-- The pattern `^ops$` accepts whole matches only. -/
theorem regexPolicy_wholeMatch_anchored :
    ∃ identity, IdentityPolicy.regex sanDeps "https://idp" "^ops$" = .ok identity ∧
      ∀ sans, checkSan sanDeps identity sans = .ok () →
        ∃ s ∈ sans, Spans (.cat .start (.cat (literal "ops") .stop)) [] s.toList [] := by
  obtain ⟨identity, hnew, h⟩ := regexPolicy_wholeMatch_iff sanDeps Spans (deps_regexIsMatch _)
    "https://idp" "^ops$" _ (by rfl)
  exact ⟨identity, hnew, h.2 (covers_anchored _)⟩

open Sample in
/-- The pattern `ops` accepts the SAN `xopsy`, which is not in its language. -/
theorem regexPolicy_accepts_part :
    ¬∀ (issuer sanPattern : String) (identity : IdentityPolicy (Pat Char)) (r : Pat Char)
      (sans : List String), IdentityPolicy.regex sanDeps issuer sanPattern = .ok identity →
      sanDeps.regexNew sanPattern = .ok r → checkSan sanDeps identity sans = .ok () →
      ∃ s ∈ sans, Spans r [] s.toList [] := by
  intro h
  obtain ⟨s, hs, hwhole⟩ := h "https://idp" "ops" ⟨"https://idp", .regex (literal "ops")⟩
    (literal "ops") ["xopsy"] (by rfl) (by rfl) (by decide +kernel)
  rw [List.mem_singleton.1 hs] at hwhole
  exact absurd hwhole (by decide +kernel)

end Tako.Sigstore
