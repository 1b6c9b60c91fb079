import Tako.Governance.Sigstore.Basic

/-!
# The chain of trust

Certificate parsing, the per-certificate checks and `verify_chain`, which walks from the leaf
through at most sixteen issuers to a pinned root. The issuer of each hop is the first certificate
with the wanted subject name, searched in the supplied intermediates, then the pinned
intermediates, then the pinned roots.

The code reads the clock at each validity check. `clock n` is the reading of the `n`-th check.
-/

namespace Tako.Sigstore

open Except

variable {Key Re : Type} (D : Deps Key Re)

/-! ## Parsing PEM documents -/

/-- The variables of `parse_pem_chain`'s loop. -/
structure PemState where
  out : List Certificate := []
  buf : String := ""
  inBlock : Bool := false

def pemStep (st : PemState) (line : String) : Result PemState :=
  if Str.contains line "-----BEGIN CERTIFICATE-----" then
    .ok { st with inBlock := true, buf := line ++ "\n" }
  else if Str.contains line "-----END CERTIFICATE-----" then do
    let cert ← (D.certFromPem (st.buf ++ line ++ "\n")).mapError
      (invalid "sigstore: chain cert parse")
    .ok { out := st.out ++ [cert], buf := "", inBlock := false }
  else if st.inBlock then
    .ok { st with buf := st.buf ++ line ++ "\n" }
  else
    .ok st

/-- `parse_pem_chain` of a text. -/
def parsePemText (pem : String) : Result (List Certificate) := do
  let st ← (Str.lines pem).foldlM (pemStep D) {}
  .ok st.out

def parsePemChain (pemBytes : Bytes) : Result (List Certificate) :=
  match String.fromUTF8? ⟨pemBytes.toArray⟩ with
  | some pem => parsePemText D pem
  | none => .error (invalid "sigstore: chain pem utf8" (D.utf8Error pemBytes))

def parseLeafCert (pem : String) : Result Certificate :=
  (D.certFromPem pem).mapError (invalid "sigstore: leaf cert parse")

/-- Every certificate of the list is the decoding of some PEM block. -/
def Decoded (certs : List Certificate) : Prop := ∀ c ∈ certs, ∃ pem, D.certFromPem pem = .ok c

theorem pemStep_decoded {st st' : PemState} (h : pemStep D st line = .ok st')
    (hst : Decoded D st.out) : Decoded D st'.out := by
  unfold pemStep at h
  split at h
  · cases h
    exact hst
  split at h
  · simp only [bind_eq_ok, mapError_eq_ok, Except.ok.injEq] at h
    obtain ⟨cert, hcert, rfl⟩ := h
    intro c hc
    rcases List.mem_append.1 hc with hc | hc
    · exact hst c hc
    · exact ⟨_, List.mem_singleton.1 hc ▸ hcert⟩
  split at h <;> cases h <;> exact hst

theorem parsePemText_decoded (h : parsePemText D pem = .ok certs) : Decoded D certs := by
  have hfold : ∀ (lines : List String) (st st' : PemState), Decoded D st.out →
      lines.foldlM (pemStep D) st = .ok st' → Decoded D st'.out := by
    intro lines
    induction lines with
    | nil =>
      intro st st' hst h
      cases h
      exact hst
    | cons line lines ih =>
      intro st st' hst h
      rw [List.foldlM_cons, bind_eq_ok] at h
      obtain ⟨st₁, hstep, h⟩ := h
      exact ih st₁ st' (pemStep_decoded D hstep hst) h
  simp only [parsePemText, bind_eq_ok, Except.ok.injEq] at h
  obtain ⟨st, hst, rfl⟩ := h
  exact hfold _ _ _ (by simp [Decoded]) hst

theorem parsePemChain_decoded (h : parsePemChain D pemBytes = .ok certs) : Decoded D certs := by
  unfold parsePemChain at h
  split at h
  · exact parsePemText_decoded D h
  · contradiction

/-- Pinned trust anchors. Both lists hold certificates that a PEM block decoded to. -/
structure TrustRoot where
  roots : List Certificate
  intermediates : List Certificate
  decoded : Decoded D (roots ++ intermediates)

/-- `TrustRoot::from_pem`. -/
def TrustRoot.fromPem (rootsPem : Bytes) (intermediatesPem : Option Bytes) :
    Result (TrustRoot D) :=
  match hr : parsePemChain D rootsPem with
  | .error e => .error e
  | .ok roots =>
    if roots.isEmpty then
      .error (.invalid "sigstore: trust root has no root certificates")
    else
      match intermediatesPem with
      | none => .ok ⟨roots, [], by simpa using parsePemChain_decoded D hr⟩
      | some b =>
        match hi : parsePemChain D b with
        | .error e => .error e
        | .ok intermediates =>
          .ok ⟨roots, intermediates, fun c hc => (List.mem_append.1 hc).elim
            (parsePemChain_decoded D hr c) (parsePemChain_decoded D hi c)⟩

/-! ## Checks on one certificate -/

def checkValidityNow (now : Time) (cert : Certificate) : Result Unit := do
  rejectIf (now < cert.notBefore) (.invalid
    s!"sigstore: cert not yet valid (notBefore={D.showTime cert.notBefore})")
  rejectIf (now > cert.notAfter) (.invalid
    s!"sigstore: cert expired (notAfter={D.showTime cert.notAfter})")

def ecdsaWithSha256 : ObjectIdentifier := "1.2.840.10045.4.3.2"
def ecdsaWithSha384 : ObjectIdentifier := "1.2.840.10045.4.3.3"
def sha256WithRsa : ObjectIdentifier := "1.2.840.113549.1.1.11"
def ecPubkey : ObjectIdentifier := "1.2.840.10045.2.1"
def rsaPubkey : ObjectIdentifier := "1.2.840.113549.1.1.1"

/-- The scheme of a signature algorithm over a key algorithm, or the error `e`. -/
def schemeFor (sigAlg keyAlg : ObjectIdentifier) (e : TakoError) : Result SigningScheme :=
  if sigAlg = ecdsaWithSha256 ∧ keyAlg = ecPubkey then .ok .ecdsaP256Sha256Asn1
  else if sigAlg = ecdsaWithSha384 ∧ keyAlg = ecPubkey then .ok .ecdsaP384Sha384Asn1
  else if sigAlg = sha256WithRsa ∧ keyAlg = rsaPubkey then .ok (.rsaPkcs1Sha256 2048)
  else .error e

def chainSigningScheme (child issuer : Certificate) : Result SigningScheme :=
  schemeFor child.signatureAlgorithm issuer.spkiAlgorithm (.invalid
    (s!"sigstore: unsupported chain signature algorithm `{child.signatureAlgorithm}` " ++
      s!"over key `{issuer.spkiAlgorithm}`"))

def verifyOneSignature (child issuer : Certificate) : Result Unit := do
  let scheme ← chainSigningScheme child issuer
  let issuerSpkiDer ← (D.spkiToDer issuer).mapError (invalid "sigstore: issuer spki encode")
  let key ← (D.keyFromDer issuerSpkiDer scheme).mapError
    (invalid "sigstore: issuer key unsupported")
  let tbsDer ← (D.tbsToDer child).mapError (invalid "sigstore: tbs encode")
  (D.verifySignature key child.signature tbsDer).mapError
    (invalid "sigstore: chain signature invalid")

/-- Equality of the DER serialisations. -/
def certEq (a b : Certificate) : Bool :=
  match D.certToDer a, D.certToDer b with
  | .ok x, .ok y => x = y
  | _, _ => false

def checkIssuerIsCa (issuer : Certificate) : Result BasicConstraints := do
  let bcPair ← (D.getBasicConstraints issuer).mapError
    (invalid "sigstore: chain BasicConstraints parse")
  match bcPair with
  | none =>
    .error (.invalid "sigstore: chain issuer missing BasicConstraints (RFC 5280 §4.2.1.9)")
  | some (_, bc) =>
    rejectIf (bc.ca = false) (.invalid
      "sigstore: chain issuer has BasicConstraints cA=FALSE (not a CA)")
    .ok bc

/-- The issuer's path length against the number of intermediates below it. -/
def checkPathLen (bc : BasicConstraints) (below : Nat) : Result Unit :=
  match bc.pathLenConstraint with
  | none => .ok ()
  | some budget => rejectIf (below > budget) (.invalid
    (s!"sigstore: chain pathLenConstraint exceeded " ++
      s!"(issuer budget {budget}, {below} intermediate(s) below it)"))

/-- The extensions that may be critical: basic constraints, key usage, extended key usage,
subject alternative name, the two key identifiers and the two Fulcio issuers. -/
def recognisedExtensions : List ObjectIdentifier :=
  ["2.5.29.19", "2.5.29.15", "2.5.29.37", "2.5.29.17", "2.5.29.14", "2.5.29.35",
    fulcioOidcIssuerV1, fulcioOidcIssuerV2]

def checkCriticalExtensionsKnown (cert : Certificate) : Result Unit :=
  match cert.extensions with
  | none => .ok ()
  | some exts => forM exts fun ext =>
    rejectIf (ext.critical = true ∧ ext.extnId ∉ recognisedExtensions) (.invalid
      s!"sigstore: chain cert carries unrecognised critical extension OID `{ext.extnId}`")

/-! ## The walk -/

/-- The first certificate with the given subject: among the supplied intermediates, then the
pinned intermediates, then the pinned roots. -/
def selectIssuer (bundleIntermediates : List Certificate) (trustRoot : TrustRoot D)
    (issuerSubject : Name) : Option Certificate :=
  (bundleIntermediates.find? (·.subject = issuerSubject)).or
    ((trustRoot.intermediates.find? (·.subject = issuerSubject)).or
      (trustRoot.roots.find? (·.subject = issuerSubject)))

/-- The certificate is one of the pinned roots. -/
def isPinned (trustRoot : TrustRoot D) (cert : Certificate) : Bool :=
  trustRoot.roots.any (certEq D · cert)

/-- The loop of `verify_chain` with `fuel` hops left. `below` is the number of intermediates
already walked through; at most sixteen, so the saturating addition never saturates. -/
def chainWalk (bundleIntermediates : List Certificate) (trustRoot : TrustRoot D) :
    (fuel : Nat) → (clock : Nat → Time) → (below : Nat) → (current : Certificate) → Result Unit
  | 0, _, _, _ => .error (.invalid
    "sigstore: chain depth exceeded 16 hops without reaching a pinned root")
  | fuel + 1, clock, below, current => do
    checkValidityNow D (clock 0) current
    if current.subject = current.issuer then
      if isPinned D trustRoot current then do
        verifyOneSignature D current current
        let _ ← checkIssuerIsCa D current
        checkCriticalExtensionsKnown current
      else
        .error (.invalid
          "sigstore: chain ends at a self-signed cert that is not in the pinned trust root")
    else
      match selectIssuer D bundleIntermediates trustRoot current.issuer with
      | none => .error (.invalid
        "sigstore: chain has unknown issuer (no matching intermediate or root)")
      | some issuer => do
        verifyOneSignature D current issuer
        let bc ← checkIssuerIsCa D issuer
        checkCriticalExtensionsKnown issuer
        checkPathLen bc below
        if isPinned D trustRoot issuer then
          checkValidityNow D (clock 1) issuer
        else
          chainWalk bundleIntermediates trustRoot fuel (fun n => clock (n + 1)) (below + 1) issuer

def verifyChain (clock : Nat → Time) (leaf : Certificate)
    (bundleIntermediates : List Certificate) (trustRoot : TrustRoot D) : Result Unit :=
  chainWalk D bundleIntermediates trustRoot 16 clock 0 leaf

end Tako.Sigstore
