import Tako.Governance.Sigstore.Chain
import Tako.Governance.Sigstore.Identity
import Tako.Governance.Sigstore.Inclusion

/-!
# Bundle verification

The Rekor checks and `KeylessVerifier::verify_bundle`. `checkBundle` is the part of it that comes
before the freshness anchor and touches no shared state; `advanceAnchor` is the loop on the anchor
when no other call interferes; `verifyBundle` passes the anchor through as a value.
-/

namespace Tako.Sigstore

open Except

variable {Key Re : Type} (D : Deps Key Re)

/-! ## Rekor -/

/-- The text that a SET signs. -/
def setPayload (entry : RekorEntry) : List (String × Json) :=
  [("body", .string entry.canonicalizedBody), ("integratedTime", .ofI64 entry.integratedTime),
    ("logID", .string entry.logId), ("logIndex", .ofU64 entry.logIndex)]

def verifyRekorSet (key : Key) (entry : RekorEntry) : Result Unit := do
  let canonical ← (D.jsonToString (setPayload entry)).mapError
    (invalid "sigstore: rekor SET canonical encode")
  let setBytes ← (D.b64Decode (Str.trim entry.setB64)).mapError
    (invalid "sigstore: rekor SET base64")
  (D.verifySignature key setBytes (utf8 canonical)).mapError (invalid "sigstore: rekor SET invalid")

/-- The text that a checkpoint signs. -/
def signedMessage (checkpoint : RekorCheckpoint) : String :=
  s!"{checkpoint.origin}\n{checkpoint.treeSize}\n{checkpoint.rootHashB64}\n\n"

def verifyRekorCheckpoint (key : Key) (checkpoint : RekorCheckpoint)
    (expectedRootHex : Option String) : Result Unit := do
  let sigBytes ← (D.b64Decode (Str.trim checkpoint.signatureB64)).mapError
    (invalid "sigstore: rekor checkpoint base64")
  (D.verifySignature key sigBytes (utf8 (signedMessage checkpoint))).mapError
    (invalid "sigstore: rekor checkpoint invalid")
  match expectedRootHex with
  | none => .ok ()
  | some expectedHex => do
    let actualBytes ← (D.b64Decode (Str.trim checkpoint.rootHashB64)).mapError
      (invalid "sigstore: rekor checkpoint root base64")
    let expectedBytes ← (D.hexDecode (Str.trim expectedHex)).mapError
      (invalid "sigstore: rekor checkpoint root hex")
    rejectIf (actualBytes ≠ expectedBytes) (.invalid
      "sigstore: rekor checkpoint root hash disagrees with inclusion proof root")

/-- The checks of a transparency entry: its SET, its inclusion proof and its checkpoint. -/
def verifyRekorEntry (key : Key) (entry : RekorEntry) : Result Unit := do
  verifyRekorSet D key entry
  match entry.inclusionProof with
  | none => .ok ()
  | some proof => verifyRekorInclusion D entry proof
  match entry.checkpoint with
  | none => .ok ()
  | some checkpoint =>
    verifyRekorCheckpoint D key checkpoint (entry.inclusionProof.map (·.rootHashHex))

/-! ## The verifier -/

/-- `KeylessVerifier` without its freshness anchor, which is passed beside it. -/
structure KeylessVerifier where
  identity : IdentityPolicy Re
  trustRoot : Option (TrustRoot D) := none
  rekorKey : Option Key := none

def KeylessVerifier.new (identity : IdentityPolicy Re) : KeylessVerifier D := { identity }

def KeylessVerifier.withTrustRoot (v : KeylessVerifier D) (root : TrustRoot D) :
    KeylessVerifier D := { v with trustRoot := some root }

def KeylessVerifier.withRekorKey (v : KeylessVerifier D) (pem : Bytes) :
    Result (KeylessVerifier D) := do
  let key ← (D.keyFromPem pem .ecdsaP256Sha256Asn1).mapError (invalid "sigstore: rekor key")
  .ok { v with rekorKey := some key }

def signingSchemeForCert (cert : Certificate) : Result SigningScheme :=
  schemeFor cert.signatureAlgorithm cert.spkiAlgorithm (.invalid
    (s!"sigstore: unsupported cert signature algorithm `{cert.signatureAlgorithm}` " ++
      s!"over key `{cert.spkiAlgorithm}`"))

variable {D} (v : KeylessVerifier D)

/-- The identity of the leaf certificate and its signature over the manifest. -/
def KeylessVerifier.verifyLeaf (now : Time) (manifest : Bytes) (bundle : KeylessBundle)
    (cert : Certificate) : Result Unit := do
  checkValidityNow D now cert
  checkCodeSigningEku D cert
  let sans ← extractSanValues D cert
  let issuer ← extractOidcIssuer D cert
  rejectIf (issuer ≠ v.identity.issuer) (.invalid
    s!"sigstore: cert OIDC issuer `{issuer}` does not match expected `{v.identity.issuer}`")
  checkSan D v.identity sans
  let signatureBytes ← (D.b64Decode (Str.trim bundle.signatureB64)).mapError
    (invalid "sigstore: signature base64")
  let scheme ← signingSchemeForCert cert
  let spkiDer ← (D.spkiToDer cert).mapError (invalid "sigstore: spki encode")
  let key ← (D.keyFromDer spkiDer scheme).mapError
    (invalid "sigstore: cert public key unsupported")
  (D.verifySignature key signatureBytes manifest).mapError (invalid "sigstore: signature invalid")

/-- The chain-of-trust walk, when a trust root is pinned. -/
def KeylessVerifier.verifyPinnedChain (clock : Nat → Time) (bundle : KeylessBundle)
    (cert : Certificate) : Result Unit :=
  match v.trustRoot with
  | none => .ok ()
  | some root => do
    let intermediates ← match bundle.chainPem with
      | some s => parsePemText D s
      | none => .ok []
    verifyChain D clock cert intermediates root

/-- The Rekor checks, when a key is pinned and the bundle carries an entry. The value is the tree
size that the freshness anchor has to admit. -/
def KeylessVerifier.verifyRekor (bundle : KeylessBundle) : Result (Option Nat) :=
  match v.rekorKey, bundle.rekor with
  | some key, some entry => do
    verifyRekorEntry D key entry
    .ok (entry.checkpoint.map (·.treeSize))
  | _, _ => .ok none

/-- `verify_bundle` up to the freshness anchor. -/
def KeylessVerifier.checkBundle (clock : Nat → Time) (manifest bundleJson : Bytes) :
    Result (Option Nat) := do
  let bundle ← (D.parseBundle bundleJson).mapError (invalid "sigstore: bundle parse")
  let cert ← parseLeafCert D bundle.leafCertPem
  v.verifyLeaf (clock 0) manifest bundle cert
  v.verifyPinnedChain (fun n => clock (n + 1)) bundle cert
  v.verifyRekor bundle

/-- A checkpoint of `treeSize` under the anchor value `prev`. -/
def checkFresh (treeSize prev : Nat) : Result Unit :=
  rejectIf (treeSize < prev) (.invalid
    s!"sigstore: rekor checkpoint tree_size {treeSize} < previously observed {prev}")

/-- The loop on the anchor, run without interference. -/
def advanceAnchor (anchor : Nat) : Option Nat → Result Nat
  | none => .ok anchor
  | some treeSize => do
    checkFresh treeSize anchor
    .ok (max treeSize anchor)

variable (D) in
/-- The last step: the manifest is the catalogue. -/
def parseManifest (manifest : Bytes) : Result Catalogue :=
  (D.parseCatalogue manifest).mapError (invalid "sigstore: catalogue parse")

/-- `verify_bundle` with the freshness anchor before and after. An early error leaves it as it
was; the parse of the manifest comes after it has been advanced. -/
def KeylessVerifier.verifyBundle (clock : Nat → Time) (manifest bundleJson : Bytes)
    (anchor : Nat) : Result Catalogue × Nat :=
  match v.checkBundle clock manifest bundleJson >>= advanceAnchor anchor with
  | .error e => (.error e, anchor)
  | .ok anchor' => (parseManifest D manifest, anchor')

open Sample in
/-- The identity `https://ops` of the issuer `https://idp`, with the log's key `[9]`. -/
def Sample.verifier : KeylessVerifier logDeps where
  identity := .exact "https://idp" "https://ops"
  rekorKey := some [9]

end Tako.Sigstore
