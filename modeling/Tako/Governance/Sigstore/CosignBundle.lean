import Tako.Governance.Sigstore.Acceptance
import Tako.Governance.Sigstore.PemChain
import Tako.Rust.Encoding

/-!
# Bundles of cosign

`KeylessBundle::from_protobuf_bundle` writes the bytes of a protobuf message as texts: certificates
as PEM, hashes in hex, the rest in base64. The verifier reads them back, so `verify_protobuf_bundle`
accepts exactly what the bytes of the message vouch for (`verifyProtobufBundle_eq_ok`).
-/

namespace Tako.Sigstore

open Except Encoding

/-! ## Messages -/

namespace Cosign

structure X509Certificate where
  rawBytes : Bytes

structure X509CertificateChain where
  certificates : List X509Certificate

structure LogId where
  keyId : Bytes

structure InclusionPromise where
  signedEntryTimestamp : Bytes

structure InclusionProof where
  logIndex : Int64
  rootHash : Bytes
  treeSize : Int64
  hashes : List Bytes

structure TransparencyLogEntry where
  logIndex : Int64
  logId : Option LogId := none
  integratedTime : Int64
  inclusionPromise : Option InclusionPromise := none
  inclusionProof : Option InclusionProof := none
  canonicalizedBody : Bytes

structure VerificationMaterial where
  x509CertificateChain : Option X509CertificateChain := none
  certificate : Option X509Certificate := none
  tlogEntries : List TransparencyLogEntry := []

structure MessageSignature where
  signature : Bytes

structure Bundle where
  verificationMaterial : Option VerificationMaterial := none
  messageSignature : Option MessageSignature := none

end Cosign

/-! ## PEM -/

/-- The text in lines of 64 characters. -/
def wrapped (cs : List Char) : List String :=
  if cs = [] then [] else String.ofList (cs.take 64) :: wrapped (cs.drop 64)
termination_by cs.length
decreasing_by
  have := List.length_pos_iff.2 ‹cs ≠ []›
  rw [List.length_drop]
  omega

def pemLines (der : Bytes) : List String :=
  beginMarker :: (wrapped (b64EncodeGroups der) ++ [endMarker])

/-- A certificate's PEM block; `eol` ends each line. -/
def pemText (eol : String) (der : Bytes) : String := String.join ((pemLines der).map (· ++ eol))

/-- `pem::encode` of a certificate: its lines end in a carriage return and a line feed. -/
def pemEncode (der : Bytes) : String := pemText "\r\n" der

def derToPem (der : Bytes) : Result String := do
  rejectIf (der = []) (.invalid "sigstore: protobuf bundle cert raw_bytes is empty")
  .ok (pemEncode der)

/-! ## The adapter -/

/-- The third-party functions around the adapter: `Message::decode` at `Bundle`, and
`serde_json::to_vec` of a bundle. -/
structure CosignDeps where
  decode : Bytes → Except String Cosign.Bundle
  bundleToJson : KeylessBundle → Except String Bytes

/-- `as u64`. -/
def asU64 (n : Int64) : Nat := n.toUInt64.toNat

/-- `ok_or_else`. -/
def required (o : Option α) (message : String) : Result α :=
  match o with
  | some a => .ok a
  | none => .error (.invalid message)

/-- The certificates of a message, the leaf's first. A chain without certificates gives way to the
single one. -/
def certsOf (vm : Cosign.VerificationMaterial) :
    Result (Cosign.X509Certificate × List Cosign.X509Certificate) :=
  match vm.x509CertificateChain.map (·.certificates), vm.certificate with
  | some (leaf :: rest), _ => .ok (leaf, rest)
  | _, some single => .ok (single, [])
  | _, none => .error (.invalid "sigstore: protobuf bundle has no x509 certificate material")

def proofOf (p : Cosign.InclusionProof) : RekorInclusionProof where
  hashesHex := p.hashes.map hexEncode
  treeSize := asU64 p.treeSize
  logIndex := asU64 p.logIndex
  rootHashHex := hexEncode p.rootHash

def entryOf (t : Cosign.TransparencyLogEntry) : Result RekorEntry := do
  let logId ← required t.logId "sigstore: protobuf bundle tlog entry missing log_id"
  let promise ← required t.inclusionPromise
    "sigstore: protobuf bundle tlog entry missing inclusion_promise (SET)"
  .ok
    { logIndex := asU64 t.logIndex
      logId := hexEncode logId.keyId
      integratedTime := t.integratedTime.toInt
      canonicalizedBody := b64Encode t.canonicalizedBody
      setB64 := b64Encode promise.signedEntryTimestamp
      inclusionProof := t.inclusionProof.map proofOf
      checkpoint := none }

/-- The first entry, if any. -/
def rekorOf : List Cosign.TransparencyLogEntry → Result (Option RekorEntry)
  | t :: _ => do
    let entry ← entryOf t
    .ok (some entry)
  | [] => .ok none

/-- `from_protobuf_bundle` of a decoded message. -/
def bundleOf (bundle : Cosign.Bundle) : Result KeylessBundle := do
  let vm ← required bundle.verificationMaterial
    "sigstore: protobuf bundle missing verification_material"
  let (leaf, rest) ← certsOf vm
  let leafCertPem ← derToPem leaf.rawBytes
  let pems ← rest.mapM fun c => derToPem c.rawBytes
  let chainPem := if rest.isEmpty then none else some (String.join pems)
  let sig ← required bundle.messageSignature
    "sigstore: protobuf bundle missing message_signature (DSSE bundles unsupported)"
  rejectIf (sig.signature = [])
    (.invalid "sigstore: protobuf bundle message_signature.signature is empty")
  let rekor ← rekorOf vm.tlogEntries
  .ok { leafCertPem, signatureB64 := b64Encode sig.signature, chainPem, rekor }

def fromProtobufBundle (P : CosignDeps) (bytes : Bytes) : Result KeylessBundle := do
  let bundle ← (P.decode bytes).mapError (invalid "sigstore: protobuf bundle decode")
  bundleOf bundle

variable {Key Re : Type} {D : Deps Key Re}

/-- `verify_protobuf_bundle` of the Python class, with the freshness anchor before and after. -/
def KeylessVerifier.verifyProtobufBundle (v : KeylessVerifier D) (P : CosignDeps)
    (clock : Nat → Time) (manifest protobufBundle : Bytes) (anchor : Nat) :
    Result Catalogue × Nat :=
  match (do
    let kb ← fromProtobufBundle P protobufBundle
    (P.bundleToJson kb).mapError (invalid "re-serialise bundle")) with
  | .error e => (.error e, anchor)
  | .ok bundleJson => v.verifyBundle clock manifest bundleJson anchor

end Tako.Sigstore
