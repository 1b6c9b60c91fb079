import Tako.Core.Error
import Tako.Core.Types
import Tako.Rust.Str
import Tako.Theory.Result

/-!
# Data of the Sigstore verifier

The types of `tako-governance/src/sigstore.rs`, and the third-party functions it calls.

A `u64` is a natural number: the code compares these values, halves them, and decrements only a
positive one, so no operation on them can wrap. A point of time is an integer count of
nanoseconds. A certificate is the record of the parts of a decoded `x509_cert::Certificate` that
the code reads; how the crate encodes it, and what it finds in typed extensions, is asked of
`Deps`.
-/

namespace Tako.Sigstore

abbrev Bytes := List UInt8

/-- `str::as_bytes`. -/
def utf8 (s : String) : Bytes := s.toUTF8.data.toList

/-- `[u8; 32]`, a SHA-256 output. -/
abbrev Digest := { b : Bytes // b.length = 32 }

abbrev Time := Int

/-- An object identifier in dotted form. -/
abbrev ObjectIdentifier := String

def fulcioOidcIssuerV1 : ObjectIdentifier := "1.3.6.1.4.1.57264.1.1"
def fulcioOidcIssuerV2 : ObjectIdentifier := "1.3.6.1.4.1.57264.1.8"

/-! ## Certificates -/

/-- A distinguished name: its attribute types with their values. -/
abbrev Name := List (ObjectIdentifier × String)

structure Extension where
  extnId : ObjectIdentifier
  critical : Bool
  extnValue : Bytes
  deriving DecidableEq, Repr

/-- The parts of a decoded certificate that the verifier reads. -/
structure Certificate where
  subject : Name
  issuer : Name
  notBefore : Time
  notAfter : Time
  spkiAlgorithm : ObjectIdentifier
  spkiKey : Bytes
  signatureAlgorithm : ObjectIdentifier
  signature : Bytes
  extensions : Option (List Extension)
  deriving DecidableEq, Repr

structure BasicConstraints where
  ca : Bool
  pathLenConstraint : Option Nat
  deriving DecidableEq, Repr

/-- The general names of a SAN extension. Only the first three kinds carry a string the policy
looks at. -/
inductive GeneralName where
  | rfc822Name (s : String)
  | uniformResourceIdentifier (s : String)
  | dnsName (s : String)
  | other
  deriving DecidableEq, Repr

/-- The signing schemes that the verifier selects. -/
inductive SigningScheme where
  | ecdsaP256Sha256Asn1
  | ecdsaP384Sha384Asn1
  | rsaPkcs1Sha256 (bits : Nat)
  deriving DecidableEq, Repr

/-! ## Bundles -/

structure RekorCheckpoint where
  origin : String
  treeSize : Nat
  rootHashB64 : String
  keyId : String
  signatureB64 : String
  deriving DecidableEq, Repr

structure RekorInclusionProof where
  /-- Sibling hashes in hex, from the leaf's neighbour to the children of the root. -/
  hashesHex : List String
  treeSize : Nat
  logIndex : Nat
  rootHashHex : String
  deriving DecidableEq, Repr

structure RekorEntry where
  logIndex : Nat
  logId : String
  integratedTime : Int
  canonicalizedBody : String
  setB64 : String
  inclusionProof : Option RekorInclusionProof := none
  checkpoint : Option RekorCheckpoint := none
  deriving DecidableEq, Repr

structure KeylessBundle where
  leafCertPem : String
  signatureB64 : String
  chainPem : Option String := none
  rekor : Option RekorEntry := none
  deriving DecidableEq, Repr

structure Catalogue where
  server : Option String := none
  tools : List ToolSchema
  deriving Repr

/-! ## Third-party code -/

/-- The third-party functions that `sigstore.rs` calls. Each returns what the crate's function
returns, with the display text of its error. `Key` is `CosignVerificationKey` and `Re` is
`regex::Regex`.

* `b64Decode`, `hexDecode`: `base64`'s `STANDARD.decode` and `hex::decode`.
* `parseBundle`, `parseCatalogue`: `serde_json::from_slice` at the two types. `jsonToString`:
  `serde_json::to_string` of a map, given by its members in key order.
* `certFromPem`, `certToDer`: `Certificate::from_pem` and `to_der`. `tbsToDer`, `spkiToDer`: `to_der`
  of the `tbs_certificate` and of its `subject_public_key_info`.
* `getBasicConstraints`, `getExtendedKeyUsage`, `getSubjectAltName`: `tbs_certificate.get` at the
  extension's type, with its criticality. `ia5FromDer`: `Ia5StringRef::from_der`.
* `keyFromDer`, `keyFromPem`: the constructors of a key. `verifySignature`: its `verify_signature` of
  a raw signature and a message.
* `regexNew`, `regexIsMatch`: `Regex::new` and `is_match`.
* `utf8Error`, `showTime`, `debugStrings`: the texts of a `str::from_utf8` error, of a certificate
  time and of a vector of strings. -/
structure Deps (Key Re : Type) where
  b64Decode : String → Except String Bytes
  hexDecode : String → Except String Bytes
  sha256 : Bytes → Digest
  parseBundle : Bytes → Except String KeylessBundle
  parseCatalogue : Bytes → Except String Catalogue
  jsonToString : List (String × Json) → Except String String
  utf8Error : Bytes → String
  certFromPem : String → Except String Certificate
  certToDer : Certificate → Except String Bytes
  tbsToDer : Certificate → Except String Bytes
  spkiToDer : Certificate → Except String Bytes
  getBasicConstraints : Certificate → Except String (Option (Bool × BasicConstraints))
  getExtendedKeyUsage : Certificate → Except String (Option (Bool × List ObjectIdentifier))
  getSubjectAltName : Certificate → Except String (Option (Bool × List GeneralName))
  ia5FromDer : Bytes → Except String String
  showTime : Time → String
  debugStrings : List String → String
  keyFromDer : Bytes → SigningScheme → Except String Key
  keyFromPem : Bytes → SigningScheme → Except String Key
  verifySignature : Key → Bytes → Bytes → Except String Unit
  regexNew : String → Except String Re
  regexIsMatch : Re → String → Bool

/-- `TakoError::Invalid` with the message prefix of a failed third-party call. -/
def invalid (context : String) (e : String) : TakoError := .invalid s!"{context}: {e}"

/-! ## Invalid input -/

open Except

/-- A failure is `TakoError::Invalid`. -/
def FailsInvalid (r : Result α) : Prop := ∀ e, r = .error e → ∃ m, e = .invalid m

theorem FailsInvalid.bind {r : Result α} {f : α → Result β} (hr : FailsInvalid r)
    (hf : ∀ a, FailsInvalid (f a)) : FailsInvalid (r >>= f) := by
  intro e h
  rcases bind_eq_error.1 h with h | ⟨a, -, h⟩
  · exact hr e h
  · exact hf a e h

theorem FailsInvalid.ok (a : α) : FailsInvalid (.ok a : Result α) := by
  rintro e ⟨⟩

theorem FailsInvalid.invalid (m : String) : FailsInvalid (.error (.invalid m) : Result α) := by
  rintro e ⟨⟩
  exact ⟨m, rfl⟩

theorem FailsInvalid.rejectIf (c : Prop) [Decidable c] (m : String) :
    FailsInvalid (rejectIf c (.invalid m)) := by
  intro e h
  exact ⟨m, (rejectIf_eq_error.1 h).2.symm⟩

theorem FailsInvalid.mapError (x : Except String α) (context : String) :
    FailsInvalid (x.mapError (Sigstore.invalid context)) := by
  intro e h
  obtain ⟨m, -, rfl⟩ := mapError_eq_error.1 h
  exact ⟨_, rfl⟩

end Tako.Sigstore
