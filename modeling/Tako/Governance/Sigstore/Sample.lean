import Tako.Governance.Sigstore.Chain
import Tako.Rust.Encoding
import Tako.Theory.Regex

/-!
# Sample data

An instance of `Deps` that evaluates, for the concrete runs beside the theorems. The decoders, the
JSON printer and the typed extensions are computed; documents, patterns and SHA-256 digests come
from tables. A key is the key bytes of a certificate, and its signature of a message is the key
followed by the sum of the message's bytes.
-/

namespace Tako.Sigstore.Sample

open Regex

/-! ## Tables -/

structure Tables where
  digests : List (Bytes × Digest) := []
  bundles : List KeylessBundle := []
  catalogues : List (Bytes × Catalogue) := []
  certs : List (String × Certificate) := []
  patterns : List (String × Pat Char) := []

def lookup [BEq α] (table : List (α × β)) (key : α) (e : String) : Except String β :=
  match table.lookup key with
  | some b => .ok b
  | none => .error e

/-! ## Encodings -/

def quoted (s : String) : String := "\"" ++ s ++ "\""

/-- Compact JSON of an object with the given member texts. -/
def objectText (members : List (String × String)) : String :=
  "\x7b" ++ ",".intercalate (members.map fun (k, v) => quoted k ++ ":" ++ v) ++ "\x7d"

/-- Compact JSON of a scalar without escapes. -/
def scalarText : Json → String
  | .string s => quoted s
  | .number (.posInt n) => toString n
  | .number (.negInt n) => toString n
  | _ => "null"

def RekorInclusionProof.toJson (p : RekorInclusionProof) : String :=
  objectText [("hashes_hex", "[" ++ ",".intercalate (p.hashesHex.map quoted) ++ "]"),
    ("tree_size", toString p.treeSize), ("log_index", toString p.logIndex),
    ("root_hash_hex", quoted p.rootHashHex)]

def RekorCheckpoint.toJson (c : RekorCheckpoint) : String :=
  objectText [("origin", quoted c.origin), ("tree_size", toString c.treeSize),
    ("root_hash_b64", quoted c.rootHashB64), ("key_id", quoted c.keyId),
    ("signature_b64", quoted c.signatureB64)]

def RekorEntry.toJson (e : RekorEntry) : String :=
  objectText ([("log_index", toString e.logIndex), ("log_id", quoted e.logId),
    ("integrated_time", toString e.integratedTime),
    ("canonicalized_body", quoted e.canonicalizedBody), ("set_b64", quoted e.setB64)] ++
    (e.inclusionProof.map fun p => ("inclusion_proof", RekorInclusionProof.toJson p)).toList ++
    (e.checkpoint.map fun c => ("checkpoint", RekorCheckpoint.toJson c)).toList)

/-- The JSON of a bundle. -/
def bundleJson (b : KeylessBundle) : Bytes :=
  utf8 <| objectText ([("leaf_cert_pem", quoted b.leafCertPem),
    ("signature_b64", quoted b.signatureB64)] ++
    (b.chainPem.map fun c => ("chain_pem", quoted c)).toList ++
    (b.rekor.map fun e => ("rekor", RekorEntry.toJson e)).toList)

/-- DER of `BasicConstraints`. -/
def basicConstraintsOf : Bytes → Except String BasicConstraints
  | [0x30, 0x00] => .ok ⟨false, none⟩
  | [0x30, 0x03, 0x01, 0x01, 0xff] => .ok ⟨true, none⟩
  | [0x30, 0x06, 0x01, 0x01, 0xff, 0x02, 0x01, n] => .ok ⟨true, some n.toNat⟩
  | _ => .error "malformed ASN.1 DER value"

/-- DER of an `ExtendedKeyUsage` with the one usage `codeSigning`. -/
def extendedKeyUsageOf (value : Bytes) : Except String (List ObjectIdentifier) :=
  if value = [0x30, 0x0a, 0x06, 0x08, 0x2b, 0x06, 0x01, 0x05, 0x05, 0x07, 0x03, 0x03] then
    .ok ["1.3.6.1.5.5.7.3.3"]
  else .error "malformed ASN.1 DER value"

def asciiText (b : Bytes) : String := String.ofList (b.map fun x => Char.ofNat x.toNat)

/-- DER of a `SubjectAltName` with one short name. -/
def subjectAltNameOf : Bytes → Except String (List GeneralName)
  | 0x30 :: _ :: 0x81 :: _ :: text => .ok [.rfc822Name (asciiText text)]
  | 0x30 :: _ :: 0x82 :: _ :: text => .ok [.dnsName (asciiText text)]
  | 0x30 :: _ :: 0x86 :: _ :: text => .ok [.uniformResourceIdentifier (asciiText text)]
  | _ => .error "malformed ASN.1 DER value"

/-- A typed extension of a certificate, by its identifier. -/
def typedExtension (id : ObjectIdentifier) (decode : Bytes → Except String α) (c : Certificate) :
    Except String (Option (Bool × α)) :=
  match (c.extensions.getD []).find? (·.extnId = id) with
  | none => .ok none
  | some ext =>
    match decode ext.extnValue with
    | .ok a => .ok (some (ext.critical, a))
    | .error e => .error e

/-- What a certificate's signature covers. -/
def tbs (c : Certificate) : Bytes :=
  (c.subject ++ c.issuer).flatMap (fun (k, v) => utf8 (k ++ v)) ++ c.spkiKey ++
    (c.extensions.getD []).flatMap (·.extnValue)

def sign (key message : Bytes) : Bytes := key ++ [message.foldl (· + ·) 0]

/-! ## The instance -/

def deps (t : Tables) : Deps Bytes (Pat Char) where
  b64Decode := Encoding.b64Decode
  hexDecode := Encoding.hexDecode
  sha256 b := (t.digests.lookup b).getD ⟨List.replicate 32 0, rfl⟩
  parseBundle b := lookup (t.bundles.map fun x => (bundleJson x, x)) b
    "expected value at line 1 column 1"
  parseCatalogue b := lookup t.catalogues b "expected value at line 1 column 1"
  jsonToString members := .ok (objectText (members.map fun (k, v) => (k, scalarText v)))
  utf8Error _ := "invalid utf-8 sequence of 1 bytes from index 0"
  certFromPem pem := lookup t.certs pem "PEM error"
  certToDer c := .ok (tbs c ++ c.signature)
  tbsToDer c := .ok (tbs c)
  spkiToDer c := .ok c.spkiKey
  getBasicConstraints := typedExtension "2.5.29.19" basicConstraintsOf
  getExtendedKeyUsage := typedExtension "2.5.29.37" extendedKeyUsageOf
  getSubjectAltName := typedExtension "2.5.29.17" subjectAltNameOf
  ia5FromDer b := .ok (asciiText b)
  showTime n := toString n
  debugStrings := toString
  keyFromDer spki _ := .ok spki
  keyFromPem pem _ := .ok pem
  verifySignature key sig message :=
    if sig = sign key message then .ok () else .error "signature error"
  regexNew pattern := lookup t.patterns pattern "regex parse error"
  regexIsMatch r s := isMatch r s.toList

/-- Search finds the parts that match, as `Regex::is_match` is documented to. -/
theorem deps_regexIsMatch (t : Tables) (r : Pat Char) (s : String) :
    (deps t).regexIsMatch r s = true ↔ ∃ a m b, s.toList = a ++ m ++ b ∧ Spans r a m b :=
  isMatch_iff

/-! ## A log of three entries -/

/-- SHA-256 of the leaves `a`, `b` and `c` and of the two nodes above them. -/
def hashA : Digest :=
  ⟨[0x02, 0x2a, 0x69, 0x79, 0xe6, 0xda, 0xb7, 0xaa, 0x5a, 0xe4, 0xc3, 0xe5, 0xe4, 0x5f, 0x7e, 0x97,
    0x71, 0x12, 0xa7, 0xe6, 0x35, 0x93, 0x82, 0x0d, 0xbe, 0xc1, 0xec, 0x73, 0x8a, 0x24, 0xf9, 0x3c], rfl⟩

def hashB : Digest :=
  ⟨[0x57, 0xeb, 0x35, 0x61, 0x5d, 0x47, 0xf3, 0x4e, 0xc7, 0x14, 0xca, 0xcd, 0xf5, 0xfd, 0x74, 0x60,
    0x8a, 0x5e, 0x8e, 0x10, 0x27, 0x24, 0xe8, 0x0b, 0x24, 0xb2, 0x87, 0xc0, 0xc2, 0x7b, 0x6a, 0x31], rfl⟩

def hashC : Digest :=
  ⟨[0x59, 0x7f, 0xcb, 0x31, 0x28, 0x2d, 0x34, 0x65, 0x4c, 0x20, 0x0d, 0x34, 0x18, 0xfc, 0xa5, 0x70,
    0x5c, 0x64, 0x8e, 0xbf, 0x32, 0x6e, 0xc7, 0x3d, 0x8d, 0xde, 0xf1, 0x18, 0x41, 0xf8, 0x76, 0xd8], rfl⟩

def hashAB : Digest :=
  ⟨[0xb1, 0x37, 0x98, 0x5f, 0xf4, 0x84, 0xfb, 0x60, 0x0d, 0xb9, 0x31, 0x07, 0xc7, 0x7b, 0x03, 0x65,
    0xc8, 0x0d, 0x78, 0xf5, 0xb4, 0x29, 0xde, 0xd0, 0xfd, 0x97, 0x36, 0x1d, 0x07, 0x79, 0x99, 0xeb], rfl⟩

def hashABC : Digest :=
  ⟨[0x36, 0x64, 0x2e, 0x73, 0xc2, 0x54, 0x0a, 0xb1, 0x21, 0xe3, 0xa6, 0xbf, 0x95, 0x45, 0xb0, 0xa2,
    0x49, 0x82, 0xcd, 0x83, 0x0e, 0xb1, 0x3d, 0x3c, 0xd1, 0x9d, 0xe3, 0xce, 0x6c, 0x02, 0x1e, 0xc1], rfl⟩

def logDigests : List (Bytes × Digest) :=
  [([0x00, 0x61], hashA), ([0x00, 0x62], hashB), ([0x00, 0x63], hashC),
    (0x01 :: (hashA.val ++ hashB.val), hashAB), (0x01 :: (hashAB.val ++ hashC.val), hashABC)]

def hexB := "57eb35615d47f34ec714cacdf5fd74608a5e8e102724e80b24b287c0c27b6a31"
def hexC := "597fcb31282d34654c200d3418fca5705c648ebf326ec73d8ddef11841f876d8"
def hexAB := "b137985ff484fb600db93107c77b0365c80d78f5b429ded0fd97361d077999eb"
def hexABC := "36642e73c2540ab121e3a6bf9545b0a24982cd830eb13d3cd19de3ce6c021ec1"

/-- The log's checkpoint at three entries, signed under the key `[9]`. -/
def logCheckpoint : RekorCheckpoint :=
  { origin := "log"
    treeSize := 3
    rootHashB64 := "NmQuc8JUCrEh46a/lUWwokmCzYMOsT080Z3jzmwCHsE="
    keyId := "c0"
    signatureB64 := "CXA=" }

/-- The entry `a`, its proof made for a log of `treeSize` entries. -/
def entryA (treeSize : Nat) : RekorEntry :=
  { logIndex := 0
    logId := "c0"
    integratedTime := 5
    canonicalizedBody := "YQ=="
    setB64 := "CYU="
    inclusionProof := some ⟨[hexB, hexC], treeSize, 0, hexABC⟩
    checkpoint := some logCheckpoint }

/-- The entry with its SET alone. -/
def bare (entry : RekorEntry) : RekorEntry :=
  { entry with inclusionProof := none, checkpoint := none }

def entryC : RekorEntry :=
  { logIndex := 2
    logId := "c0"
    integratedTime := 5
    canonicalizedBody := "Yw=="
    setB64 := "Ca0="
    inclusionProof := some ⟨[hexAB], 3, 2, hexABC⟩
    checkpoint := some logCheckpoint }

/-! ## Certificates -/

/-- A CA certificate with the given subject and key, issued under `issuer` by `issuerKey`. -/
def caCert (subject issuer : String) (key issuerKey : Bytes) : Certificate :=
  let c : Certificate :=
    { subject := [("2.5.4.3", subject)]
      issuer := [("2.5.4.3", issuer)]
      notBefore := 0
      notAfter := 100
      spkiAlgorithm := "1.2.840.10045.2.1"
      spkiKey := key
      signatureAlgorithm := "1.2.840.10045.4.3.2"
      signature := []
      extensions := some [⟨"2.5.29.19", true, [0x30, 0x03, 0x01, 0x01, 0xff]⟩] }
  { c with signature := sign issuerKey (tbs c) }

/-- A code-signing certificate for the SAN `san`, with the OIDC issuer `https://idp`. -/
def leafCert (issuer san : String) (key issuerKey : Bytes) : Certificate :=
  let text := utf8 san
  let len := UInt8.ofNat text.length
  let c : Certificate :=
    { subject := []
      issuer := [("2.5.4.3", issuer)]
      notBefore := 0
      notAfter := 100
      spkiAlgorithm := "1.2.840.10045.2.1"
      spkiKey := key
      signatureAlgorithm := "1.2.840.10045.4.3.2"
      signature := []
      extensions := some
        [⟨"2.5.29.37", false,
            [0x30, 0x0a, 0x06, 0x08, 0x2b, 0x06, 0x01, 0x05, 0x05, 0x07, 0x03, 0x03]⟩,
          ⟨"2.5.29.17", true, [0x30, len + 2, 0x86, len] ++ text⟩,
          ⟨fulcioOidcIssuerV1, false, utf8 "https://idp"⟩] }
  { c with signature := sign issuerKey (tbs c) }

/-! ## SAN patterns -/

/-- The expression of a literal text. -/
def literal (s : String) : Pat Char :=
  s.toList.foldr (fun c r => .cat (.satisfy (· == c)) r) .eps

/-- The crates with the patterns `ops` and `^ops$`. -/
def sanDeps : Deps Bytes (Pat Char) := deps
  { patterns := [("ops", literal "ops"), ("^ops$", .cat .start (.cat (literal "ops") .stop))] }

/-! ## A key rollover -/

def oldRoot : Certificate := caCert "Root" "Root" [1] [1]
def newRoot : Certificate := caCert "Root" "Root" [2] [2]
def intermediate : Certificate := caCert "CA" "Root" [3] [1]
def caLeaf : Certificate := leafCert "CA" "https://ops" [4] [3]
def rootLeaf : Certificate := leafCert "Root" "https://ops" [4] [1]

def rollover : Tables := { certs := [("old.pem", oldRoot), ("new.pem", newRoot)] }

/-- A trust store of the given roots. -/
def pin (roots : List Certificate) (h : ∀ c ∈ roots, c ∈ [oldRoot, newRoot]) :
    TrustRoot (deps rollover) where
  roots
  intermediates := []
  decoded c hc := by
    rcases List.mem_pair.1 (h c (by simpa using hc)) with rfl | rfl
    · exact ⟨"old.pem", rfl⟩
    · exact ⟨"new.pem", rfl⟩

/-! ## Bundles -/

/-- A bundle of the leaf certificate `leaf.pem` for the given signature. -/
def signedBundle (signatureB64 : String) (entry : RekorEntry) : KeylessBundle :=
  { leafCertPem := "leaf.pem", signatureB64, rekor := some entry }

/-- `{"tools":[]}`, whose signature under the leaf's key is `BF8=`. -/
def emptyCatalogue : Bytes := utf8 "\x7b\"tools\":[]\x7d"

/-- `[]`, which is no catalogue. Its signature under the leaf's key is `BLg=`. -/
def notCatalogue : Bytes := utf8 "[]"

/-- The crates over the log, its bundles and one leaf certificate. -/
def logDeps : Deps Bytes (Pat Char) := deps
  { digests := logDigests
    bundles := [signedBundle "BF8=" (bare (entryA 3)), signedBundle "BF8=" (bare entryC),
      signedBundle "BF8=" (entryA 3), signedBundle "BF8=" (entryA 4),
      signedBundle "BF8=" { entryA 3 with inclusionProof := none },
      signedBundle "BLg=" { entryA 3 with inclusionProof := none }]
    catalogues := [(emptyCatalogue, ⟨none, []⟩)]
    certs := [("leaf.pem", caLeaf)] }

end Tako.Sigstore.Sample
