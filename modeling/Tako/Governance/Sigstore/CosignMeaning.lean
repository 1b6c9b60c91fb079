import Tako.Governance.Sigstore.CosignBundle

/-!
# What a bundle of cosign vouches for

A message carries bytes (`Material`), and the adapter writes them as texts (`bundleOf_eq_ok`). The
decoders of the verifier read the same bytes from the texts, so what it checks are conditions on the
bytes (`Vouches`).
-/

namespace Tako.Sigstore

open Except Encoding Merkle

variable {Key Re : Type} {D : Deps Key Re}

/-! ## The bytes of a message -/

structure LogProof where
  logIndex : Nat
  treeSize : Nat
  rootHash : Bytes
  hashes : List Bytes

structure LogEntry where
  logIndex : Nat
  logId : Bytes
  integratedTime : Int
  body : Bytes
  signedEntryTimestamp : Bytes
  proof : Option LogProof := none

structure Material where
  leaf : Bytes
  issuers : List Bytes
  signature : Bytes
  entry : Option LogEntry

def carriedProof (p : Cosign.InclusionProof) : LogProof where
  logIndex := asU64 p.logIndex
  treeSize := asU64 p.treeSize
  rootHash := p.rootHash
  hashes := p.hashes

/-- The entry's bytes. Without a log id or a timestamp it has none. -/
def EntryCarries (t : Cosign.TransparencyLogEntry) (e : LogEntry) : Prop :=
  t.logId = some ⟨e.logId⟩ ∧ t.inclusionPromise = some ⟨e.signedEntryTimestamp⟩ ∧
    e.logIndex = asU64 t.logIndex ∧ e.integratedTime = t.integratedTime.toInt ∧
    e.body = t.canonicalizedBody ∧ e.proof = t.inclusionProof.map carriedProof

/-- The certificates are the chain's, or the single one where there is no chain. -/
def CertsCarry (vm : Cosign.VerificationMaterial) (leaf : Bytes) (issuers : List Bytes) : Prop :=
  vm.x509CertificateChain = some ⟨⟨leaf⟩ :: issuers.map Cosign.X509Certificate.mk⟩ ∨
    (∀ chain, vm.x509CertificateChain = some chain → chain.certificates = []) ∧
      vm.certificate = some ⟨leaf⟩ ∧ issuers = []

/-- What a message carries. Neither a certificate nor the signature is empty. -/
def Carries (m : Cosign.Bundle) (M : Material) : Prop :=
  ∃ vm, m.verificationMaterial = some vm ∧ CertsCarry vm M.leaf M.issuers ∧
    (∀ der ∈ M.leaf :: M.issuers, der ≠ []) ∧ m.messageSignature = some ⟨M.signature⟩ ∧
    M.signature ≠ [] ∧ Option.Rel EntryCarries vm.tlogEntries.head? M.entry

/-! ## Written as texts -/

def LogProof.written (p : LogProof) : RekorInclusionProof where
  hashesHex := p.hashes.map hexEncode
  treeSize := p.treeSize
  logIndex := p.logIndex
  rootHashHex := hexEncode p.rootHash

def LogEntry.written (e : LogEntry) : RekorEntry where
  logIndex := e.logIndex
  logId := hexEncode e.logId
  integratedTime := e.integratedTime
  canonicalizedBody := b64Encode e.body
  setB64 := b64Encode e.signedEntryTimestamp
  inclusionProof := e.proof.map LogProof.written

def Material.written (M : Material) : KeylessBundle where
  leafCertPem := pemEncode M.leaf
  signatureB64 := b64Encode M.signature
  chainPem := if M.issuers.isEmpty then none else some (String.join (M.issuers.map pemEncode))
  rekor := M.entry.map LogEntry.written

theorem required_eq_ok {o : Option α} {message : String} {a : α} :
    required o message = .ok a ↔ o = some a := by
  cases o <;> simp [required]

theorem derToPem_eq_ok {der : Bytes} {pem : String} :
    derToPem der = .ok pem ↔ der ≠ [] ∧ pem = pemEncode der := by
  simp [derToPem, bind_eq_ok, eq_comm (a := pem)]

theorem certsOf_eq_ok {vm : Cosign.VerificationMaterial} {leaf : Cosign.X509Certificate}
    {rest : List Cosign.X509Certificate} :
    certsOf vm = .ok (leaf, rest) ↔ CertsCarry vm leaf.rawBytes (rest.map (·.rawBytes)) := by
  have hmap : (rest.map (·.rawBytes)).map Cosign.X509Certificate.mk = rest := by
    simp [Function.comp_def]
  have hleaf : (⟨leaf.rawBytes⟩ : Cosign.X509Certificate) = leaf := rfl
  rw [CertsCarry, hmap, hleaf, List.map_eq_nil_iff]
  obtain ⟨chain, single, entries⟩ := vm
  cases chain with
  | none => cases single <;> simp [certsOf, eq_comm]
  | some chain =>
    obtain ⟨certificates⟩ := chain
    cases certificates with
    | nil => cases single <;> simp [certsOf, eq_comm]
    | cons c cs => simp [certsOf]

theorem entryOf_eq_ok {t : Cosign.TransparencyLogEntry} {entry : RekorEntry} :
    entryOf t = .ok entry ↔ ∃ e, EntryCarries t e ∧ e.written = entry := by
  have hproof : (t.inclusionProof.map carriedProof).map LogProof.written =
      t.inclusionProof.map proofOf := by
    rw [Option.map_map]
    rfl
  simp only [entryOf, bind_eq_ok, required_eq_ok, Except.ok.injEq]
  constructor
  · rintro ⟨logId, hlogId, promise, hpromise, rfl⟩
    refine ⟨⟨asU64 t.logIndex, logId.keyId, t.integratedTime.toInt, t.canonicalizedBody,
      promise.signedEntryTimestamp, t.inclusionProof.map carriedProof⟩,
      ⟨hlogId, hpromise, rfl, rfl, rfl, rfl⟩, ?_⟩
    rw [LogEntry.written, hproof]
  · rintro ⟨e, ⟨hlogId, hpromise, hindex, htime, hbody, hcarried⟩, rfl⟩
    refine ⟨_, hlogId, _, hpromise, ?_⟩
    rw [LogEntry.written, hindex, htime, hbody, hcarried, hproof]

theorem rekorOf_eq_ok {entries : List Cosign.TransparencyLogEntry} {rekor : Option RekorEntry} :
    rekorOf entries = .ok rekor ↔
      ∃ e, Option.Rel EntryCarries entries.head? e ∧ e.map LogEntry.written = rekor := by
  cases entries with
  | nil =>
    rw [rekorOf, Except.ok.injEq, List.head?_nil]
    constructor
    · rintro rfl
      exact ⟨none, .none, rfl⟩
    · rintro ⟨_, ⟨⟩, h⟩
      exact h
  | cons t entries =>
    rw [rekorOf, List.head?_cons, bind_eq_ok]
    simp only [entryOf_eq_ok, Except.ok.injEq]
    constructor
    · rintro ⟨_, ⟨e, hcarries, rfl⟩, rfl⟩
      exact ⟨some e, .some hcarries, rfl⟩
    · rintro ⟨_, hrel, rfl⟩
      cases hrel with
      | some hcarries => exact ⟨_, ⟨_, hcarries, rfl⟩, rfl⟩

theorem mapM_derToPem_eq_ok {ders : List Bytes} {pems : List String} :
    ders.mapM derToPem = .ok pems ↔ (∀ der ∈ ders, der ≠ []) ∧ pems = ders.map pemEncode := by
  rw [mapM_eq_ok]
  induction ders generalizing pems with
  | nil => simp
  | cons der ders ih =>
    rw [List.forall₂_cons_left_iff, List.forall_mem_cons, List.map_cons]
    constructor
    · rintro ⟨pem, pems, hpem, hpems, rfl⟩
      obtain ⟨hder, rfl⟩ := derToPem_eq_ok.1 hpem
      obtain ⟨hders, rfl⟩ := ih.1 hpems
      exact ⟨⟨hder, hders⟩, rfl⟩
    · rintro ⟨⟨hder, hders⟩, rfl⟩
      exact ⟨_, _, derToPem_eq_ok.2 ⟨hder, rfl⟩, ih.2 ⟨hders, rfl⟩, rfl⟩

/-- The adapter writes what the message carries, and fails on a message that carries nothing. -/
theorem bundleOf_eq_ok {m : Cosign.Bundle} {kb : KeylessBundle} :
    bundleOf m = .ok kb ↔ ∃ M, Carries m M ∧ M.written = kb := by
  have hmap (rest : List Cosign.X509Certificate) : rest.mapM (fun c => derToPem c.rawBytes) =
      (rest.map (·.rawBytes)).mapM derToPem := by
    rw [List.mapM_map]
    rfl
  simp only [bundleOf, bind_eq_ok, required_eq_ok, rejectIf_eq_ok, hmap]
  constructor
  · rintro ⟨vm, hvm, ⟨leaf, rest⟩, hcerts, leafPem, hleaf, pems, hpems, sig, hsig, _, hne, rekor,
      hrekor, h⟩
    obtain ⟨hleafNe, rfl⟩ := derToPem_eq_ok.1 hleaf
    obtain ⟨hrestNe, rfl⟩ := mapM_derToPem_eq_ok.1 hpems
    obtain ⟨entry, hentry, rfl⟩ := rekorOf_eq_ok.1 hrekor
    obtain rfl := Except.ok.inj h
    refine ⟨⟨leaf.rawBytes, rest.map (·.rawBytes), sig.signature, entry⟩,
      ⟨vm, hvm, certsOf_eq_ok.1 hcerts, List.forall_mem_cons.2 ⟨hleafNe, hrestNe⟩, hsig, hne,
        hentry⟩, ?_⟩
    simp [Material.written]
  · rintro ⟨M, ⟨vm, hvm, hcerts, hders, hsig, hne, hentry⟩, rfl⟩
    obtain ⟨hleafNe, hrestNe⟩ := List.forall_mem_cons.1 hders
    have hraw : (M.issuers.map Cosign.X509Certificate.mk).map (·.rawBytes) = M.issuers := by
      simp [Function.comp_def]
    have hcerts' : certsOf vm = .ok (⟨M.leaf⟩, M.issuers.map Cosign.X509Certificate.mk) :=
      certsOf_eq_ok.2 (by rw [hraw]; exact hcerts)
    have hpems := mapM_derToPem_eq_ok.2 ⟨hrestNe, rfl⟩
    refine ⟨vm, hvm, _, hcerts', _, derToPem_eq_ok.2 ⟨hleafNe, rfl⟩, _, hraw.symm ▸ hpems, _, hsig,
      ⟨⟩, hne, _, rekorOf_eq_ok.2 ⟨_, hentry, rfl⟩, ?_⟩
    simp [Material.written, Function.comp_def]

/-! ## Read back -/

/-- Documented behaviour: the decoders read what the encoders write, and a certificate is read from
its PEM block whatever ends the lines. -/
structure ReadsBack (D : Deps Key Re) (certFromDer : Bytes → Except String Certificate) : Prop where
  b64 : ∀ b, D.b64Decode (b64Encode b) = .ok b
  hex : ∀ b, D.hexDecode (hexEncode b) = .ok b
  pem : ∀ eol ∈ ["\n", "\r\n"], ∀ der cert,
    D.certFromPem (pemText eol der) = .ok cert ↔ certFromDer der = .ok cert

variable {certFromDer : Bytes → Except String Certificate}

theorem isWhitespace_of_isSymbol (h : IsSymbol c) : Str.isWhitespace c = false := by
  obtain ⟨⟨hlow, hhigh⟩, -⟩ := h
  simp [Str.isWhitespace]
  omega

theorem ReadsBack.b64_trim (h : ReadsBack D certFromDer) (b : Bytes) :
    D.b64Decode (Str.trim (b64Encode b)) = .ok b := by
  rw [Str.trim_eq_self fun c hc => isWhitespace_of_isSymbol (isSymbol_of_mem_b64Encode hc)]
  exact h.b64 b

theorem ReadsBack.hex_trim (h : ReadsBack D certFromDer) (b : Bytes) :
    D.hexDecode (Str.trim (hexEncode b)) = .ok b := by
  rw [Str.trim_eq_self fun c hc => isWhitespace_of_isSymbol (isSymbol_of_mem_hexEncode hc)]
  exact h.hex b

/-! ### Certificates -/

theorem mem_of_mem_wrapped {cs : List Char} {l : String} (hl : l ∈ wrapped cs)
    (hc : c ∈ l.toList) : c ∈ cs := by
  induction cs using wrapped.induct with
  | case1 =>
    rw [wrapped, if_pos rfl] at hl
    cases hl
  | case2 cs hne ih =>
    rw [wrapped, if_neg hne, List.mem_cons] at hl
    rcases hl with rfl | hl
    · rw [String.toList_ofList] at hc
      exact List.mem_of_mem_take hc
    · exact List.mem_of_mem_drop (ih hl)

theorem isSymbol_of_mem_line {der : Bytes} {l : String} (hl : l ∈ wrapped (b64EncodeGroups der))
    (hc : c ∈ l.toList) : IsSymbol c :=
  isSymbol_of_mem_b64EncodeGroups (mem_of_mem_wrapped hl hc)

theorem isPlain_of_mem_wrapped {der : Bytes} {l : String}
    (hl : l ∈ wrapped (b64EncodeGroups der)) : IsPlain l := by
  have hhyphen : '-' ∉ l.toList := fun hc => (isSymbol_of_mem_line hl hc).2 rfl
  have hbegin : Str.contains l beginMarker = false := Str.contains_eq_false (by decide) hhyphen
  have hend : Str.contains l endMarker = false := Str.contains_eq_false (by decide) hhyphen
  refine ⟨fun h => ?_, fun h => ?_⟩
  · exact Bool.false_ne_true (hbegin.symm.trans h)
  · exact Bool.false_ne_true (hend.symm.trans h.2)

theorem isBegin_beginMarker : IsBegin beginMarker := by decide

theorem isEnd_endMarker : IsEnd endMarker := by decide

/-- No line has the end of one in it. -/
theorem pemLines_whole {der : Bytes} {l : String} (hl : l ∈ pemLines der) :
    '\n' ∉ l.toList ∧ '\r' ∉ l.toList := by
  rw [pemLines, List.mem_cons, List.mem_append, List.mem_singleton] at hl
  rcases hl with rfl | hl | rfl
  · decide
  · exact ⟨fun hc => absurd (isSymbol_of_mem_line hl hc) (by decide),
      fun hc => absurd (isSymbol_of_mem_line hl hc) (by decide)⟩
  · decide

theorem lines_join_pemEncode (ders : List Bytes) :
    Str.lines (String.join (ders.map pemEncode)) = ders.flatMap pemLines := by
  have hjoin : String.join (ders.map pemEncode) =
      String.join ((ders.flatMap pemLines).map (· ++ "\r\n")) := by
    induction ders with
    | nil => rfl
    | cons der ders ih =>
      rw [List.map_cons, String.join_cons, ih, List.flatMap_cons, List.map_append,
        String.join_append]
      rfl
  rw [hjoin, Str.lines_join (by simp)]
  intro l hl
  obtain ⟨der, -, hl⟩ := List.mem_flatMap.1 hl
  exact pemLines_whole hl

theorem endedBlocks_pemLines (ders : List Bytes) :
    endedBlocks [] (ders.flatMap pemLines) = ders.map pemLines := by
  induction ders with
  | nil => rfl
  | cons der ders ih =>
    rw [List.flatMap_cons, List.map_cons, pemLines, List.cons_append, endedBlocks,
      if_pos isBegin_beginMarker, List.append_assoc,
      endedBlocks_body (fun _ hl => isPlain_of_mem_wrapped hl) (by simp), List.singleton_append,
      List.singleton_append, endedBlocks, if_neg isEnd_endMarker.1, if_pos isEnd_endMarker, ih]
    rfl

/-- The chain is read as the certificates of its bytes. -/
theorem ReadsBack.parsePemText_eq_ok (h : ReadsBack D certFromDer) {ders : List Bytes}
    {certs : List Certificate} :
    parsePemText D (String.join (ders.map pemEncode)) = .ok certs ↔
      List.Forall₂ (fun der cert => certFromDer der = .ok cert) ders certs := by
  have hblock (der : Bytes) (cert : Certificate) :
      decodeBlock D (pemLines der) = .ok cert ↔ certFromDer der = .ok cert := by
    rw [decodeBlock, mapError_eq_ok]
    exact h.pem "\n" (by simp) der cert
  rw [parsePemText_eq, lines_join_pemEncode, endedBlocks_pemLines, mapM_eq_ok,
    List.forall₂_map_left_iff]
  simp only [hblock]

theorem ReadsBack.parseLeafCert_eq_ok (h : ReadsBack D certFromDer) {der : Bytes}
    {cert : Certificate} :
    parseLeafCert D (pemEncode der) = .ok cert ↔ certFromDer der = .ok cert := by
  rw [parseLeafCert, mapError_eq_ok]
  exact h.pem "\r\n" (by simp) der cert

/-! ### The log's entry -/

/-- The bytes of the proof lead from the body to the root, as RFC 6962 hashes them. -/
structure LogProof.Proves (D : Deps Key Re) (p : LogProof) (e : LogEntry) : Prop where
  index : p.logIndex = e.logIndex
  inRange : e.logIndex < p.treeSize
  climbs : ∃ path : List Digest, path.map Subtype.val = p.hashes ∧
    path.length = (sides e.logIndex (p.treeSize - 1)).length ∧
    p.rootHash = (climb (rfc6962 D) (D.sha256 (leafPreimage e.body))
      ((sides e.logIndex (p.treeSize - 1)).zip path)).val

/-- The log has signed the entry, and its proof is one. -/
structure LogEntry.Logged (D : Deps Key Re) (key : Key) (e : LogEntry) : Prop where
  signed : ∃ canonical, D.jsonToString (setPayload e.written) = .ok canonical ∧
    D.verifySignature key e.signedEntryTimestamp (utf8 canonical) = .ok ()
  included : ∀ p, e.proof = some p → p.Proves D e

theorem ReadsBack.pathDecodes_iff (h : ReadsBack D certFromDer) {hashes : List Bytes}
    {path : List Digest} :
    PathDecodes D (hashes.map hexEncode) path ↔ path.map Subtype.val = hashes := by
  rw [PathDecodes, List.forall₂_map_left_iff]
  simp only [h.hex_trim, Except.ok.injEq]
  induction hashes generalizing path with
  | nil => rw [List.forall₂_nil_left_iff, List.map_eq_nil_iff]
  | cons b hashes ih =>
    rw [List.forall₂_cons_left_iff]
    simp only [ih]
    constructor
    · rintro ⟨d, path, rfl, rfl, rfl⟩
      rfl
    · intro hpath
      obtain ⟨d, path, rfl, hd, hrest⟩ := List.map_eq_cons_iff.1 hpath
      exact ⟨d, path, hd.symm, hrest, rfl⟩

theorem ReadsBack.verifyRekorInclusion_eq_ok (h : ReadsBack D certFromDer) {e : LogEntry}
    {p : LogProof} : verifyRekorInclusion D e.written p.written = .ok () ↔ p.Proves D e := by
  rw [Sigstore.verifyRekorInclusion_eq_ok]
  simp only [LogEntry.written, LogProof.written, h.b64_trim, h.hex_trim, h.pathDecodes_iff,
    Except.ok.injEq]
  constructor
  · rintro ⟨hindex, hrange, _, path, rfl, hpath, hlen, hroot⟩
    exact ⟨hindex, hrange, path, hpath, hlen, hroot⟩
  · rintro ⟨hindex, hrange, path, hpath, hlen, hroot⟩
    exact ⟨hindex, hrange, _, path, rfl, hpath, hlen, hroot⟩

theorem ReadsBack.verifyRekorSet_eq_ok (h : ReadsBack D certFromDer) {key : Key} {e : LogEntry} :
    verifyRekorSet D key e.written = .ok () ↔
      ∃ canonical, D.jsonToString (setPayload e.written) = .ok canonical ∧
        D.verifySignature key e.signedEntryTimestamp (utf8 canonical) = .ok () := by
  simp only [verifyRekorSet, bind_eq_ok, mapError_eq_ok]
  refine exists_congr fun canonical => and_congr_right fun _ => ?_
  rw [LogEntry.written, h.b64_trim]
  simp only [Except.ok.injEq, exists_eq_left']

theorem ReadsBack.verifyRekorEntry_eq_ok (h : ReadsBack D certFromDer) {key : Key}
    {e : LogEntry} : verifyRekorEntry D key e.written = .ok () ↔ e.Logged D key := by
  rw [Sigstore.verifyRekorEntry_eq_ok, h.verifyRekorSet_eq_ok]
  have hproof : e.written.inclusionProof = e.proof.map LogProof.written := rfl
  have hcheckpoint : e.written.checkpoint = none := rfl
  rw [hproof, hcheckpoint]
  constructor
  · rintro ⟨hsigned, hincluded, -⟩
    refine ⟨hsigned, fun p hp => h.verifyRekorInclusion_eq_ok.1 (hincluded _ ?_)⟩
    rw [hp, Option.map_some]
  · rintro ⟨hsigned, hincluded⟩
    refine ⟨hsigned, fun proof hproof => ?_, nofun⟩
    obtain ⟨p, hp, rfl⟩ := Option.map_eq_some_iff.1 hproof
    exact h.verifyRekorInclusion_eq_ok.2 (hincluded p hp)

/-! ## Verification -/

/-- The certificate has the pinned identity. -/
structure KeylessVerifier.Identifies (v : KeylessVerifier D) (now : Time) (cert : Certificate) :
    Prop where
  valid : checkValidityNow D now cert = .ok ()
  codeSigning : checkCodeSigningEku D cert = .ok ()
  san : ∃ sans, extractSanValues D cert = .ok sans ∧ checkSan D v.identity sans = .ok ()
  issuer : extractOidcIssuer D cert = .ok v.identity.issuer

/-- The certificate's key made the signature of the manifest. -/
def Signs (D : Deps Key Re) (cert : Certificate) (signature manifest : Bytes) : Prop :=
  ∃ scheme spkiDer key, signingSchemeForCert cert = .ok scheme ∧
    D.spkiToDer cert = .ok spkiDer ∧ D.keyFromDer spkiDer scheme = .ok key ∧
    D.verifySignature key signature manifest = .ok ()

/-- The conditions on the bytes of a message under which it stands for the manifest. -/
structure KeylessVerifier.Vouches (v : KeylessVerifier D)
    (certFromDer : Bytes → Except String Certificate) (clock : Nat → Time) (manifest : Bytes)
    (M : Material) : Prop where
  artefact : ∃ cert, certFromDer M.leaf = .ok cert ∧ v.Identifies (clock 0) cert ∧
    Signs D cert M.signature manifest ∧ ∀ root, v.trustRoot = some root →
      ∃ certs, List.Forall₂ (fun der c => certFromDer der = .ok c) M.issuers certs ∧
        verifyChain D (fun n => clock (n + 1)) cert certs root = .ok ()
  logged : ∀ key e, v.rekorKey = some key → M.entry = some e → e.Logged D key

variable {v : KeylessVerifier D} {M : Material}

theorem ReadsBack.verifyLeaf_eq_ok (h : ReadsBack D certFromDer) {now : Time} {manifest : Bytes}
    {cert : Certificate} : v.verifyLeaf now manifest M.written cert = .ok () ↔
      v.Identifies now cert ∧ Signs D cert M.signature manifest := by
  have hsignature : D.b64Decode (Str.trim M.written.signatureB64) = .ok M.signature :=
    h.b64_trim M.signature
  simp only [KeylessVerifier.verifyLeaf, bind_eq_ok, mapError_eq_ok, rejectIf_eq_ok, hsignature,
    Except.ok.injEq, exists_eq_left', exists_const, not_not]
  constructor
  · rintro ⟨⟨⟩, hvalid, ⟨⟩, hsigning, sans, hsans, _, hissuer, rfl, ⟨⟩, hsan, scheme, hscheme,
      spkiDer, hspki, key, hkey, hverify⟩
    exact ⟨⟨hvalid, hsigning, ⟨sans, hsans, hsan⟩, hissuer⟩, scheme, spkiDer, key, hscheme, hspki,
      hkey, hverify⟩
  · rintro ⟨⟨hvalid, hsigning, ⟨sans, hsans, hsan⟩, hissuer⟩, scheme, spkiDer, key, hscheme, hspki,
      hkey, hverify⟩
    exact ⟨⟨⟩, hvalid, ⟨⟩, hsigning, sans, hsans, _, hissuer, rfl, ⟨⟩, hsan, scheme, hscheme,
      spkiDer, hspki, key, hkey, hverify⟩

theorem ReadsBack.verifyPinnedChain_eq_ok (h : ReadsBack D certFromDer) {clock : Nat → Time}
    {cert : Certificate} : v.verifyPinnedChain clock M.written cert = .ok () ↔
      ∀ root, v.trustRoot = some root →
        ∃ certs, List.Forall₂ (fun der c => certFromDer der = .ok c) M.issuers certs ∧
          verifyChain D clock cert certs root = .ok () := by
  have hchain : M.written.chainPem =
      if M.issuers.isEmpty then none else some (String.join (M.issuers.map pemEncode)) := rfl
  cases hroot : v.trustRoot with
  | none => simp [KeylessVerifier.verifyPinnedChain, hroot]
  | some root =>
    cases hissuers : M.issuers with
    | nil =>
      simp [KeylessVerifier.verifyPinnedChain, hroot, hchain, hissuers, bind, Except.bind]
    | cons der ders =>
      simp only [KeylessVerifier.verifyPinnedChain, hroot, hchain, hissuers, List.isEmpty_cons,
        if_neg Bool.false_ne_true, bind_eq_ok, h.parsePemText_eq_ok, Option.some.injEq,
        forall_eq']

theorem ReadsBack.verifyRekor_eq_ok (h : ReadsBack D certFromDer) {o : Option Nat} :
    v.verifyRekor M.written = .ok o ↔
      (∀ key e, v.rekorKey = some key → M.entry = some e → e.Logged D key) ∧ o = none := by
  have hrekor : M.written.rekor = M.entry.map LogEntry.written := rfl
  cases hkey : v.rekorKey with
  | none => simp [verifyRekor_of_no_key hkey, eq_comm]
  | some key =>
    cases hentry : M.entry with
    | none => simp [KeylessVerifier.verifyRekor, hkey, hrekor, hentry, eq_comm]
    | some e =>
      rw [hentry] at hrekor
      rw [verifyRekor_of_key hkey hrekor, h.verifyRekorEntry_eq_ok]
      simp [LogEntry.written, eq_comm]

/-- The checks of the texts are checks of the bytes. They do not look at the anchor. -/
theorem ReadsBack.checkBundle_eq_ok (h : ReadsBack D certFromDer) {clock : Nat → Time}
    {manifest bundleJson : Bytes} (hjson : D.parseBundle bundleJson = .ok M.written)
    {o : Option Nat} : v.checkBundle clock manifest bundleJson = .ok o ↔
      v.Vouches certFromDer clock manifest M ∧ o = none := by
  rw [Sigstore.checkBundle_eq_ok]
  constructor
  · rintro ⟨kb, ⟨hparsed, cert, hcert, hleaf, hchain⟩, hrekor⟩
    obtain rfl := Except.ok.inj (hparsed.symm.trans hjson)
    obtain ⟨hidentity, hsigns⟩ := h.verifyLeaf_eq_ok.1 hleaf
    obtain ⟨hlogged, ho⟩ := h.verifyRekor_eq_ok.1 hrekor
    exact ⟨⟨⟨cert, h.parseLeafCert_eq_ok.1 hcert, hidentity, hsigns,
      h.verifyPinnedChain_eq_ok.1 hchain⟩, hlogged⟩, ho⟩
  · rintro ⟨⟨⟨cert, hcert, hidentity, hsigns, hchain⟩, hlogged⟩, ho⟩
    exact ⟨M.written, ⟨hjson, cert, h.parseLeafCert_eq_ok.2 hcert,
      h.verifyLeaf_eq_ok.2 ⟨hidentity, hsigns⟩, h.verifyPinnedChain_eq_ok.2 hchain⟩,
      h.verifyRekor_eq_ok.2 ⟨hlogged, ho⟩⟩

/-- A bundle of cosign is accepted exactly for a manifest that is a catalogue and that the bytes of
its message vouch for. It never moves the freshness anchor. -/
theorem verifyProtobufBundle_eq_ok (h : ReadsBack D certFromDer) {P : CosignDeps}
    {protobufBundle : Bytes}
    (hjson : ∀ kb, fromProtobufBundle P protobufBundle = .ok kb →
      ∃ bundleJson, P.bundleToJson kb = .ok bundleJson ∧ D.parseBundle bundleJson = .ok kb)
    (v : KeylessVerifier D) (clock : Nat → Time) (manifest : Bytes) (anchor : Nat) :
    (v.verifyProtobufBundle P clock manifest protobufBundle anchor).2 = anchor ∧
      ∀ catalogue,
        (v.verifyProtobufBundle P clock manifest protobufBundle anchor).1 = .ok catalogue ↔
          D.parseCatalogue manifest = .ok catalogue ∧
            ∃ m M, P.decode protobufBundle = .ok m ∧ Carries m M ∧
              v.Vouches certFromDer clock manifest M := by
  -- the texts of a message are those of all that it carries
  have htexts {m : Cosign.Bundle} {M : Material} (hm : P.decode protobufBundle = .ok m)
      (hM : Carries m M) : ∃ bundleJson,
        (do
          let kb ← fromProtobufBundle P protobufBundle
          (P.bundleToJson kb).mapError (invalid "re-serialise bundle")) = .ok bundleJson ∧
          D.parseBundle bundleJson = .ok M.written := by
    have hkb : fromProtobufBundle P protobufBundle = .ok M.written := by
      simp only [fromProtobufBundle, bind_eq_ok, mapError_eq_ok, bundleOf_eq_ok]
      exact ⟨m, hm, M, hM, rfl⟩
    obtain ⟨bundleJson, hwrite, hparse⟩ := hjson _ hkb
    refine ⟨bundleJson, ?_, hparse⟩
    simp only [hkb, bind_eq_ok, Except.ok.injEq, exists_eq_left', mapError_eq_ok, hwrite]
  rw [KeylessVerifier.verifyProtobufBundle]
  cases hr : (do
    let kb ← fromProtobufBundle P protobufBundle
    (P.bundleToJson kb).mapError (invalid "re-serialise bundle")) with
  | error e =>
    refine ⟨rfl, fun catalogue => iff_of_false (by simp) ?_⟩
    rintro ⟨-, m, M, hm, hM, -⟩
    obtain ⟨bundleJson, hok, -⟩ := htexts hm hM
    rw [hr] at hok
    cases hok
  | ok bundleJson =>
    have hchecks {m : Cosign.Bundle} {M : Material} (hm : P.decode protobufBundle = .ok m)
        (hM : Carries m M) (o : Option Nat) : v.checkBundle clock manifest bundleJson = .ok o ↔
          v.Vouches certFromDer clock manifest M ∧ o = none := by
      obtain ⟨bundleJson', hok, hparse⟩ := htexts hm hM
      obtain rfl := Except.ok.inj (hr.symm.trans hok)
      exact h.checkBundle_eq_ok hparse
    have hcarried : ∃ m M, P.decode protobufBundle = .ok m ∧ Carries m M := by
      simp only [fromProtobufBundle, bind_eq_ok, mapError_eq_ok, bundleOf_eq_ok] at hr
      obtain ⟨_, ⟨m, hm, M, hM, -⟩, -⟩ := hr
      exact ⟨m, M, hm, hM⟩
    obtain ⟨m, M, hm, hM⟩ := hcarried
    dsimp only
    by_cases hvouches : v.Vouches certFromDer clock manifest M
    · rw [verifyBundle_of_admits ((hchecks hm hM none).2 ⟨hvouches, rfl⟩) admits_none]
      refine ⟨Nat.zero_max anchor, fun catalogue => ?_⟩
      rw [parseManifest, mapError_eq_ok]
      exact ⟨fun hcatalogue => ⟨hcatalogue, m, M, hm, hM, hvouches⟩, And.left⟩
    · have hfails : ¬∃ o, v.checkBundle clock manifest bundleJson = .ok o ∧ Admits anchor o := by
        rintro ⟨o, ho, -⟩
        exact hvouches ((hchecks hm hM o).1 ho).1
      obtain ⟨e, he⟩ := verifyBundle_of_not_admits hfails
      rw [he]
      refine ⟨rfl, fun catalogue => iff_of_false (by simp) ?_⟩
      rintro ⟨-, m', M', hm', hM', hvouches'⟩
      exact hfails ⟨none, (hchecks hm' hM' none).2 ⟨hvouches', rfl⟩, admits_none⟩

/-! ## A message -/

namespace Sample

/-- The certificates of a chain, by the bytes that stand for them. -/
def chainCert (der : Bytes) : Except String Certificate :=
  if der = [1] then .ok caLeaf
  else if der = [2] then .ok intermediate
  else if der = [3] then .ok oldRoot
  else .error "malformed ASN.1 DER value"

/-- The base64 text between the first and the last line. -/
def pemBody (pem : String) : String := String.join ((Str.lines pem).drop 1).dropLast

theorem join_wrapped (cs : List Char) : String.join (wrapped cs) = String.ofList cs := by
  induction cs using wrapped.induct with
  | case1 => rw [wrapped, if_pos rfl]; rfl
  | case2 cs hne ih =>
    rw [wrapped, if_neg hne, String.join_cons, ih, ← String.ofList_append, List.take_append_drop]

theorem pemBody_pemText {eol : String} (heol : eol ∈ ["\n", "\r\n"]) (der : Bytes) :
    pemBody (pemText eol der) = b64Encode der := by
  rw [pemBody, pemText, Str.lines_join heol fun _ => pemLines_whole, pemLines, List.drop_one,
    List.tail_cons, List.dropLast_concat, join_wrapped]
  rfl

/-- The bundle that the message is written as, its line ends escaped. -/
def escaped (s : String) : String :=
  String.join (s.toList.map fun c =>
    if c = '\r' then "\\r" else if c = '\n' then "\\n" else c.toString)

def escapedJson (kb : KeylessBundle) : Bytes :=
  bundleJson { kb with leafCertPem := escaped kb.leafCertPem, chainPem := kb.chainPem.map escaped }

def material : Material where
  leaf := [1]
  issuers := [[2]]
  signature := [0x04, 0x5f]
  entry := some
    { logIndex := 0
      logId := [0xc0]
      integratedTime := 5
      body := [0x61]
      signedEntryTimestamp := [0x09, 0x85]
      proof := some ⟨0, 3, hashABC.val, [hashB.val, hashC.val]⟩ }

def message : Cosign.Bundle where
  verificationMaterial := some
    { x509CertificateChain := some ⟨[⟨[1]⟩, ⟨[2]⟩]⟩
      tlogEntries :=
        [{ logIndex := 0
           logId := some ⟨[0xc0]⟩
           integratedTime := 5
           inclusionPromise := some ⟨[0x09, 0x85]⟩
           inclusionProof := some ⟨0, hashABC.val, 3, [hashB.val, hashC.val]⟩
           canonicalizedBody := [0x61] }] }
  messageSignature := some ⟨[0x04, 0x5f]⟩

def messageDeps : Deps Bytes (Regex.Pat Char) :=
  { deps { digests := logDigests, catalogues := [(emptyCatalogue, ⟨none, []⟩)] } with
    parseBundle := fun b => lookup [(escapedJson material.written, material.written)] b
      "expected value at line 1 column 1"
    certFromPem := fun pem => b64Decode (pemBody pem) >>= chainCert }

def cosign : CosignDeps where
  decode _ := .ok message
  bundleToJson kb := .ok (escapedJson kb)

theorem messageDeps_readsBack : ReadsBack messageDeps chainCert where
  b64 := b64Decode_b64Encode
  hex := hexDecode_hexEncode
  pem eol heol der cert := by
    change (b64Decode (pemBody (pemText eol der)) >>= chainCert) = .ok cert ↔ _
    rw [pemBody_pemText heol, b64Decode_b64Encode]
    rfl

theorem message_carries : Carries message material :=
  ⟨_, rfl, .inl rfl, by decide, rfl, by decide, .some ⟨rfl, rfl, rfl, rfl, rfl, rfl⟩⟩

/-- The identity `https://ops` of `https://idp` under the old root, with the log's key. -/
def chainVerifier : KeylessVerifier messageDeps where
  identity := .exact "https://idp" "https://ops"
  trustRoot := some
    { roots := [oldRoot]
      intermediates := []
      decoded := by
        intro c hc
        rw [List.append_nil, List.mem_singleton] at hc
        exact ⟨pemEncode [3], (messageDeps_readsBack.pem _ (by simp) _ _).2 (hc ▸ rfl)⟩ }
  rekorKey := some [9]

theorem material_vouched :
    chainVerifier.Vouches chainCert (fun _ => 50) emptyCatalogue material where
  artefact := by
    refine ⟨caLeaf, rfl, ⟨by decide +kernel, by decide +kernel, ⟨["https://ops"], by decide +kernel,
      by decide +kernel⟩, by decide +kernel⟩, ⟨_, _, _, rfl, rfl, rfl, by decide +kernel⟩, ?_⟩
    intro root hroot
    obtain rfl := Option.some.inj hroot
    exact ⟨[intermediate], .cons rfl .nil, by decide +kernel⟩
  logged := by
    intro key e hkey he
    obtain rfl := Option.some.inj hkey
    obtain rfl := Option.some.inj he
    refine ⟨⟨_, rfl, by decide +kernel⟩, fun p hp => ?_⟩
    obtain rfl := Option.some.inj hp
    exact messageDeps_readsBack.verifyRekorInclusion_eq_ok.1 (by decide +kernel)

end Sample

open Sample in
/-- A message with a chain of two certificates and an entry of the log. -/
theorem verifyProtobufBundle_eq_ok_message :
    (chainVerifier.verifyProtobufBundle cosign (fun _ => 50) emptyCatalogue [] 7).2 = 7 ∧
      (chainVerifier.verifyProtobufBundle cosign (fun _ => 50) emptyCatalogue [] 7).1 =
        .ok ⟨none, []⟩ := by
  have hjson (kb : KeylessBundle) (hkb : fromProtobufBundle cosign [] = .ok kb) :
      ∃ bundleJson, cosign.bundleToJson kb = .ok bundleJson ∧
        messageDeps.parseBundle bundleJson = .ok kb := by
    have hwritten : bundleOf message = .ok material.written :=
      bundleOf_eq_ok.2 ⟨_, message_carries, rfl⟩
    obtain rfl := Except.ok.inj (hwritten.symm.trans hkb)
    refine ⟨_, rfl, ?_⟩
    simp [messageDeps, lookup]
  obtain ⟨hanchor, haccepted⟩ := verifyProtobufBundle_eq_ok messageDeps_readsBack hjson
    chainVerifier (fun _ => 50) emptyCatalogue 7
  exact ⟨hanchor, (haccepted _).2 ⟨rfl, _, _, rfl, message_carries,
    material_vouched⟩⟩

end Tako.Sigstore
