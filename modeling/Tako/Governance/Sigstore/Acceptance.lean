import Tako.Governance.Sigstore.Verify

/-!
# What an accepted bundle proves

Acceptance by `verify_bundle` taken apart: the artefact's own checks (`Checked`), the checks of the
transparency entry, the freshness anchor and the manifest. Three relations between these parts are
examined. The entry is checked without the artefact (`verifyBundle_exchange_entry`). The
checkpoint is compared with the inclusion proof by its root and not by its size
(`verifyBundle_checkpoint_agrees_iff`). The anchor advances before the manifest is parsed
(`verifyBundle_error_keeps_anchor_iff`).
-/

namespace Tako.Sigstore

open Except

variable {Key Re : Type} {D : Deps Key Re} (v : KeylessVerifier D)

/-! ## Acceptance, part by part -/

theorem verifyRekorEntry_eq_ok {key : Key} {entry : RekorEntry} :
    verifyRekorEntry D key entry = .ok () ↔
      verifyRekorSet D key entry = .ok () ∧
      (∀ proof, entry.inclusionProof = some proof →
        verifyRekorInclusion D entry proof = .ok ()) ∧
      ∀ checkpoint, entry.checkpoint = some checkpoint →
        verifyRekorCheckpoint D key checkpoint (entry.inclusionProof.map (·.rootHashHex)) =
          .ok () := by
  rw [verifyRekorEntry]
  cases entry.inclusionProof <;> cases entry.checkpoint <;> simp [bind_eq_ok]

/-- The checks of the artefact: its bundle parses, its leaf certificate has the pinned identity
and signed the manifest, and the chain of trust holds. -/
structure KeylessVerifier.Checked (clock : Nat → Time) (manifest bundleJson : Bytes)
    (bundle : KeylessBundle) : Prop where
  parsed : D.parseBundle bundleJson = .ok bundle
  artefact : ∃ cert, parseLeafCert D bundle.leafCertPem = .ok cert ∧
    v.verifyLeaf (clock 0) manifest bundle cert = .ok () ∧
    v.verifyPinnedChain (fun n => clock (n + 1)) bundle cert = .ok ()

variable {v}

theorem checkBundle_eq_ok :
    v.checkBundle clock manifest bundleJson = .ok o ↔
      ∃ bundle, v.Checked clock manifest bundleJson bundle ∧ v.verifyRekor bundle = .ok o := by
  simp only [KeylessVerifier.checkBundle, bind_eq_ok, mapError_eq_ok]
  constructor
  · rintro ⟨bundle, hparse, cert, hcert, _, hleaf, _, hchain, h⟩
    exact ⟨bundle, ⟨hparse, cert, hcert, hleaf, hchain⟩, h⟩
  · rintro ⟨bundle, ⟨hparse, cert, hcert, hleaf, hchain⟩, h⟩
    exact ⟨bundle, hparse, cert, hcert, (), hleaf, (), hchain, h⟩

/-- The anchor admits the tree size, if there is one. -/
def Admits (anchor : Nat) (o : Option Nat) : Prop := ∀ treeSize, o = some treeSize → anchor ≤ treeSize

@[simp] theorem admits_none : Admits anchor none := by simp [Admits]

@[simp] theorem admits_some : Admits anchor (some treeSize) ↔ anchor ≤ treeSize := by
  simp [Admits]

theorem advanceAnchor_eq_ok :
    advanceAnchor anchor o = .ok anchor' ↔ Admits anchor o ∧ anchor' = max (o.getD 0) anchor := by
  cases o with
  | none => simp [advanceAnchor, eq_comm]
  | some treeSize =>
    simp only [advanceAnchor, checkFresh, bind_eq_ok, rejectIf_eq_ok, exists_const]
    simp [eq_comm]

/-- What `verify_bundle` does in the two cases of its checks. -/
theorem verifyBundle_of_admits (h : v.checkBundle clock manifest bundleJson = .ok o)
    (ha : Admits anchor o) :
    v.verifyBundle clock manifest bundleJson anchor =
      (parseManifest D manifest, max (o.getD 0) anchor) := by
  have hadv : v.checkBundle clock manifest bundleJson >>= advanceAnchor anchor =
      .ok (max (o.getD 0) anchor) :=
    bind_eq_ok.2 ⟨o, h, advanceAnchor_eq_ok.2 ⟨ha, rfl⟩⟩
  rw [KeylessVerifier.verifyBundle, hadv]

theorem verifyBundle_of_not_admits
    (h : ¬∃ o, v.checkBundle clock manifest bundleJson = .ok o ∧ Admits anchor o) :
    ∃ e, v.verifyBundle clock manifest bundleJson anchor = (.error e, anchor) := by
  rw [KeylessVerifier.verifyBundle]
  cases hb : v.checkBundle clock manifest bundleJson >>= advanceAnchor anchor with
  | error e => exact ⟨e, rfl⟩
  | ok anchor' =>
    obtain ⟨o, ho, hadv⟩ := bind_eq_ok.1 hb
    exact absurd ⟨o, ho, (advanceAnchor_eq_ok.1 hadv).1⟩ h

theorem verifyBundle_eq_ok :
    (v.verifyBundle clock manifest bundleJson anchor).1 = .ok catalogue ↔
      D.parseCatalogue manifest = .ok catalogue ∧
      ∃ o, v.checkBundle clock manifest bundleJson = .ok o ∧ Admits anchor o := by
  by_cases h : ∃ o, v.checkBundle clock manifest bundleJson = .ok o ∧ Admits anchor o
  · obtain ⟨o, ho, ha⟩ := h
    rw [verifyBundle_of_admits ho ha]
    simp only [parseManifest, mapError_eq_ok]
    exact ⟨fun hm => ⟨hm, o, ho, ha⟩, And.left⟩
  · obtain ⟨e, he⟩ := verifyBundle_of_not_admits h
    rw [he]
    exact iff_of_false (by simp) fun hm => h hm.2

theorem verifyRekor_of_key {bundle : KeylessBundle} (hkey : v.rekorKey = some key)
    (hentry : bundle.rekor = some entry) :
    v.verifyRekor bundle = .ok o ↔
      verifyRekorEntry D key entry = .ok () ∧ entry.checkpoint.map (·.treeSize) = o := by
  simp [KeylessVerifier.verifyRekor, hkey, hentry, bind_eq_ok]

theorem verifyRekor_of_no_key {bundle : KeylessBundle} (hkey : v.rekorKey = none) :
    v.verifyRekor bundle = .ok none := by
  simp [KeylessVerifier.verifyRekor, hkey]

/-- A tree size comes from the checkpoint of an entry that passes its checks under the key. -/
theorem verifyRekor_eq_some {bundle : KeylessBundle} :
    v.verifyRekor bundle = .ok (some treeSize) ↔
      ∃ key entry checkpoint, v.rekorKey = some key ∧ bundle.rekor = some entry ∧
        entry.checkpoint = some checkpoint ∧ verifyRekorEntry D key entry = .ok () ∧
        checkpoint.treeSize = treeSize := by
  cases hkey : v.rekorKey with
  | none => simp [verifyRekor_of_no_key hkey]
  | some key =>
    cases hentry : bundle.rekor with
    | none => simp [KeylessVerifier.verifyRekor, hkey, hentry]
    | some entry =>
      rw [verifyRekor_of_key hkey hentry, Option.map_eq_some_iff]
      constructor
      · rintro ⟨he, checkpoint, hcheckpoint, hsize⟩
        exact ⟨key, entry, checkpoint, rfl, rfl, hcheckpoint, he, hsize⟩
      · rintro ⟨_, _, checkpoint, ⟨⟩, ⟨⟩, hcheckpoint, he, hsize⟩
        exact ⟨he, checkpoint, hcheckpoint, hsize⟩

/-- Acceptance of a bundle with a transparency entry. -/
theorem verifyBundle_entry_eq_ok {bundle : KeylessBundle}
    (hparse : D.parseBundle bundleJson = .ok bundle) (hentry : bundle.rekor = some entry) :
    (v.verifyBundle clock manifest bundleJson anchor).1 = .ok catalogue ↔
      D.parseCatalogue manifest = .ok catalogue ∧ v.Checked clock manifest bundleJson bundle ∧
      ∀ key, v.rekorKey = some key → verifyRekorEntry D key entry = .ok () ∧
        Admits anchor (entry.checkpoint.map (·.treeSize)) := by
  rw [verifyBundle_eq_ok]
  apply and_congr_right
  intro _
  constructor
  · rintro ⟨o, ho, ha⟩
    obtain ⟨b, hb, hr⟩ := checkBundle_eq_ok.1 ho
    obtain rfl : b = bundle := Except.ok.inj (hb.parsed.symm.trans hparse)
    refine ⟨hb, fun key hkey => ?_⟩
    obtain ⟨he, rfl⟩ := (verifyRekor_of_key hkey hentry).1 hr
    exact ⟨he, ha⟩
  · rintro ⟨hb, h⟩
    cases hkey : v.rekorKey with
    | none =>
      exact ⟨none, checkBundle_eq_ok.2 ⟨_, hb, verifyRekor_of_no_key hkey⟩, admits_none⟩
    | some key =>
      obtain ⟨he, ha⟩ := h key hkey
      exact ⟨_, checkBundle_eq_ok.2 ⟨_, hb, (verifyRekor_of_key hkey hentry).2 ⟨he, rfl⟩⟩, ha⟩

/-- The anchor that an accepted bundle with a checkpoint leaves behind. -/
theorem verifyBundle_anchor {bundle : KeylessBundle}
    (hparse : D.parseBundle bundleJson = .ok bundle) (hentry : bundle.rekor = some entry)
    (hcheckpoint : entry.checkpoint = some checkpoint) (hkey : v.rekorKey = some key)
    (h : (v.verifyBundle clock manifest bundleJson anchor).1 = .ok catalogue) :
    (v.verifyBundle clock manifest bundleJson anchor).2 = max checkpoint.treeSize anchor := by
  obtain ⟨-, hb, hr⟩ := (verifyBundle_entry_eq_ok hparse hentry).1 h
  obtain ⟨he, ha⟩ := hr key hkey
  rw [verifyBundle_of_admits
    (checkBundle_eq_ok.2 ⟨_, hb, (verifyRekor_of_key hkey hentry).2 ⟨he, rfl⟩⟩) ha, hcheckpoint]
  rfl

/-! ## The entry and the artefact -/

/-- The body of a log entry is a record of an artefact: in some encoding that shortens no text,
the manifest's digest, the signature or the certificate occurs in it. -/
def RecordsArtefact (D : Deps Key Re) (body manifest signature certDer : Bytes) : Prop :=
  ∃ enc : Bytes → Bytes, (∀ x, x.length ≤ (enc x).length) ∧
    ∃ x ∈ [(D.sha256 manifest).val, signature, certDer], enc x <:+: body

/-- Nothing longer than the body occurs in it. -/
theorem not_recordsArtefact (hm : body.length < 32) (hs : body.length < signature.length)
    (hc : body.length < certDer.length) : ¬RecordsArtefact D body manifest signature certDer := by
  rintro ⟨enc, henc, x, hx, hin⟩
  have hlen := (henc x).trans hin.length_le
  simp only [List.mem_cons, List.not_mem_nil, or_false] at hx
  rcases hx with rfl | rfl | rfl
  · rw [(D.sha256 manifest).2] at hlen
    omega
  · omega
  · omega

/-- An entry under a pinned key is authentic in an accepted bundle. Which entry it is does not
matter: with another in its place the bundle is accepted exactly when the other one is authentic
too, with a checkpoint that the anchor admits. -/
theorem verifyBundle_exchange_entry (v : KeylessVerifier D) (clock : Nat → Time)
    (manifest bundleJson bundleJson' : Bytes) (anchor : Nat) (bundle : KeylessBundle)
    (key : Key) (entry entry' : RekorEntry) (catalogue : Catalogue)
    (hkey : v.rekorKey = some key) (hparse : D.parseBundle bundleJson = .ok bundle)
    (hentry : bundle.rekor = some entry)
    (hparse' : D.parseBundle bundleJson' = .ok { bundle with rekor := some entry' })
    (h : (v.verifyBundle clock manifest bundleJson anchor).1 = .ok catalogue) :
    verifyRekorEntry D key entry = .ok () ∧
    ((v.verifyBundle clock manifest bundleJson' anchor).1 = .ok catalogue ↔
      verifyRekorEntry D key entry' = .ok () ∧
      ∀ checkpoint, entry'.checkpoint = some checkpoint → anchor ≤ checkpoint.treeSize) := by
  obtain ⟨hm, hb, hr⟩ := (verifyBundle_entry_eq_ok hparse hentry).1 h
  refine ⟨(hr key hkey).1, ?_⟩
  have hb' : v.Checked clock manifest bundleJson' { bundle with rekor := some entry' } :=
    ⟨hparse', hb.artefact⟩
  rw [verifyBundle_entry_eq_ok hparse' rfl]
  simp [hm, hb', hkey, Admits]

open Sample in
theorem verifier_accepts_bare : (verifier.verifyBundle (fun _ => 50) emptyCatalogue
    (bundleJson (signedBundle "BF8=" (bare (entryA 3)))) 0).1.isOk = true := by
  decide +kernel

open Sample in
theorem parseBundle_signedBundle : ∀ entry ∈ [bare (entryA 3), bare entryC, entryA 3, entryA 4],
    logDeps.parseBundle (bundleJson (signedBundle "BF8=" entry)) =
      .ok (signedBundle "BF8=" entry) := by
  decide +kernel

open Sample in
theorem verifyRekorEntry_sample : ∀ entry ∈ [entryA 3, bare entryC],
    verifyRekorEntry logDeps [9] entry = .ok () := by
  decide +kernel

open Sample in
/-- The signed manifest is accepted with any entry that passes its checks. -/
theorem verifier_accepts_of_entry {entry : RekorEntry}
    (hparse : logDeps.parseBundle (bundleJson (signedBundle "BF8=" entry)) =
      .ok (signedBundle "BF8=" entry))
    (hentry : verifyRekorEntry logDeps [9] entry = .ok ()) :
    ∃ catalogue, (verifier.verifyBundle (fun _ => 50) emptyCatalogue
      (bundleJson (signedBundle "BF8=" entry)) 0).1 = .ok catalogue := by
  obtain ⟨catalogue, hacc⟩ := isOk_iff.1 verifier_accepts_bare
  have hbare := parseBundle_signedBundle (bare (entryA 3)) (by simp)
  obtain ⟨hm, hb, -⟩ := (verifyBundle_entry_eq_ok hbare rfl).1 hacc
  have hb' : verifier.Checked (fun _ => 50) emptyCatalogue (bundleJson (signedBundle "BF8=" entry))
      (signedBundle "BF8=" entry) := ⟨hparse, hb.artefact⟩
  refine ⟨catalogue, (verifyBundle_entry_eq_ok hparse rfl).2 ⟨hm, hb', ?_⟩⟩
  rintro _ ⟨⟩
  exact ⟨hentry, fun _ _ => Nat.zero_le _⟩

open Sample in
/-- The entry of the leaf `c` takes the place of the entry of the leaf `a`. -/
theorem verifyBundle_exchange_entry_bare : (verifier.verifyBundle (fun _ => 50) emptyCatalogue
    (bundleJson (signedBundle "BF8=" (bare entryC))) 0).1.isOk = true := by
  obtain ⟨catalogue, hacc⟩ := isOk_iff.1 verifier_accepts_bare
  have hexchange := verifyBundle_exchange_entry verifier (fun _ => 50) emptyCatalogue _
    (bundleJson (signedBundle "BF8=" (bare entryC))) 0 (signedBundle "BF8=" (bare (entryA 3))) [9]
    (bare (entryA 3)) (bare entryC) catalogue rfl (parseBundle_signedBundle _ (by simp)) rfl
    (parseBundle_signedBundle _ (by simp)) hacc
  exact isOk_iff.2 ⟨catalogue, hexchange.2.2 ⟨verifyRekorEntry_sample _ (by simp), nofun⟩⟩

open Sample in
/-- A bundle is accepted with the log entry of the one-byte body `a`, which records nothing of the
artefact. -/
theorem verifyBundle_accepts_unrelated_entry :
    ¬∀ (v : KeylessVerifier logDeps) (clock : Nat → Time) (manifest bundleJson : Bytes)
      (anchor : Nat) (catalogue : Catalogue) (bundle : KeylessBundle) (entry : RekorEntry)
      (cert : Certificate) (body signature certDer : Bytes),
      (v.verifyBundle clock manifest bundleJson anchor).1 = .ok catalogue →
      v.rekorKey.isSome = true → logDeps.parseBundle bundleJson = .ok bundle →
      bundle.rekor = some entry → parseLeafCert logDeps bundle.leafCertPem = .ok cert →
      logDeps.b64Decode (Str.trim entry.canonicalizedBody) = .ok body →
      logDeps.b64Decode (Str.trim bundle.signatureB64) = .ok signature →
      logDeps.certToDer cert = .ok certDer →
      RecordsArtefact logDeps body manifest signature certDer := by
  intro h
  obtain ⟨catalogue, hacc⟩ := isOk_iff.1 verifier_accepts_bare
  exact not_recordsArtefact (by decide) (by decide) (by decide +kernel)
    (h verifier _ _ _ 0 catalogue (signedBundle "BF8=" (bare (entryA 3))) (bare (entryA 3)) caLeaf
      [0x61] [4, 0x5f] _ hacc rfl (parseBundle_signedBundle _ (by simp)) rfl (by decide +kernel)
      (by decide +kernel) (by decide +kernel) rfl)

/-! ## The checkpoint and the inclusion proof -/

/-- The checkpoint and the proof name one root. -/
def RootsAgree (D : Deps Key Re) (checkpoint : RekorCheckpoint) (proof : RekorInclusionProof) :
    Prop :=
  ∃ root, D.b64Decode (Str.trim checkpoint.rootHashB64) = .ok root ∧
    D.hexDecode (Str.trim proof.rootHashHex) = .ok root

/-- What the log has signed is the entry: its SET and its checkpoint's note are signed under the
key, and the path of the proof climbs to the root that both name. Sizes are not compared. -/
structure Logged (D : Deps Key Re) (key : Key) (entry : RekorEntry) (proof : RekorInclusionProof)
    (checkpoint : RekorCheckpoint) : Prop where
  set : verifyRekorSet D key entry = .ok ()
  index : proof.logIndex = entry.logIndex
  included : Included D entry proof
  note : ∃ signature, D.b64Decode (Str.trim checkpoint.signatureB64) = .ok signature ∧
    D.verifySignature key signature (utf8 (signedMessage checkpoint)) = .ok ()
  roots : RootsAgree D checkpoint proof

theorem verifyRekorCheckpoint_eq_ok {key : Key} {checkpoint : RekorCheckpoint}
    {proof : RekorInclusionProof} :
    verifyRekorCheckpoint D key checkpoint (some proof.rootHashHex) = .ok () ↔
      (∃ signature, D.b64Decode (Str.trim checkpoint.signatureB64) = .ok signature ∧
        D.verifySignature key signature (utf8 (signedMessage checkpoint)) = .ok ()) ∧
      RootsAgree D checkpoint proof := by
  simp only [verifyRekorCheckpoint, bind_eq_ok, mapError_eq_ok, rejectIf_eq_ok, not_not, RootsAgree]
  constructor
  · rintro ⟨signature, hsignature, _, hnote, actual, hactual, expected, hexpected, rfl⟩
    exact ⟨⟨signature, hsignature, hnote⟩, actual, hactual, hexpected⟩
  · rintro ⟨⟨signature, hsignature, hnote⟩, root, hactual, hexpected⟩
    exact ⟨signature, hsignature, (), hnote, root, hactual, root, hexpected, rfl⟩

/-- An entry passes its checks at every declared size that fits its index and its path. -/
theorem verifyRekorEntry_iff_logged {key : Key} {entry : RekorEntry}
    (hproof : entry.inclusionProof = some proof)
    (hcheckpoint : entry.checkpoint = some checkpoint) :
    verifyRekorEntry D key entry = .ok () ↔
      Logged D key entry proof checkpoint ∧ SizeFits entry proof := by
  rw [verifyRekorEntry_eq_ok, hproof, hcheckpoint]
  simp only [Option.map_some, Option.some.injEq, forall_eq', verifyRekorInclusion_iff,
    verifyRekorCheckpoint_eq_ok]
  constructor
  · rintro ⟨hset, ⟨hindex, hincluded, hfits⟩, hnote, hroots⟩
    exact ⟨⟨hset, hindex, hincluded, hnote, hroots⟩, hfits⟩
  · rintro ⟨⟨hset, hindex, hincluded, hnote, hroots⟩, hfits⟩
    exact ⟨hset, ⟨hindex, hincluded, hfits⟩, hnote, hroots⟩

/-- The sizes of a bundle with nothing else wrong agree. Under a key a wrong size is found only if
it does not fit the index and the path, and with no key nothing of the entry is looked at. -/
def SizesSettled (v : KeylessVerifier D) (entry : RekorEntry) (proof : RekorInclusionProof)
    (checkpoint : RekorCheckpoint) : Prop :=
  match v.rekorKey with
  | some _ => checkpoint.treeSize = proof.treeSize ∨ ¬SizeFits entry proof
  | none => checkpoint.treeSize = proof.treeSize ∧ RootsAgree D checkpoint proof

/-- The checkpoint of an accepted bundle agrees with its inclusion proof exactly when the bundle
is one that has something else wrong, or that declares the signed size or one that does not fit its
index and path, and also the signed root when no key is pinned. -/
theorem verifyBundle_checkpoint_agrees_iff (v : KeylessVerifier D) (clock : Nat → Time)
    (manifest bundleJson : Bytes) (anchor : Nat) (bundle : KeylessBundle) (entry : RekorEntry)
    (proof : RekorInclusionProof) (checkpoint : RekorCheckpoint)
    (hparse : D.parseBundle bundleJson = .ok bundle) (hentry : bundle.rekor = some entry)
    (hproof : entry.inclusionProof = some proof)
    (hcheckpoint : entry.checkpoint = some checkpoint) :
    (∀ catalogue, (v.verifyBundle clock manifest bundleJson anchor).1 = .ok catalogue →
      checkpoint.treeSize = proof.treeSize ∧ RootsAgree D checkpoint proof ∧
      (v.rekorKey.isSome = true →
        (v.verifyBundle clock manifest bundleJson anchor).2 = max proof.treeSize anchor)) ↔
    ((∃ catalogue, D.parseCatalogue manifest = .ok catalogue) →
      v.Checked clock manifest bundleJson bundle →
      (∀ key, v.rekorKey = some key →
        Logged D key entry proof checkpoint ∧ anchor ≤ checkpoint.treeSize) →
      SizesSettled v entry proof checkpoint) := by
  have haccepted (catalogue : Catalogue) :
      (v.verifyBundle clock manifest bundleJson anchor).1 = .ok catalogue ↔
        D.parseCatalogue manifest = .ok catalogue ∧ v.Checked clock manifest bundleJson bundle ∧
        ∀ key, v.rekorKey = some key → verifyRekorEntry D key entry = .ok () ∧
          Admits anchor (entry.checkpoint.map (·.treeSize)) :=
    verifyBundle_entry_eq_ok hparse hentry
  simp only [hcheckpoint, Option.map_some, admits_some,
    verifyRekorEntry_iff_logged hproof hcheckpoint] at haccepted
  unfold SizesSettled
  cases hkey : v.rekorKey with
  | none =>
    simp only [hkey] at haccepted ⊢
    constructor
    · rintro h ⟨catalogue, hm⟩ hb -
      obtain ⟨hsize, hroots, -⟩ :=
        h catalogue ((haccepted catalogue).2 ⟨hm, hb, fun _ hsome => by cases hsome⟩)
      exact ⟨hsize, hroots⟩
    · intro h catalogue hacc
      obtain ⟨hm, hb, -⟩ := (haccepted catalogue).1 hacc
      obtain ⟨hsize, hroots⟩ := h ⟨catalogue, hm⟩ hb fun _ hsome => by cases hsome
      exact ⟨hsize, hroots, fun hsome => by cases hsome⟩
  | some key =>
    simp only [hkey, Option.some.injEq, forall_eq'] at haccepted ⊢
    constructor
    · rintro h ⟨catalogue, hm⟩ hb ⟨hlogged, hle⟩
      rw [or_iff_not_imp_right, not_not]
      intro hfits
      exact (h catalogue ((haccepted catalogue).2 ⟨hm, hb, ⟨hlogged, hfits⟩, hle⟩)).1
    · intro h catalogue hacc
      obtain ⟨hm, hb, ⟨hlogged, hfits⟩, hle⟩ := (haccepted catalogue).1 hacc
      have hsize := (h ⟨catalogue, hm⟩ hb ⟨hlogged, hle⟩).resolve_right (not_not_intro hfits)
      refine ⟨hsize, hlogged.roots, fun _ => ?_⟩
      rw [← hsize]
      exact verifyBundle_anchor hparse hentry hcheckpoint hkey hacc

open Sample in
/-- The index `0` has two sides in the trees of three and of four entries. -/
theorem verifyRekorEntry_entryA_of_four : verifyRekorEntry logDeps [9] (entryA 4) = .ok () := by
  have hlogged : Logged logDeps [9] (entryA 3) ⟨[hexB, hexC], 3, 0, hexABC⟩ logCheckpoint :=
    ((verifyRekorEntry_iff_logged rfl rfl).1 (verifyRekorEntry_sample _ (by simp))).1
  have hfits : SizeFits (entryA 4) ⟨[hexB, hexC], 4, 0, hexABC⟩ :=
    ⟨Nat.zero_lt_succ 3, by simp [entryA, Merkle.sides]⟩
  have hproof : (entryA 4).inclusionProof = some ⟨[hexB, hexC], 4, 0, hexABC⟩ := rfl
  exact (verifyRekorEntry_iff_logged hproof rfl).2
    ⟨⟨hlogged.set, hlogged.index, hlogged.included, hlogged.note, hlogged.roots⟩, hfits⟩

open Sample in
/-- A proof that declares the signed size. -/
theorem verifyBundle_checkpoint_agrees_entryA :
    RootsAgree logDeps logCheckpoint ⟨[hexB, hexC], 3, 0, hexABC⟩ ∧
    (verifier.verifyBundle (fun _ => 50) emptyCatalogue
      (bundleJson (signedBundle "BF8=" (entryA 3))) 0).2 = 3 := by
  have hparse := parseBundle_signedBundle (entryA 3) (by simp)
  obtain ⟨catalogue, hacc⟩ :=
    verifier_accepts_of_entry hparse (verifyRekorEntry_sample _ (by simp))
  have hagree := (verifyBundle_checkpoint_agrees_iff verifier (fun _ => 50) emptyCatalogue
    (bundleJson (signedBundle "BF8=" (entryA 3))) 0 (signedBundle "BF8=" (entryA 3)) (entryA 3) _
    logCheckpoint hparse rfl rfl rfl).2 (fun _ _ _ => .inl rfl) catalogue hacc
  exact ⟨hagree.2.1, hagree.2.2 rfl⟩

open Sample in
/-- A proof that declares four entries under a checkpoint of three. The index `0` has the same
sides in both trees, so the path climbs to the signed root. -/
theorem verifyBundle_accepts_other_size :
    ¬∀ (v : KeylessVerifier logDeps) (clock : Nat → Time) (manifest bundleJson : Bytes)
      (anchor : Nat) (catalogue : Catalogue) (bundle : KeylessBundle) (entry : RekorEntry)
      (proof : RekorInclusionProof) (checkpoint : RekorCheckpoint),
      (v.verifyBundle clock manifest bundleJson anchor).1 = .ok catalogue →
      v.rekorKey.isSome = true → logDeps.parseBundle bundleJson = .ok bundle →
      bundle.rekor = some entry → entry.inclusionProof = some proof →
      entry.checkpoint = some checkpoint →
      checkpoint.treeSize = proof.treeSize ∧ RootsAgree logDeps checkpoint proof := by
  intro h
  have hparse := parseBundle_signedBundle (entryA 4) (by simp)
  obtain ⟨catalogue, hacc⟩ := verifier_accepts_of_entry hparse verifyRekorEntry_entryA_of_four
  have hsize := (h verifier _ _ _ 0 catalogue (signedBundle "BF8=" (entryA 4)) (entryA 4) _ _
    hacc rfl hparse rfl rfl rfl).1
  exact absurd hsize (by decide)

/-! ## The anchor and the errors -/

/-- A failed `verify_bundle` leaves the anchor as it was exactly when the manifest is a catalogue,
or a check before it fails, or the anchor is not below the checkpoint's tree size. -/
theorem verifyBundle_error_keeps_anchor_iff (v : KeylessVerifier D) (clock : Nat → Time)
    (manifest bundleJson : Bytes) (anchor : Nat) :
    (∀ e, (v.verifyBundle clock manifest bundleJson anchor).1 = .error e →
      (v.verifyBundle clock manifest bundleJson anchor).2 = anchor) ↔
    ∀ bundle key entry checkpoint, v.Checked clock manifest bundleJson bundle →
      v.rekorKey = some key → bundle.rekor = some entry →
      entry.checkpoint = some checkpoint → verifyRekorEntry D key entry = .ok () →
      anchor < checkpoint.treeSize → ∃ catalogue, D.parseCatalogue manifest = .ok catalogue := by
  constructor
  · intro h bundle key entry checkpoint hb hkey hentry hcheckpoint he hlt
    have ho : v.checkBundle clock manifest bundleJson = .ok (some checkpoint.treeSize) :=
      checkBundle_eq_ok.2 ⟨bundle, hb, verifyRekor_eq_some.2
        ⟨key, entry, checkpoint, hkey, hentry, hcheckpoint, he, rfl⟩⟩
    have ha : Admits anchor (some checkpoint.treeSize) := admits_some.2 hlt.le
    have hrun := verifyBundle_of_admits ho ha
    cases hm : D.parseCatalogue manifest with
    | ok catalogue => exact ⟨catalogue, rfl⟩
    | error e =>
      have hkept := h (invalid "sigstore: catalogue parse" e) (by
        rw [hrun]
        simp [parseManifest, hm, Except.mapError])
      rw [hrun] at hkept
      exact absurd hkept (by simpa using hlt)
  · intro h e herr
    by_cases hrun : ∃ o, v.checkBundle clock manifest bundleJson = .ok o ∧ Admits anchor o
    · obtain ⟨o, ho, ha⟩ := hrun
      rw [verifyBundle_of_admits ho ha] at herr ⊢
      obtain ⟨bundle, hb, hr⟩ := checkBundle_eq_ok.1 ho
      cases o with
      | none => exact Nat.zero_max anchor
      | some treeSize =>
        obtain ⟨key, entry, checkpoint, hkey, hentry, hcheckpoint, he, rfl⟩ :=
          verifyRekor_eq_some.1 hr
        rcases Nat.lt_or_ge anchor checkpoint.treeSize with hlt | hle
        · obtain ⟨catalogue, hm⟩ := h bundle key entry checkpoint hb hkey hentry hcheckpoint he hlt
          simp [parseManifest, hm, Except.mapError] at herr
        · exact Nat.max_eq_right hle
    · obtain ⟨_, hkept⟩ := verifyBundle_of_not_admits hrun
      rw [hkept]

open Sample in
/-- A signed manifest that is no catalogue is rejected, and moves the anchor from 0 to 3. -/
theorem verifyBundle_error_moves_anchor :
    ¬∀ (v : KeylessVerifier logDeps) (clock : Nat → Time) (manifest bundleJson : Bytes)
      (anchor : Nat) (e : TakoError),
      (v.verifyBundle clock manifest bundleJson anchor).1 = .error e →
      (v.verifyBundle clock manifest bundleJson anchor).2 = anchor := by
  intro h
  have hrejected : (verifier.verifyBundle (fun _ => 50) notCatalogue
      (bundleJson (signedBundle "BLg=" { entryA 3 with inclusionProof := none })) 0).1.isOk =
        false := by
    decide +kernel
  obtain ⟨e, he⟩ := isOk_eq_false_iff.1 hrejected
  exact absurd (h _ _ _ _ _ e he) (by decide +kernel)

end Tako.Sigstore
