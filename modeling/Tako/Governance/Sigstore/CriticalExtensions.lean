import Tako.Governance.Sigstore.Acceptance
import Tako.Governance.Sigstore.ChainTrust

/-!
# Critical extensions of an accepted chain

Every issuer that the walk selects is checked for critical extensions, and so is a leaf that is a
pinned root itself; another leaf is not. An issuer has to be a CA by its basic constraints. A key
usage is recognised, and what it allows is not read.
-/

namespace Tako.Sigstore

open Except

variable {Key Re : Type} {D : Deps Key Re}

/-- The issuers on the path that the walk from `leaf` takes. -/
inductive Selects (supplied : List Certificate) (trustRoot : TrustRoot D) :
    Certificate → Certificate → Prop
  | here : leaf.subject ≠ leaf.issuer →
    selectIssuer D supplied trustRoot leaf.issuer = some issuer →
      Selects supplied trustRoot leaf issuer
  | above : leaf.subject ≠ leaf.issuer →
    selectIssuer D supplied trustRoot leaf.issuer = some next → ¬isPinned D trustRoot next = true →
    Selects supplied trustRoot next issuer → Selects supplied trustRoot leaf issuer

variable {supplied : List Certificate} {trustRoot : TrustRoot D}

/-- Every issuer on an accepted path passed the checks of an issuer. -/
theorem selects_checked (hs : Selects supplied trustRoot current issuer)
    (h : chainWalk D supplied trustRoot fuel clock below current = .ok ()) :
    CriticalKnown issuer ∧ IsCa D issuer := by
  induction hs generalizing fuel clock below with
  | here hne hsel =>
    cases fuel with
    | zero => simp [chainWalk] at h
    | succ fuel =>
      rcases chainWalk_succ_eq_ok.1 h with ⟨-, hself | ⟨-, issuer, hsel', hissues, -⟩⟩
      · exact absurd hself.selfIssued hne
      · obtain rfl := Option.some.inj (hsel.symm.trans hsel')
        obtain ⟨critical, bc, hget, hca, -⟩ := hissues.ca
        exact ⟨hissues.critical, critical, bc, hget, hca⟩
  | above hne hsel hpin _ ih =>
    cases fuel with
    | zero => simp [chainWalk] at h
    | succ fuel =>
      rcases chainWalk_succ_eq_ok.1 h with ⟨-, hself | ⟨-, issuer, hsel', -, hnext⟩⟩
      · exact absurd hself.selfIssued hne
      · obtain rfl := Option.some.inj (hsel.symm.trans hsel')
        rw [if_neg hpin] at hnext
        exact ih hnext

/-- An accepted path begins with a pinned root, or leads to one. -/
theorem chainWalk_pinned
    (h : chainWalk D supplied trustRoot fuel clock below current = .ok ()) :
    PinnedSelfSigned D trustRoot current ∨
      ∃ root, Selects supplied trustRoot current root ∧ isPinned D trustRoot root = true := by
  induction fuel generalizing clock below current with
  | zero => simp [chainWalk] at h
  | succ fuel ih =>
    rcases chainWalk_succ_eq_ok.1 h with ⟨-, hself | ⟨hne, issuer, hsel, -, hnext⟩⟩
    · exact .inl hself
    refine .inr ?_
    split at hnext
    next hpin => exact ⟨issuer, .here hne hsel, hpin⟩
    next hpin =>
      rcases ih hnext with hself | ⟨root, hroot, hrootPin⟩
      · exact absurd hself.pinned hpin
      · exact ⟨root, .above hne hsel hpin hroot, hrootPin⟩

/-- The certificates that a bundle supplies for its chain. -/
def KeylessBundle.suppliedChain (D : Deps Key Re) (bundle : KeylessBundle) :
    Result (List Certificate) :=
  match bundle.chainPem with
  | some s => parsePemText D s
  | none => .ok []

/-- What an accepted bundle comes from. -/
structure Accepts (v : KeylessVerifier D) (clock : Nat → Time) (manifest bundleJson : Bytes)
    (anchor : Nat) (trustRoot : TrustRoot D) (leaf : Certificate) (supplied : List Certificate) :
    Prop where
  pinned : v.trustRoot = some trustRoot
  accepted : ∃ catalogue, (v.verifyBundle clock manifest bundleJson anchor).1 = .ok catalogue
  parsed : ∃ bundle, D.parseBundle bundleJson = .ok bundle ∧
    parseLeafCert D bundle.leafCertPem = .ok leaf ∧ bundle.suppliedChain D = .ok supplied

theorem Accepts.verified {v : KeylessVerifier D} {leaf : Certificate}
    (h : Accepts v clock manifest bundleJson anchor trustRoot leaf supplied) :
    verifyChain D (fun n => clock (n + 1)) leaf supplied trustRoot = .ok () := by
  obtain ⟨catalogue, hcatalogue⟩ := h.accepted
  obtain ⟨-, o, ho, -⟩ := verifyBundle_eq_ok.1 hcatalogue
  obtain ⟨bundle, hchecked, -⟩ := checkBundle_eq_ok.1 ho
  obtain ⟨bundle', hbundle, hleaf, hsupplied⟩ := h.parsed
  obtain rfl := Except.ok.inj (hchecked.parsed.symm.trans hbundle)
  obtain ⟨cert, hcert, -, hchain⟩ := hchecked.artefact
  obtain rfl := Except.ok.inj (hcert.symm.trans hleaf)
  unfold KeylessBundle.suppliedChain at hsupplied
  simp only [KeylessVerifier.verifyPinnedChain, h.pinned] at hchain
  cases hpem : bundle.chainPem with
  | none =>
    rw [hpem] at hsupplied hchain
    obtain rfl := Except.ok.inj hsupplied
    exact hchain
  | some pem =>
    rw [hpem] at hsupplied hchain
    obtain ⟨certs, hcerts, hchain⟩ := bind_eq_ok.1 hchain
    obtain rfl := Except.ok.inj (hsupplied.symm.trans hcerts)
    exact hchain

/-- On the path that accepted a bundle no issuer has a critical extension that is not recognised,
and each one is a CA. A leaf that is its own issuer is a pinned root, and the same holds of it. -/
theorem accepted_critical_known (v : KeylessVerifier D) (clock : Nat → Time)
    (manifest bundleJson : Bytes) (anchor : Nat) (trustRoot : TrustRoot D) (leaf : Certificate)
    (supplied : List Certificate)
    (h : Accepts v clock manifest bundleJson anchor trustRoot leaf supplied) :
    (∀ issuer, Selects supplied trustRoot leaf issuer → CriticalKnown issuer ∧ IsCa D issuer) ∧
      (PinnedSelfSigned D trustRoot leaf ∨
        ∃ root, Selects supplied trustRoot leaf root ∧ isPinned D trustRoot root = true) :=
  ⟨fun _ hs => selects_checked hs h.verified, chainWalk_pinned h.verified⟩

/-! ## A leaf and a root that are accepted -/

/-- DER of a `KeyUsage` with `keyCertSign`, the sixth bit. -/
def keyCertSign : Bytes → Bool
  | 0x03 :: _ :: _ :: bits :: _ => bits &&& 0x04 ≠ 0
  | _ => false

/-- The certificate's key usage, if there is one, allows it to issue. -/
def KeyUsageSigns (cert : Certificate) : Prop :=
  ∀ exts, cert.extensions = some exts → ∀ ext ∈ exts, ext.extnId = "2.5.29.15" →
    keyCertSign ext.extnValue = true

namespace Sample

/-- A certificate with one more extension, signed again. -/
def extend (c : Certificate) (ext : Extension) (issuerKey : Bytes) : Certificate :=
  let c := { c with extensions := some (c.extensions.getD [] ++ [ext]) }
  { c with signature := sign issuerKey (tbs c) }

/-- A leaf with a critical extension that nobody knows. -/
def strangeLeaf : Certificate := extend rootLeaf ⟨"1.2.3.4", true, []⟩ [1]

/-- A root whose key is for digital signatures only. -/
def signingRoot : Certificate := extend oldRoot ⟨"2.5.29.15", true, [0x03, 0x02, 0x07, 0x80]⟩ [1]

def strangeBundle : KeylessBundle := { leafCertPem := "leaf.pem", signatureB64 := "BF8=" }

def strangeDeps : Deps Bytes (Regex.Pat Char) := deps
  { bundles := [strangeBundle]
    catalogues := [(emptyCatalogue, ⟨none, []⟩)]
    certs := [("leaf.pem", strangeLeaf), ("root.pem", signingRoot)] }

def strangeStore : TrustRoot strangeDeps where
  roots := [signingRoot]
  intermediates := []
  decoded c hc := by
    obtain rfl := List.mem_singleton.1 hc
    exact ⟨"root.pem", by decide +kernel⟩

def strangeVerifier : KeylessVerifier strangeDeps where
  identity := .exact "https://idp" "https://ops"
  trustRoot := some strangeStore

theorem strange_accepted : Accepts strangeVerifier (fun _ => 50) emptyCatalogue
    (bundleJson strangeBundle) 0 strangeStore strangeLeaf [] where
  pinned := rfl
  accepted := isOk_iff.1 (by decide +kernel)
  parsed := ⟨strangeBundle, by decide +kernel, by decide +kernel, rfl⟩

theorem strange_selects : Selects [] strangeStore strangeLeaf signingRoot :=
  .here (by decide) (by decide +kernel)

theorem strange_critical_known : CriticalKnown signingRoot ∧ IsCa strangeDeps signingRoot :=
  (accepted_critical_known strangeVerifier (fun _ => 50) emptyCatalogue (bundleJson strangeBundle) 0
    strangeStore strangeLeaf [] strange_accepted).1 signingRoot strange_selects

/-- Neither the leaf's critical extensions nor an issuer's key usage keeps a bundle from being
accepted. -/
theorem strange_extensions_accepted :
    (¬ ∀ (v : KeylessVerifier strangeDeps) clock manifest json anchor trustRoot leaf supplied,
      Accepts v clock manifest json anchor trustRoot leaf supplied → CriticalKnown leaf) ∧
    ¬ ∀ (v : KeylessVerifier strangeDeps) clock manifest json anchor trustRoot leaf supplied,
      Accepts v clock manifest json anchor trustRoot leaf supplied →
      ∀ issuer, Selects supplied trustRoot leaf issuer → KeyUsageSigns issuer := by
  constructor
  · intro hall
    have hknown := hall _ _ _ _ _ _ _ _ strange_accepted _ rfl ⟨"1.2.3.4", true, []⟩
      (by decide +kernel) rfl
    exact absurd hknown (by decide)
  · intro hall
    have hsigns := hall _ _ _ _ _ _ _ _ strange_accepted _ strange_selects _ rfl
      ⟨"2.5.29.15", true, [0x03, 0x02, 0x07, 0x80]⟩ (by decide +kernel) rfl
    exact absurd hsigns (by decide)

end Sample

end Tako.Sigstore
