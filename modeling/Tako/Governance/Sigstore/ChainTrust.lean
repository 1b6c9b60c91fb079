import Tako.Governance.Sigstore.Chain
import Tako.Governance.Sigstore.Sample

/-!
# What an accepted chain proves

`CertPath` is the meaning of acceptance: a path of certificates from the leaf to a pinned root in
which each is signed by the next, is inside its validity window and, above the leaf, is a CA
whose path length admits the intermediates below it. `chainWalk_succ_eq_ok` says what one hop
does; soundness and the effect of a larger trust store are inductions on the hops.
-/

namespace Tako.Sigstore

open Except

variable {Key Re : Type} (D : Deps Key Re)

/-! ## The checks as predicates -/

/-- The issuer's key verifies the child's signature over its `tbs_certificate`. -/
def SignedBy (child issuer : Certificate) : Prop :=
  ∃ scheme spki key tbs, chainSigningScheme child issuer = .ok scheme ∧
    D.spkiToDer issuer = .ok spki ∧ D.keyFromDer spki scheme = .ok key ∧
    D.tbsToDer child = .ok tbs ∧ D.verifySignature key child.signature tbs = .ok ()

def InWindow (now : Time) (cert : Certificate) : Prop := cert.notBefore ≤ now ∧ now ≤ cert.notAfter

/-- The certificate says that it is a CA, with room for `below` intermediates under it. -/
def IsCaFor (below : Nat) (cert : Certificate) : Prop :=
  ∃ critical bc, D.getBasicConstraints cert = .ok (some (critical, bc)) ∧ bc.ca = true ∧
    ∀ budget, bc.pathLenConstraint = some budget → below ≤ budget

def IsCa (cert : Certificate) : Prop :=
  ∃ critical bc, D.getBasicConstraints cert = .ok (some (critical, bc)) ∧ bc.ca = true

/-- No extension of the certificate is critical and unrecognised. -/
def CriticalKnown (cert : Certificate) : Prop :=
  ∀ exts, cert.extensions = some exts → ∀ ext ∈ exts, ext.critical = true →
    ext.extnId ∈ recognisedExtensions

@[simp] theorem checkValidityNow_eq_ok {u : Unit} :
    checkValidityNow D now cert = .ok u ↔ InWindow now cert := by
  simp [checkValidityNow, bind_eq_ok, InWindow]

@[simp] theorem verifyOneSignature_eq_ok {u : Unit} :
    verifyOneSignature D child issuer = .ok u ↔ SignedBy D child issuer := by
  simp only [verifyOneSignature, bind_eq_ok, mapError_eq_ok, SignedBy]
  constructor
  · rintro ⟨scheme, hs, spki, hspki, key, hkey, tbs, htbs, h⟩
    exact ⟨scheme, spki, key, tbs, hs, hspki, hkey, htbs, h⟩
  · rintro ⟨scheme, spki, key, tbs, hs, hspki, hkey, htbs, h⟩
    exact ⟨scheme, hs, spki, hspki, key, hkey, tbs, htbs, h⟩

@[simp] theorem checkCriticalExtensionsKnown_eq_ok {u : Unit} :
    checkCriticalExtensionsKnown cert = .ok u ↔ CriticalKnown cert := by
  unfold checkCriticalExtensionsKnown CriticalKnown
  cases cert.extensions with
  | none => simp
  | some exts => simp [forM_eq_ok]

theorem checkIssuerIsCa_eq_ok :
    checkIssuerIsCa D cert = .ok bc ↔
      bc.ca = true ∧ ∃ critical, D.getBasicConstraints cert = .ok (some (critical, bc)) := by
  simp only [checkIssuerIsCa, bind_eq_ok, mapError_eq_ok]
  constructor
  · rintro ⟨_ | ⟨critical, bc'⟩, hget, h⟩
    · contradiction
    · simp only [bind_eq_ok, rejectIf_eq_ok, Except.ok.injEq] at h
      obtain ⟨-, hca, rfl⟩ := h
      exact ⟨by simpa using hca, critical, hget⟩
  · rintro ⟨hca, critical, hget⟩
    exact ⟨_, hget, by simp [bind_eq_ok, hca]⟩

@[simp] theorem checkPathLen_eq_ok {bc : BasicConstraints} {u : Unit} :
    checkPathLen bc below = .ok u ↔
      ∀ budget, bc.pathLenConstraint = some budget → below ≤ budget := by
  unfold checkPathLen
  cases bc.pathLenConstraint <;> simp

/-- What the walk checks when it goes from `child` to `issuer`. -/
structure Issues (below : Nat) (issuer child : Certificate) : Prop where
  signed : SignedBy D child issuer
  ca : IsCaFor D below issuer
  critical : CriticalKnown issuer

/-- A pinned root whose signature verifies under its own key. -/
structure PinnedSelfSigned (trustRoot : TrustRoot D) (cert : Certificate) : Prop where
  selfIssued : cert.subject = cert.issuer
  pinned : isPinned D trustRoot cert = true
  signed : SignedBy D cert cert
  ca : IsCa D cert
  critical : CriticalKnown cert

/-! ## One hop -/

variable {D} {supplied : List Certificate} {trustRoot : TrustRoot D}

/-- One hop of an accepted walk ends at a pinned self-signed certificate, ends at a pinned
issuer, or goes on from an issuer that is not pinned. -/
theorem chainWalk_succ_eq_ok :
    chainWalk D supplied trustRoot (fuel + 1) clock below current = .ok () ↔
      InWindow (clock 0) current ∧
      (PinnedSelfSigned D trustRoot current ∨
        current.subject ≠ current.issuer ∧
        ∃ issuer, selectIssuer D supplied trustRoot current.issuer = some issuer ∧
          Issues D below issuer current ∧
          if isPinned D trustRoot issuer then InWindow (clock 1) issuer
          else chainWalk D supplied trustRoot fuel (fun n => clock (n + 1)) (below + 1) issuer =
            .ok ()) := by
  rw [chainWalk]
  simp only [bind_eq_ok, checkValidityNow_eq_ok, exists_const]
  apply and_congr_right
  intro _
  by_cases hself : current.subject = current.issuer
  · rw [if_pos hself]
    split
    · next hpin =>
      simp only [bind_eq_ok, verifyOneSignature_eq_ok, checkIssuerIsCa_eq_ok,
        checkCriticalExtensionsKnown_eq_ok, exists_const, hself, ne_eq, not_true_eq_false,
        false_and, or_false]
      constructor
      · rintro ⟨hs, bc, ⟨hca, critical, hget⟩, hcrit⟩
        exact ⟨hself, hpin, hs, ⟨critical, bc, hget, hca⟩, hcrit⟩
      · rintro ⟨-, -, hs, ⟨critical, bc, hget, hca⟩, hcrit⟩
        exact ⟨hs, bc, ⟨hca, critical, hget⟩, hcrit⟩
    · next hpin =>
      apply iff_of_false (by simp)
      rintro (h | h)
      · exact hpin h.pinned
      · exact h.1 hself
  · rw [if_neg hself]
    have hno : ¬PinnedSelfSigned D trustRoot current := fun h => hself h.selfIssued
    simp only [hno, false_or, ne_eq, hself, not_false_eq_true, true_and]
    cases selectIssuer D supplied trustRoot current.issuer with
    | none => simp
    | some issuer =>
      simp only [bind_eq_ok, verifyOneSignature_eq_ok, checkIssuerIsCa_eq_ok,
        checkCriticalExtensionsKnown_eq_ok, checkPathLen_eq_ok, exists_const, Option.some.injEq,
        exists_eq_left']
      constructor
      · rintro ⟨hs, bc, ⟨hca, critical, hget⟩, hcrit, hlen, h⟩
        refine ⟨⟨hs, ⟨critical, bc, hget, hca, hlen⟩, hcrit⟩, ?_⟩
        split at h <;> simp_all
      · rintro ⟨⟨hs, ⟨critical, bc, hget, hca, hlen⟩, hcrit⟩, h⟩
        refine ⟨hs, bc, ⟨hca, critical, hget⟩, hcrit, hlen, ?_⟩
        split <;> simp_all

theorem selectIssuer_mem (h : selectIssuer D supplied trustRoot name = some issuer) :
    issuer ∈ supplied ∨ issuer ∈ trustRoot.intermediates ∨ issuer ∈ trustRoot.roots := by
  rw [selectIssuer, Option.or_eq_some_iff, Option.or_eq_some_iff] at h
  rcases h with h | ⟨-, h | ⟨-, h⟩⟩
  · exact .inl (List.mem_of_find?_eq_some h)
  · exact .inr (.inl (List.mem_of_find?_eq_some h))
  · exact .inr (.inr (List.mem_of_find?_eq_some h))

/-! ## Soundness -/

/-- A certification path `c 0, …, c k` with `below` intermediates already under it: each
certificate is signed by the next one, which is a CA with room for the intermediates under it.
The certificate at `i` is inside its window at reading `i` of the clock. The inner certificates
come from the supplied or the pinned intermediates, and the last one is a pinned root. -/
structure CertPath (clock : Nat → Time) (supplied : List Certificate) (trustRoot : TrustRoot D)
    (below k : Nat) (c : Nat → Certificate) : Prop where
  issues : ∀ i < k, Issues D (below + i) (c (i + 1)) (c i)
  window : ∀ i ≤ k, InWindow (clock i) (c i)
  inner : ∀ i, 0 < i → i < k → c i ∈ supplied ∨ c i ∈ trustRoot.intermediates
  root : isPinned D trustRoot (c k) = true

/-- A path of one step to a pinned issuer. -/
theorem CertPath.single (hi : Issues D below issuer current)
    (h0 : InWindow (clock 0) current) (h1 : InWindow (clock 1) issuer)
    (hp : isPinned D trustRoot issuer = true) :
    CertPath clock supplied trustRoot below 1 (fun n => if n = 0 then current else issuer) where
  issues i hlt := by
    obtain rfl := Nat.lt_one_iff.1 hlt
    exact hi
  window i hle := by
    rcases Nat.le_one_iff_eq_zero_or_eq_one.1 hle with rfl | rfl
    · exact h0
    · exact h1
  inner i h0 h1 := absurd h1 (Nat.not_lt.2 h0)
  root := hp

/-- A path from an intermediate, with one more certificate below it. -/
theorem CertPath.cons (hi : Issues D below (c 0) current) (h0 : InWindow (clock 0) current)
    (hm : c 0 ∈ supplied ∨ c 0 ∈ trustRoot.intermediates)
    (hpath : CertPath (fun n => clock (n + 1)) supplied trustRoot (below + 1) k c) :
    CertPath clock supplied trustRoot below (k + 1)
      (fun | 0 => current | n + 1 => c n) where
  issues i hlt := by
    cases i with
    | zero => exact hi
    | succ i => simpa [Nat.add_assoc, Nat.add_comm 1] using hpath.issues i (Nat.lt_of_succ_lt_succ hlt)
  window i hle := by
    cases i with
    | zero => exact h0
    | succ i => exact hpath.window i (Nat.le_of_succ_le_succ hle)
  inner i h0 hlt := by
    match i with
    | 1 => exact hm
    | i + 2 => exact hpath.inner (i + 1) i.succ_pos (Nat.lt_of_succ_lt_succ hlt)
  root := hpath.root

section
variable (hreencode : ∀ pem c, D.certFromPem pem = .ok c → ∃ der, D.certToDer c = .ok der)
include hreencode

/-- Every root of the trust store is pinned, as its encoding succeeds. -/
theorem isPinned_of_mem (h : cert ∈ trustRoot.roots) : isPinned D trustRoot cert = true := by
  obtain ⟨pem, hpem⟩ := trustRoot.decoded cert (List.mem_append_left _ h)
  obtain ⟨der, hder⟩ := hreencode pem cert hpem
  exact List.any_eq_true.2 ⟨cert, h, by simp [certEq, hder]⟩

theorem chainWalk_sound
    (h : chainWalk D supplied trustRoot fuel clock below current = .ok ()) :
    PinnedSelfSigned D trustRoot current ∨
      ∃ k c, 1 ≤ k ∧ k ≤ fuel ∧ c 0 = current ∧ CertPath clock supplied trustRoot below k c := by
  induction fuel generalizing clock below current with
  | zero => simp [chainWalk] at h
  | succ fuel ih =>
    rcases chainWalk_succ_eq_ok.1 h with ⟨h0, hself | ⟨-, issuer, hsel, hiss, hnext⟩⟩
    · exact .inl hself
    right
    split at hnext
    · next hpin =>
      exact ⟨1, _, Nat.le_refl _, Nat.succ_pos _, rfl, .single hiss h0 hnext hpin⟩
    · next hpin =>
      -- a certificate that is not pinned is no root, so the walk goes on from an intermediate
      have hmem : issuer ∈ supplied ∨ issuer ∈ trustRoot.intermediates := by
        rcases selectIssuer_mem hsel with hm | hm | hm
        · exact .inl hm
        · exact .inr hm
        · exact absurd (isPinned_of_mem hreencode hm) hpin
      rcases ih hnext with hself | ⟨k, c, hk, hkf, rfl, hpath⟩
      · exact absurd hself.pinned hpin
      · exact ⟨k + 1, _, Nat.succ_pos _, Nat.succ_le_succ hkf, rfl, hpath.cons hiss h0 hmem⟩

end

/-! ## Errors -/

variable (D)

theorem checkValidityNow_failsInvalid : FailsInvalid (checkValidityNow D now cert) :=
  .bind (.rejectIf _ _) fun _ => .rejectIf _ _

theorem verifyOneSignature_failsInvalid : FailsInvalid (verifyOneSignature D child issuer) := by
  refine .bind ?_ fun _ => .bind (.mapError _ _) fun _ => .bind (.mapError _ _) fun _ =>
    .bind (.mapError _ _) fun _ => .mapError _ _
  unfold chainSigningScheme schemeFor
  split
  · exact .ok _
  split
  · exact .ok _
  split
  · exact .ok _
  · exact .invalid _

theorem checkIssuerIsCa_failsInvalid : FailsInvalid (checkIssuerIsCa D issuer) := by
  refine .bind (.mapError _ _) fun bcPair => ?_
  split
  · exact .invalid _
  · exact .bind (.rejectIf _ _) fun _ => .ok _

theorem checkCriticalExtensionsKnown_failsInvalid :
    FailsInvalid (checkCriticalExtensionsKnown cert) := by
  unfold checkCriticalExtensionsKnown
  split
  · exact .ok _
  · intro e h
    obtain ⟨ext, -, h⟩ := forM_eq_error h
    exact FailsInvalid.rejectIf _ _ e h

theorem checkPathLen_failsInvalid {bc : BasicConstraints} : FailsInvalid (checkPathLen bc below) := by
  unfold checkPathLen
  split
  · exact .ok _
  · exact .rejectIf _ _

theorem chainWalk_failsInvalid :
    FailsInvalid (chainWalk D supplied trustRoot fuel clock below current) := by
  induction fuel generalizing clock below current with
  | zero => exact .invalid _
  | succ fuel ih =>
    rw [chainWalk]
    refine .bind (checkValidityNow_failsInvalid D) fun _ => ?_
    split
    · split
      · exact .bind (verifyOneSignature_failsInvalid D) fun _ =>
          .bind (checkIssuerIsCa_failsInvalid D) fun _ =>
            checkCriticalExtensionsKnown_failsInvalid
      · exact .invalid _
    split
    · exact .invalid _
    · refine .bind (verifyOneSignature_failsInvalid D) fun _ =>
        .bind (checkIssuerIsCa_failsInvalid D) fun _ =>
          .bind checkCriticalExtensionsKnown_failsInvalid fun _ =>
            .bind checkPathLen_failsInvalid fun _ => ?_
      split
      · exact checkValidityNow_failsInvalid D
      · exact ih

/-! ## The chain theorem -/

/-- An accepted leaf is a pinned self-signed CA, or it is joined to a pinned root by a
certification path of at most sixteen issuers. A rejected one gets an `Invalid` error, whatever
the graph of issuers is. -/
theorem verifyChain_sound
    (hreencode : ∀ pem c, D.certFromPem pem = .ok c → ∃ der, D.certToDer c = .ok der)
    (clock : Nat → Time) (leaf : Certificate) (supplied : List Certificate)
    (trustRoot : TrustRoot D) :
    (verifyChain D clock leaf supplied trustRoot = .ok () →
      PinnedSelfSigned D trustRoot leaf ∧ InWindow (clock 0) leaf ∨
      ∃ k c, 1 ≤ k ∧ k ≤ 16 ∧ c 0 = leaf ∧ CertPath clock supplied trustRoot 0 k c) ∧
    (verifyChain D clock leaf supplied trustRoot = .ok () ∨
      ∃ m, verifyChain D clock leaf supplied trustRoot = .error (.invalid m)) := by
  refine ⟨fun h => ?_, ?_⟩
  · rcases chainWalk_sound hreencode h with hself | hpath
    · exact .inl ⟨hself, (chainWalk_succ_eq_ok.1 h).1⟩
    · exact .inr hpath
  · cases h : verifyChain D clock leaf supplied trustRoot with
    | ok => exact .inl rfl
    | error e =>
      obtain ⟨m, rfl⟩ := chainWalk_failsInvalid D e h
      exact .inr ⟨m, rfl⟩

open Sample in
/-- A leaf under an intermediate under a pinned root. -/
theorem verifyChain_sound_caLeaf :
    ∃ k c, 1 ≤ k ∧ k ≤ 16 ∧ c 0 = caLeaf ∧
      CertPath (fun _ => 50) [intermediate] (pin [oldRoot] (by decide)) 0 k c := by
  rcases (verifyChain_sound (deps rollover) (fun _ c _ => ⟨_, rfl⟩) (fun _ => 50) caLeaf
    [intermediate] (pin [oldRoot] (by decide))).1 (by decide +kernel) with ⟨hself, -⟩ | hpath
  · exact absurd hself.selfIssued (by decide)
  · exact hpath

/-! ## Larger trust stores -/

variable {D} {supplied' : List Certificate} {trustRoot' : TrustRoot D}

theorem isPinned_mono (hroots : trustRoot.roots ⊆ trustRoot'.roots)
    (h : isPinned D trustRoot cert = true) : isPinned D trustRoot' cert = true := by
  obtain ⟨r, hr, heq⟩ := List.any_eq_true.1 h
  exact List.any_eq_true.2 ⟨r, hroots hr, heq⟩

/-- The certificates that the walk from `leaf` looks for an issuer of: the leaf, and every selected
issuer that is not pinned. -/
inductive OnWalk (supplied : List Certificate) (trustRoot : TrustRoot D) (leaf : Certificate) :
    Certificate → Prop
  | leaf : OnWalk supplied trustRoot leaf leaf
  | next : OnWalk supplied trustRoot leaf c →
    selectIssuer D supplied trustRoot c.issuer = some issuer →
    ¬isPinned D trustRoot issuer = true → OnWalk supplied trustRoot leaf issuer

/-- The second pair of lists gives each certificate on the walk the issuer it had. -/
def SelectionKept (leaf : Certificate) (supplied supplied' : List Certificate)
    (trustRoot trustRoot' : TrustRoot D) : Prop :=
  ∀ c issuer, OnWalk supplied trustRoot leaf c →
    selectIssuer D supplied trustRoot c.issuer = some issuer →
    selectIssuer D supplied' trustRoot' c.issuer = some issuer

/-- The certificates that a walk can select from. -/
def candidates (supplied : List Certificate) (trustRoot : TrustRoot D) : List Certificate :=
  supplied ++ (trustRoot.intermediates ++ trustRoot.roots)

theorem selectIssuer_eq_find? (supplied : List Certificate) (trustRoot : TrustRoot D)
    (name : Name) :
    selectIssuer D supplied trustRoot name =
      (candidates supplied trustRoot).find? (·.subject = name) := by
  rw [selectIssuer, candidates, List.find?_append, List.find?_append]

/-- Roots appended after the pinned ones keep the selection. -/
theorem selectionKept_append_roots (more : List Certificate)
    (hi : trustRoot'.intermediates = trustRoot.intermediates)
    (hr : trustRoot'.roots = trustRoot.roots ++ more) :
    SelectionKept leaf supplied supplied trustRoot trustRoot' := by
  intro c issuer _ h
  have hc : candidates supplied trustRoot' = candidates supplied trustRoot ++ more := by
    simp [candidates, hi, hr]
  rw [selectIssuer_eq_find?] at h ⊢
  rw [hc, List.find?_append, h]
  rfl

/-- Added and reordered certificates keep the selection when no two different certificates of
the new lists have one subject. -/
theorem selectionKept_of_subjects_unique
    (hsub : candidates supplied trustRoot ⊆ candidates supplied' trustRoot')
    (huniq : ∀ a ∈ candidates supplied' trustRoot', ∀ b ∈ candidates supplied' trustRoot',
      a.subject = b.subject → a = b) :
    SelectionKept leaf supplied supplied' trustRoot trustRoot' := by
  intro c issuer _ h
  rw [selectIssuer_eq_find?] at h ⊢
  have hmem := hsub (List.mem_of_find?_eq_some h)
  have hname : issuer.subject = c.issuer := by simpa using List.find?_some h
  cases hf : (candidates supplied' trustRoot').find? (·.subject = c.issuer) with
  | none => simpa [hname] using List.find?_eq_none.1 hf issuer hmem
  | some c' =>
    have hc' : c'.subject = c.issuer := by simpa using List.find?_some hf
    rw [huniq c' (List.mem_of_find?_eq_some hf) issuer hmem (hc'.trans hname.symm)]

theorem chainWalk_mono (hroots : trustRoot.roots ⊆ trustRoot'.roots)
    (hsel : SelectionKept leaf supplied supplied' trustRoot trustRoot')
    (hcur : OnWalk supplied trustRoot leaf current)
    (h : chainWalk D supplied trustRoot fuel clock below current = .ok ()) :
    chainWalk D supplied' trustRoot' fuel clock below current = .ok () := by
  induction fuel generalizing clock below current with
  | zero => simp [chainWalk] at h
  | succ fuel ih =>
    rcases chainWalk_succ_eq_ok.1 h with ⟨h0, hself | ⟨hne, issuer, hs, hiss, hnext⟩⟩
    · exact chainWalk_succ_eq_ok.2
        ⟨h0, .inl { hself with pinned := isPinned_mono hroots hself.pinned }⟩
    refine chainWalk_succ_eq_ok.2 ⟨h0, .inr ⟨hne, issuer, hsel _ _ hcur hs, hiss, ?_⟩⟩
    by_cases hpin : isPinned D trustRoot issuer = true
    · rw [if_pos hpin] at hnext
      rwa [if_pos (isPinned_mono hroots hpin)]
    rw [if_neg hpin] at hnext
    split
    · -- the walk ends here under the larger store; it read the same clock one hop later
      cases fuel with
      | zero => simp [chainWalk] at hnext
      | succ fuel => exact (chainWalk_succ_eq_ok.1 hnext).1
    · exact ih (hcur.next hs hpin) hnext

/-- A chain stays accepted when roots are added and every certificate on the walk still finds the
issuer it had. -/
theorem verifyChain_mono (clock : Nat → Time) (leaf : Certificate)
    (supplied supplied' : List Certificate) (trustRoot trustRoot' : TrustRoot D)
    (hroots : trustRoot.roots ⊆ trustRoot'.roots)
    (hsel : SelectionKept leaf supplied supplied' trustRoot trustRoot')
    (h : verifyChain D clock leaf supplied trustRoot = .ok ()) :
    verifyChain D clock leaf supplied' trustRoot' = .ok () :=
  chainWalk_mono hroots hsel .leaf h

open Sample in
/-- A store that also pins the new root appended accepts what the old root accepts. -/
theorem verifyChain_mono_rollover :
    verifyChain (deps rollover) (fun _ => 50) caLeaf [intermediate]
      (pin [oldRoot, newRoot] (by decide)) = .ok () := by
  exact verifyChain_mono (fun _ => 50) caLeaf [intermediate] [intermediate]
    (pin [oldRoot] (by decide)) _ (by simp [pin])
    (selectionKept_append_roots [newRoot] rfl rfl) (by decide +kernel)

open Sample in
/-- A key rollover with the new root pinned first: the first root of the wanted name is not the
one that signed the leaf. -/
theorem verifyChain_not_mono :
    ¬∀ (clock : Nat → Time) (leaf : Certificate) (supplied supplied' : List Certificate)
      (trustRoot trustRoot' : TrustRoot (deps rollover)),
      trustRoot.roots ⊆ trustRoot'.roots →
      trustRoot.intermediates ⊆ trustRoot'.intermediates → supplied ⊆ supplied' →
      verifyChain (deps rollover) clock leaf supplied trustRoot = .ok () →
      verifyChain (deps rollover) clock leaf supplied' trustRoot' = .ok () := by
  intro h
  have hnew := h (fun _ => 50) rootLeaf [] [] (pin [oldRoot] (by decide))
    (pin [newRoot, oldRoot] (by decide)) (by simp [pin]) (by simp [pin]) (by simp)
    (by decide +kernel)
  exact absurd hnew (by decide +kernel)

end Tako.Sigstore
