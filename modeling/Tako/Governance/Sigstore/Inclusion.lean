import Tako.Governance.Sigstore.Sample
import Tako.Theory.Merkle

/-!
# Rekor inclusion proofs

`verify_rekor_inclusion` and its audit-path loop. The loop carries the pair `(fnode, sn)` of the
entry's index and the last index of the current row. One step of it (`auditStep_eq`) takes one
side of `Merkle.sides`, whatever number of rows the inner loop skips, so a whole run
(`auditLoop_eq_ok`) is `Merkle.climb` along the path.
-/

namespace Tako.Sigstore

open Except Merkle

variable {Key Re : Type} (D : Deps Key Re)

/-! ## The code -/

def leafPreimage (body : Bytes) : Bytes := 0x00 :: body

def nodePreimage (left right : Digest) : Bytes := 0x01 :: (left.val ++ right.val)

/-- The run of right-edge nodes that have no sibling: shift while `fnode & 1 == 0` and
`fnode != 0`. -/
def skipRightEdge (fnode sn : Nat) : Nat × Nat :=
  if fnode &&& 1 = 0 ∧ fnode ≠ 0 then skipRightEdge (fnode >>> 1) (sn >>> 1) else (fnode, sn)
termination_by fnode
decreasing_by simp only [Nat.shiftRight_eq_div_pow]; omega

/-- The variables of the audit-path loop. -/
structure AuditState where
  r : Digest
  fnode : Nat
  sn : Nat

/-- Whether the node is a right child, with its sibling on the left. -/
def AuditState.onRight (st : AuditState) : Prop := st.fnode &&& 1 = 1 ∨ st.fnode = st.sn

instance (st : AuditState) : Decidable st.onRight := inferInstanceAs (Decidable (_ ∨ _))

/-- What the loop body hashes. -/
def auditInput (st : AuditState) (p : Digest) : Bytes :=
  if st.onRight then nodePreimage p st.r else nodePreimage st.r p

/-- The loop body. -/
def auditStep (st : AuditState) (p : Digest) : Result AuditState :=
  if st.sn = 0 then
    .error (.invalid "sigstore: rekor inclusion proof too long")
  else
    let r := D.sha256 (auditInput st p)
    let (fnode, sn) := if st.onRight then skipRightEdge st.fnode st.sn else (st.fnode, st.sn)
    .ok ⟨r, fnode >>> 1, sn >>> 1⟩

/-- Decode a sibling hash from hex into `[u8; 32]`. -/
def decodeSibling (s : String) : Result Digest := do
  let raw ← (D.hexDecode (Str.trim s)).mapError (invalid "sigstore: rekor proof hex")
  if h : raw.length = 32 then
    .ok ⟨raw, h⟩
  else
    .error (.invalid
      s!"sigstore: rekor proof hash wrong length (got {raw.length} bytes, want 32)")

def verifyRekorInclusion (entry : RekorEntry) (proof : RekorInclusionProof) : Result Unit := do
  rejectIf (proof.logIndex ≠ entry.logIndex) (.invalid
    (s!"sigstore: rekor inclusion proof log_index ({proof.logIndex}) does not match " ++
      s!"entry log_index ({entry.logIndex})"))
  rejectIf (proof.treeSize = 0 ∨ entry.logIndex ≥ proof.treeSize) (.invalid
    (s!"sigstore: rekor inclusion proof: log_index {entry.logIndex} out of range " ++
      s!"for tree_size {proof.treeSize}"))
  let bodyBytes ← (D.b64Decode (Str.trim entry.canonicalizedBody)).mapError
    (invalid "sigstore: rekor body base64")
  let path ← proof.hashesHex.mapM (decodeSibling D)
  let st ← path.foldlM (auditStep D)
    ⟨D.sha256 (leafPreimage bodyBytes), entry.logIndex, proof.treeSize - 1⟩
  rejectIf (st.sn ≠ 0) (.invalid "sigstore: rekor inclusion proof too short")
  let expectedRoot ← (D.hexDecode (Str.trim proof.rootHashHex)).mapError
    (invalid "sigstore: rekor root hex")
  rejectIf (expectedRoot ≠ st.r.val) (.invalid
    "sigstore: rekor inclusion proof: computed root does not match pinned root")

/-- The preimages that the loop hashes from a state on. -/
def auditLoopInputs (st : AuditState) : List Digest → List Bytes
  | [] => []
  | p :: path =>
    match auditStep D st p with
    | .ok st' => auditInput st p :: auditLoopInputs st' path
    | .error _ => []

/-- The preimages that a run of `verify_rekor_inclusion` hashes on a decoded body and path. -/
def inclusionInputs (body : Bytes) (path : List Digest) (index treeSize : Nat) : List Bytes :=
  leafPreimage body ::
    auditLoopInputs D ⟨D.sha256 (leafPreimage body), index, treeSize - 1⟩ path

/-! ## The hash tree of the log -/

/-- RFC 6962 hashing: a leaf under the prefix `0x00`, a node under the prefix `0x01`. -/
def rfc6962 : Scheme Bytes Digest Bytes where
  hash := D.sha256
  emptyIn := []
  leafIn := leafPreimage
  nodeIn := nodePreimage
  leafIn_inj h := by simpa [leafPreimage] using h
  nodeIn_inj {a b c d} h := by
    have happ := List.append_inj (List.cons.inj h).2 (a.2.trans c.2.symm)
    exact ⟨Subtype.ext happ.1, Subtype.ext happ.2⟩

@[simp] theorem rfc6962_leafHash (body : Bytes) :
    (rfc6962 D).leafHash body = D.sha256 (leafPreimage body) := rfl

/-! ## The audit-path loop -/

theorem skipRightEdge_odd (h : fnode % 2 = 1) : skipRightEdge fnode sn = (fnode, sn) := by
  rw [skipRightEdge, if_neg (by simp [Nat.and_one_is_mod]; omega)]

theorem skipRightEdge_even (h : fnode % 2 = 0) (h0 : fnode ≠ 0) :
    skipRightEdge fnode sn = skipRightEdge (fnode / 2) (sn / 2) := by
  rw [skipRightEdge, if_pos ⟨by simpa [Nat.and_one_is_mod] using h, h0⟩]
  simp [Nat.shiftRight_eq_div_pow]

/-- One step of the loop joins the node on the next side of the path. It moves up one row, and
past the rows in which the node is last and has no sibling. -/
theorem auditStep_eq (hle : fnode ≤ sn) (h0 : sn ≠ 0) :
    ∃ s fnode' sn', fnode' ≤ sn' ∧ sides fnode sn = s :: sides fnode' sn' ∧
      ∀ r p, auditInput ⟨r, fnode, sn⟩ p = (rfc6962 D).joinIn s r p ∧
        auditStep D ⟨r, fnode, sn⟩ p =
          .ok ⟨D.sha256 ((rfc6962 D).joinIn s r p), fnode', sn'⟩ := by
  induction sn using Nat.strong_induction_on generalizing fnode with
  | _ sn ih =>
    rcases (Nat.mod_two_eq_zero_or_one fnode).symm with hodd | heven
    · refine ⟨.right, fnode / 2, sn / 2, by omega, sides_odd h0 hodd, fun r p => ?_⟩
      have hr : AuditState.onRight ⟨r, fnode, sn⟩ := .inl (by simpa [Nat.and_one_is_mod])
      simp [auditStep, auditInput, hr, h0, skipRightEdge_odd hodd, Scheme.joinIn, rfc6962,
        Nat.shiftRight_eq_div_pow]
    rcases hle.lt_or_eq with hlt | rfl
    · refine ⟨.left, fnode / 2, sn / 2, by omega, sides_even h0 heven (by omega), fun r p => ?_⟩
      have hr : ¬AuditState.onRight ⟨r, fnode, sn⟩ := by
        simp only [AuditState.onRight, Nat.and_one_is_mod]; omega
      simp [auditStep, auditInput, hr, h0, Scheme.joinIn, rfc6962, Nat.shiftRight_eq_div_pow]
    · -- a last node without a sibling: the step is the one taken from the row above
      obtain ⟨s, fnode', sn', hle', hs, hstep⟩ :=
        ih (fnode / 2) (by omega) (Nat.le_refl _) (by omega)
      refine ⟨s, fnode', sn', hle', (sides_edge heven).trans hs, fun r p => ?_⟩
      have hr : ∀ n, AuditState.onRight ⟨r, n, n⟩ := fun n => .inr rfl
      have h0' : fnode / 2 ≠ 0 := by omega
      rw [← (hstep r p).2, ← (hstep r p).1]
      simp [auditStep, auditInput, hr, h0, h0', skipRightEdge_even heven h0]

/-- The loop reaches row zero with digest `root` exactly when the path has one hash for each side
and climbs to `root`. -/
theorem auditLoop_eq_ok (hle : fnode ≤ sn) (r root : Digest) (path : List Digest) :
    (∃ st, path.foldlM (auditStep D) ⟨r, fnode, sn⟩ = .ok st ∧ st.sn = 0 ∧ st.r = root) ↔
      path.length = (sides fnode sn).length ∧
        climb (rfc6962 D) r ((sides fnode sn).zip path) = root := by
  induction path generalizing r fnode sn with
  | nil =>
    rcases Decidable.eq_or_ne sn 0 with rfl | h0
    · simp [pure, Except.pure, sides_zero, climb]
    · obtain ⟨s, fnode', sn', -, hs, -⟩ := auditStep_eq D hle h0
      simp [pure, Except.pure, hs, h0]
  | cons p path ih =>
    rcases Decidable.eq_or_ne sn 0 with rfl | h0
    · simp [auditStep, sides_zero, bind, Except.bind]
    · obtain ⟨s, fnode', sn', hle', hs, hstep⟩ := auditStep_eq D hle h0
      simp only [List.foldlM_cons, (hstep r p).2, hs, bind, Except.bind, ih hle',
        List.length_cons, Nat.add_right_cancel_iff, List.zip_cons_cons, climb]
      rfl

/-- The loop hashes what the climb hashes. -/
theorem auditLoopInputs_eq (hle : fnode ≤ sn) (r : Digest) (path : List Digest)
    (hlen : path.length = (sides fnode sn).length) :
    auditLoopInputs D ⟨r, fnode, sn⟩ path =
      climbInputs (rfc6962 D) r ((sides fnode sn).zip path) := by
  induction path generalizing r fnode sn with
  | nil => simp [auditLoopInputs, climbInputs]
  | cons p path ih =>
    have h0 : sn ≠ 0 := by
      rintro rfl
      simp [sides_zero] at hlen
    obtain ⟨s, fnode', sn', hle', hs, hstep⟩ := auditStep_eq D hle h0
    rw [hs, List.length_cons, List.length_cons] at hlen
    rw [auditLoopInputs, (hstep r p).2, hs, List.zip_cons_cons, climbInputs,
      ← ih hle' _ (Nat.succ.inj hlen), (hstep r p).1]
    rfl

/-! ## Inclusion verification -/

theorem decodeSibling_eq_ok {s : String} {d : Digest} :
    decodeSibling D s = .ok d ↔ D.hexDecode (Str.trim s) = .ok d.val := by
  simp only [decodeSibling, bind_eq_ok, mapError_eq_ok]
  constructor
  · rintro ⟨raw, hraw, hd⟩
    split at hd
    · cases hd
      exact hraw
    · contradiction
  · intro h
    exact ⟨d.val, h, dif_pos d.2⟩

/-- The sibling hashes decode to the given path. -/
def PathDecodes (hashesHex : List String) (path : List Digest) : Prop :=
  List.Forall₂ (fun s (d : Digest) => D.hexDecode (Str.trim s) = .ok d.val) hashesHex path

/-- Acceptance: the indices agree and are in range, and the decoded path climbs from the body's
leaf hash to the pinned root. -/
theorem verifyRekorInclusion_eq_ok {entry : RekorEntry} {proof : RekorInclusionProof} :
    verifyRekorInclusion D entry proof = .ok () ↔
      proof.logIndex = entry.logIndex ∧ entry.logIndex < proof.treeSize ∧
      ∃ body path, D.b64Decode (Str.trim entry.canonicalizedBody) = .ok body ∧
        PathDecodes D proof.hashesHex path ∧
        path.length = (sides entry.logIndex (proof.treeSize - 1)).length ∧
        D.hexDecode (Str.trim proof.rootHashHex) = .ok (climb (rfc6962 D)
          (D.sha256 (leafPreimage body))
          ((sides entry.logIndex (proof.treeSize - 1)).zip path)).val := by
  simp only [verifyRekorInclusion, bind_eq_ok, rejectIf_eq_ok, mapError_eq_ok, mapM_eq_ok,
    decodeSibling_eq_ok, exists_const, PathDecodes, not_or, ne_eq, not_not, Nat.not_le, ge_iff_le]
  constructor
  · rintro ⟨hidx, ⟨-, hlt⟩, body, hbody, path, hpath, st, hst, hsn, root, hroot, hr⟩
    obtain ⟨hlen, hclimb⟩ := (auditLoop_eq_ok D (by omega) _ _ path).1 ⟨st, hst, hsn, rfl⟩
    exact ⟨hidx, hlt, body, path, hbody, hpath, hlen, by rw [hclimb, ← hr]; exact hroot⟩
  · rintro ⟨hidx, hlt, body, path, hbody, hpath, hlen, hroot⟩
    obtain ⟨st, hst, hsn, hr⟩ := (auditLoop_eq_ok D (by omega) _ _ path).2 ⟨hlen, rfl⟩
    exact ⟨hidx, ⟨by omega, hlt⟩, body, hbody, path, hpath, st, hst, hsn, _, hroot, by rw [hr]⟩

/-- In a tree of some size the path climbs from the entry's body to the root of the proof. The size
that the proof declares is not read. -/
def Included (entry : RekorEntry) (proof : RekorInclusionProof) : Prop :=
  ∃ treeSize body path, entry.logIndex < treeSize ∧
    D.b64Decode (Str.trim entry.canonicalizedBody) = .ok body ∧
    PathDecodes D proof.hashesHex path ∧
    path.length = (sides entry.logIndex (treeSize - 1)).length ∧
    D.hexDecode (Str.trim proof.rootHashHex) = .ok (climb (rfc6962 D)
      (D.sha256 (leafPreimage body)) ((sides entry.logIndex (treeSize - 1)).zip path)).val

/-- The declared size has room for the index, and gives it as many sides as there are hashes. -/
def SizeFits (entry : RekorEntry) (proof : RekorInclusionProof) : Prop :=
  entry.logIndex < proof.treeSize ∧
    proof.hashesHex.length = (sides entry.logIndex (proof.treeSize - 1)).length

/-- The declared size is only asked to fit the index and the path. -/
theorem verifyRekorInclusion_iff {entry : RekorEntry} {proof : RekorInclusionProof} :
    verifyRekorInclusion D entry proof = .ok () ↔
      proof.logIndex = entry.logIndex ∧ Included D entry proof ∧ SizeFits entry proof := by
  rw [verifyRekorInclusion_eq_ok]
  constructor
  · rintro ⟨hidx, hlt, body, path, hbody, hpath, hlen, hroot⟩
    exact ⟨hidx, ⟨_, body, path, hlt, hbody, hpath, hlen, hroot⟩, hlt, hpath.length_eq.trans hlen⟩
  · rintro ⟨hidx, ⟨treeSize, body, path, hle, hbody, hpath, hlen, hroot⟩, hlt, hfits⟩
    have hcount := hpath.length_eq.symm.trans hfits
    have hsides : sides entry.logIndex (treeSize - 1) =
        sides entry.logIndex (proof.treeSize - 1) :=
      sides_eq_of_length_eq (by omega) (by omega) (hlen.symm.trans hcount)
    rw [hsides] at hroot
    exact ⟨hidx, hlt, body, path, hbody, hpath, hcount, hroot⟩

/-- Inclusion verification against the tree hash of a log. It accepts the audit path of every
leaf. It accepts no other body, short of two distinct preimages of one digest, one hashed by the
run and one by the tree. -/
theorem verifyRekorInclusion_correct (entry : RekorEntry) (proof : RekorInclusionProof)
    (leaves : List Bytes) (body : Bytes)
    (hbody : D.b64Decode (Str.trim entry.canonicalizedBody) = .ok body)
    (hsize : proof.treeSize = leaves.length)
    (hroot : D.hexDecode (Str.trim proof.rootHashHex) = .ok (mth (rfc6962 D) leaves).val) :
    (proof.logIndex = entry.logIndex → leaves[entry.logIndex]? = some body →
      PathDecodes D proof.hashesHex (auditPath (rfc6962 D) leaves entry.logIndex) →
      verifyRekorInclusion D entry proof = .ok ()) ∧
    (verifyRekorInclusion D entry proof = .ok () →
      entry.logIndex < leaves.length ∧
      (leaves[entry.logIndex]? = some body ∨
        ∃ path, PathDecodes D proof.hashesHex path ∧
          Collides (rfc6962 D) (inclusionInputs D body path entry.logIndex proof.treeSize)
            (treeInputs (rfc6962 D) leaves))) := by
  refine ⟨fun hidx hleaf hpath => ?_, fun h => ?_⟩
  · obtain ⟨hlt, rfl⟩ := List.getElem?_eq_some_iff.1 hleaf
    refine (verifyRekorInclusion_eq_ok D).2 ⟨hidx, hsize ▸ hlt, _, _, hbody, hpath, ?_, ?_⟩
    · rw [hsize]
      exact length_auditPath _ leaves hlt
    · rw [hsize, ← rfc6962_leafHash, climb_auditPath _ leaves hlt]
      exact hroot
  · obtain ⟨-, hlt, body', path, hbody', hpath, hlen, hclimb⟩ :=
      (verifyRekorInclusion_eq_ok D).1 h
    obtain rfl : body = body' := Except.ok.inj (hbody.symm.trans hbody')
    rw [hroot, Except.ok.injEq] at hclimb
    rw [hsize] at hlt hlen hclimb
    refine ⟨hlt, ?_⟩
    rcases climb_sound (rfc6962 D) leaves body path hlt hlen (Subtype.ext hclimb).symm with
      heq | hcol
    · exact .inl (List.getElem?_eq_some_iff.2 ⟨hlt, heq.symm⟩)
    · refine .inr ⟨path, hpath, ?_⟩
      rw [inclusionInputs, hsize, auditLoopInputs_eq D (by omega) _ _ hlen]
      exact hcol

open Sample in
/-- The last of three entries, whose path skips the row in which it has no sibling. -/
theorem verifyRekorInclusion_correct_entryC :
    verifyRekorInclusion logDeps entryC ⟨[hexAB], 3, 2, hexABC⟩ = .ok () := by
  let leaves : List Bytes := [[0x61], [0x62], [0x63]]
  have hsplit : split leaves.length = 2 := split_half (Nat.le_refl 3)
  have hAB : mth (rfc6962 logDeps) (leaves.take 2) = hashAB := by
    rw [mth_split _ (by decide), show split (leaves.take 2).length = 1 from split_two]
    change Scheme.nodeHash _ (mth _ [[0x61]]) (mth _ [[0x62]]) = _
    rw [mth_singleton, mth_singleton]
    decide +kernel
  have hC : mth (rfc6962 logDeps) (leaves.drop 2) = hashC := mth_singleton ..
  have hroot : mth (rfc6962 logDeps) leaves = hashABC := by
    rw [mth_split _ (by decide), hsplit, hAB, hC]
    decide +kernel
  have hpath : auditPath (rfc6962 logDeps) leaves 2 = [hashAB] := by
    rw [auditPath_right _ (by decide) hsplit.le, hsplit, hAB, auditPath_short _ (by decide)]
    rfl
  refine (verifyRekorInclusion_correct logDeps entryC _ leaves [0x63] rfl rfl ?_).1 rfl rfl ?_
  · rw [hroot]
    decide +kernel
  · change PathDecodes logDeps [hexAB] (auditPath (rfc6962 logDeps) leaves 2)
    rw [hpath]
    exact .cons (by decide +kernel) .nil

end Tako.Sigstore
