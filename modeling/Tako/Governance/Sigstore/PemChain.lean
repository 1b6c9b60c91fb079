import Tako.Governance.Sigstore.Sample

/-!
# The certificates of a PEM document

`parse_pem_chain` decodes the blocks that an END line ends. It returns the certificates of a
document whatever stands between their blocks, and it says nothing of a block that is not ended.
-/

namespace Tako.Sigstore

open Except

variable {Key Re : Type} (D : Deps Key Re)

/-! ## Lines -/

def beginMarker : String := "-----BEGIN CERTIFICATE-----"
def endMarker : String := "-----END CERTIFICATE-----"

def IsBegin (line : String) : Prop := Str.contains line beginMarker = true

/-- A line with both markers begins a block. -/
def IsEnd (line : String) : Prop := ¬IsBegin line ∧ Str.contains line endMarker = true

instance (line : String) : Decidable (IsBegin line) := inferInstanceAs (Decidable (_ = true))

instance (line : String) : Decidable (IsEnd line) := inferInstanceAs (Decidable (_ ∧ _))

/-- A line without markers. -/
def IsPlain (line : String) : Prop := ¬IsBegin line ∧ ¬IsEnd line

/-- The text of some lines. -/
def unlines (ls : List String) : String := String.join (ls.map (· ++ "\n"))

theorem unlines_concat (ls : List String) (l : String) :
    unlines (ls ++ [l]) = unlines ls ++ l ++ "\n" := by
  simp [unlines, String.join_append, String.join_cons, String.append_assoc]

/-- The blocks that END lines end, each from the last BEGIN line on, or from the END line if there
is none. `block` is what there is of the block at the first line. -/
def endedBlocks : (block : List String) → List String → List (List String)
  | _, [] => []
  | block, l :: ls =>
    if IsBegin l then endedBlocks [l] ls
    else if IsEnd l then (block ++ [l]) :: endedBlocks [] ls
    else if block.isEmpty then endedBlocks [] ls
    else endedBlocks (block ++ [l]) ls

/-! ## The loop -/

/-- The loop between two lines. -/
def PemState.within (out : List Certificate) (block : List String) : PemState where
  out
  buf := unlines block
  inBlock := !block.isEmpty

def decodeBlock (block : List String) : Result Certificate :=
  (D.certFromPem (unlines block)).mapError (invalid "sigstore: chain cert parse")

theorem pemStep_eq (st : PemState) (l : String) :
    pemStep D st l = if IsBegin l then .ok { st with inBlock := true, buf := l ++ "\n" }
      else if Str.contains l endMarker = true then
        ((D.certFromPem (st.buf ++ l ++ "\n")).mapError (invalid "sigstore: chain cert parse") >>=
          fun cert => .ok { out := st.out ++ [cert], buf := "", inBlock := false })
      else if st.inBlock = true then .ok { st with buf := st.buf ++ l ++ "\n" }
      else .ok st := rfl

theorem pemStep_begin (out : List Certificate) (block : List String) (h : IsBegin l) :
    pemStep D (.within out block) l = .ok (.within out [l]) := by
  have hline : unlines [l] = l ++ "\n" := by simp [unlines, String.join_cons]
  rw [pemStep_eq, if_pos h, PemState.within, PemState.within, hline]
  rfl

theorem pemStep_end (out : List Certificate) (block : List String) (h : IsEnd l) :
    pemStep D (.within out block) l = (decodeBlock D (block ++ [l]) >>= fun cert =>
      .ok (.within (out ++ [cert]) [])) := by
  rw [pemStep_eq, if_neg h.1, if_pos h.2, decodeBlock, unlines_concat]
  rfl

theorem pemStep_plain (out : List Certificate) (block : List String) (h : IsPlain l) :
    pemStep D (.within out block) l =
      .ok (.within out (if block.isEmpty then [] else block ++ [l])) := by
  have hend : ¬Str.contains l endMarker = true := fun hc => h.2 ⟨h.1, hc⟩
  rw [pemStep_eq, if_neg h.1, if_neg hend]
  cases block with
  | nil => rfl
  | cons b block =>
    have hin : (PemState.within out (b :: block)).inBlock = true := rfl
    rw [if_pos hin, List.isEmpty_cons, if_neg Bool.false_ne_true, PemState.within, PemState.within,
      unlines_concat]
    rfl

/-- The loop decodes the blocks that are ended. -/
theorem foldlM_pemStep (ls : List String) (out : List Certificate) (block : List String) :
    (ls.foldlM (pemStep D) (.within out block)).map PemState.out =
      ((endedBlocks block ls).mapM (decodeBlock D)).map (out ++ ·) := by
  induction ls generalizing out block with
  | nil => simp [endedBlocks, Except.map, PemState.within, pure, Except.pure]
  | cons l ls ih =>
    rw [List.foldlM_cons, endedBlocks]
    split
    next hbegin =>
      rw [pemStep_begin D out block hbegin]
      exact ih out [l]
    next hbegin =>
      split
      next hend =>
        rw [pemStep_end D out block hend, List.mapM_cons]
        cases hdecode : decodeBlock D (block ++ [l]) with
        | error e => rfl
        | ok cert =>
          change (ls.foldlM (pemStep D) (.within (out ++ [cert]) [])).map PemState.out = _
          rw [ih]
          cases (endedBlocks [] ls).mapM (decodeBlock D) with
          | error e => rfl
          | ok certs => exact congrArg Except.ok (List.append_assoc out [cert] certs)
      next hend =>
        rw [pemStep_plain D out block ⟨hbegin, hend⟩]
        split
        next hempty => exact ih out []
        next => exact ih out (block ++ [l])

/-- `parse_pem_chain` decodes the blocks that are ended, in order. -/
theorem parsePemText_eq (pem : String) :
    parsePemText D pem = (endedBlocks [] (Str.lines pem)).mapM (decodeBlock D) := by
  have hfold := foldlM_pemStep D (Str.lines pem) [] []
  have hid : (([] : List Certificate) ++ ·) = id := rfl
  rw [hid, Except.map_id] at hfold
  refine Eq.trans ?_ hfold
  change ((Str.lines pem).foldlM (pemStep D) (.within [] []) >>= fun st => .ok st.out) = _
  cases (Str.lines pem).foldlM (pemStep D) (.within [] []) <;> rfl

/-- The document is refused exactly if a block that is ended is no certificate. -/
theorem parsePemText_fails_iff (pem : String) :
    (∃ e, parsePemText D pem = .error e) ↔
      ∃ block ∈ endedBlocks [] (Str.lines pem), ∀ c, D.certFromPem (unlines block) ≠ .ok c := by
  rw [parsePemText_eq]
  induction endedBlocks [] (Str.lines pem) with
  | nil => simp [pure, Except.pure]
  | cons block blocks ih =>
    rw [List.mapM_cons]
    cases hdecode : D.certFromPem (unlines block) with
    | error e => simp [decodeBlock, hdecode, Except.mapError, bind, Except.bind]
    | ok c =>
      have hblock : decodeBlock D block = .ok c := by rw [decodeBlock, hdecode]; rfl
      have hgood : ¬ ∀ c', D.certFromPem (unlines block) ≠ .ok c' := fun h => h c hdecode
      simp only [List.mem_cons, exists_eq_or_imp]
      rw [hblock, or_iff_right hgood, ← ih]
      cases blocks.mapM (decodeBlock D) <;> simp [bind, Except.bind, pure, Except.pure]

/-! ## Documents -/

/-- The lines that a certificate is written in. -/
structure PemBlock where
  first : String
  body : List String
  last : String
  cert : Certificate
  begins : IsBegin first
  plain : ∀ l ∈ body, IsPlain l
  ends : IsEnd last
  decodes : D.certFromPem (unlines (first :: (body ++ [last]))) = .ok cert

variable {D}

def PemBlock.lines (b : PemBlock D) : List String := b.first :: (b.body ++ [b.last])

/-- Blocks, each with the lines before it, and the lines at the end. -/
def document (parts : List (List String × PemBlock D)) (rest : List String) : List String :=
  parts.flatMap (fun x => x.1 ++ x.2.lines) ++ rest

theorem endedBlocks_plain {filler : List String} (h : ∀ l ∈ filler, IsPlain l) (ls : List String) :
    endedBlocks [] (filler ++ ls) = endedBlocks [] ls := by
  induction filler with
  | nil => rfl
  | cons l filler ih =>
    rw [List.forall_mem_cons] at h
    rw [List.cons_append, endedBlocks, if_neg h.1.1, if_neg h.1.2]
    exact ih h.2

theorem endedBlocks_body {body : List String} (h : ∀ l ∈ body, IsPlain l) {block : List String}
    (hblock : block ≠ []) (ls : List String) :
    endedBlocks block (body ++ ls) = endedBlocks (block ++ body) ls := by
  induction body generalizing block with
  | nil => rw [List.append_nil]; rfl
  | cons l body ih =>
    rw [List.forall_mem_cons] at h
    have hne : ¬block.isEmpty = true := by simpa using hblock
    rw [List.cons_append, endedBlocks, if_neg h.1.1, if_neg h.1.2, if_neg hne,
      ih h.2 (by simp), List.append_assoc]
    rfl

theorem endedBlocks_block (b : PemBlock D) (ls : List String) :
    endedBlocks [] (b.lines ++ ls) = b.lines :: endedBlocks [] ls := by
  rw [PemBlock.lines, List.cons_append, endedBlocks, if_pos b.begins, List.append_assoc,
    endedBlocks_body b.plain (by simp), List.singleton_append, List.singleton_append, endedBlocks,
    if_neg b.ends.1, if_pos b.ends, List.cons_append]

theorem endedBlocks_document {parts : List (List String × PemBlock D)} {rest : List String}
    (hparts : ∀ x ∈ parts, ∀ l ∈ x.1, IsPlain l) (hrest : ∀ l ∈ rest, IsPlain l) :
    endedBlocks [] (document parts rest) = parts.map (·.2.lines) := by
  induction parts with
  | nil =>
    have hend := endedBlocks_plain hrest []
    rw [List.append_nil] at hend
    exact hend
  | cons x parts ih =>
    rw [List.forall_mem_cons] at hparts
    have hdocument : document (x :: parts) rest = x.1 ++ (x.2.lines ++ document parts rest) := by
      simp [document, List.append_assoc]
    rw [hdocument, endedBlocks_plain hparts.1, endedBlocks_block, ih hparts.2]
    rfl

/-- What is between the blocks of a document does not matter. -/
theorem parsePemText_document {pem : String} {parts : List (List String × PemBlock D)}
    {rest : List String} (hlines : Str.lines pem = document parts rest)
    (hparts : ∀ x ∈ parts, ∀ l ∈ x.1, IsPlain l) (hrest : ∀ l ∈ rest, IsPlain l) :
    parsePemText D pem = .ok (parts.map (·.2.cert)) := by
  rw [parsePemText_eq, hlines, endedBlocks_document hparts hrest, mapM_eq_ok,
    List.forall₂_map_left_iff, List.forall₂_map_right_iff, List.forall₂_same]
  intro x _
  rw [decodeBlock, mapError_eq_ok]
  exact x.2.decodes

/-! ## Input -/

variable (D)

inductive Boundary where
  | opening
  | closing
  deriving DecidableEq

/-- The first marker of an input. -/
def firstBoundary : Bytes → Option Boundary
  | [] => none
  | b :: bytes =>
    if (utf8 beginMarker).isPrefixOf (b :: bytes) then some .opening
    else if (utf8 endMarker).isPrefixOf (b :: bytes) then some .closing
    else firstBoundary bytes

/-- Some BEGIN marker is followed by another one or by none, and so has no END marker. -/
def Unclosed (pemBytes : Bytes) : Prop :=
  ∃ before b after, pemBytes = before ++ b :: after ∧
    (utf8 beginMarker).isPrefixOf (b :: after) = true ∧ firstBoundary after ≠ some .closing

/-- A document has its certificates read, and an input with a marker that has no END is refused. -/
structure LosesNothing (pemBytes : Bytes) : Prop where
  complete : ∀ pem (parts : List (List String × PemBlock D)) rest,
    String.fromUTF8? ⟨pemBytes.toArray⟩ = some pem → Str.lines pem = document parts rest →
    (∀ x ∈ parts, ∀ l ∈ x.1, IsPlain l) → (∀ l ∈ rest, IsPlain l) →
    parsePemChain D pemBytes = .ok (parts.map (·.2.cert))
  refused : Unclosed pemBytes → ∃ e, parsePemChain D pemBytes = .error e

theorem parsePemChain_fails_iff (pemBytes : Bytes) :
    (∃ e, parsePemChain D pemBytes = .error e) ↔
      ∀ pem, String.fromUTF8? ⟨pemBytes.toArray⟩ = some pem →
        ∃ block ∈ endedBlocks [] (Str.lines pem), ∀ c, D.certFromPem (unlines block) ≠ .ok c := by
  unfold parsePemChain
  cases String.fromUTF8? ⟨pemBytes.toArray⟩ with
  | none => simp
  | some pem =>
    simp only [Option.some.injEq, forall_eq']
    exact parsePemText_fails_iff D pem

/-- Nothing is lost exactly if no marker lacks its END, or the input is refused for another reason:
it is no text, or a block that is ended is no certificate. -/
theorem losesNothing_iff (pemBytes : Bytes) :
    LosesNothing D pemBytes ↔ (Unclosed pemBytes →
      ∀ pem, String.fromUTF8? ⟨pemBytes.toArray⟩ = some pem →
        ∃ block ∈ endedBlocks [] (Str.lines pem), ∀ c, D.certFromPem (unlines block) ≠ .ok c) := by
  constructor
  · intro h hunclosed
    exact (parsePemChain_fails_iff D pemBytes).1 (h.refused hunclosed)
  · intro h
    refine ⟨fun pem parts rest hpem hlines hparts hrest => ?_, fun hunclosed => ?_⟩
    · rw [parsePemChain, hpem]
      exact parsePemText_document hlines hparts hrest
    · exact (parsePemChain_fails_iff D pemBytes).2 (h hunclosed)

/-! ## A chain that is cut off -/

theorem fromUTF8?_utf8 (s : String) : String.fromUTF8? ⟨(utf8 s).toArray⟩ = some s := by
  have hbytes : (⟨(utf8 s).toArray⟩ : ByteArray) = s.toUTF8 := rfl
  have hvalid : s.toUTF8.IsValidUTF8 := s.isValidUTF8
  rw [hbytes, String.fromUTF8?, dif_pos hvalid]
  rfl

namespace Sample

def wholeBlock : String := "-----BEGIN CERTIFICATE-----\nA\n-----END CERTIFICATE-----\n"

def cutBlock : String := "-----BEGIN CERTIFICATE-----\nB\n"

/-- The crates where one certificate has the text `A`. -/
def pemDeps : Deps Bytes (Regex.Pat Char) := deps { certs := [(wholeBlock, caLeaf)] }

/-- A certificate, then one that is cut off: a chain of one certificate. -/
theorem cut_chain_accepted : ¬ ∀ pemBytes, LosesNothing pemDeps pemBytes := by
  intro hall
  have hunclosed : Unclosed (utf8 (wholeBlock ++ cutBlock)) :=
    ⟨utf8 wholeBlock, 0x2d, (utf8 cutBlock).tail, by decide +kernel, by decide +kernel,
      by decide +kernel⟩
  obtain ⟨e, he⟩ := (hall _).refused hunclosed
  have hparse : parsePemChain pemDeps (utf8 (wholeBlock ++ cutBlock)) = .ok [caLeaf] := by
    rw [parsePemChain, fromUTF8?_utf8]
    decide +kernel
  rw [hparse] at he
  cases he

end Sample

end Tako.Sigstore
