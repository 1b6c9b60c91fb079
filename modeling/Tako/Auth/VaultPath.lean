import Tako.Auth.Outage

/-!
# Where Vault tokens are looked up

A bearer token is pasted behind the prefix as it is, and the client makes the path of a URL of the
two: it appends what stands between slashes piece by piece, ignores dot segments and drops tabs. A
dot segment that has a tab in it is not ignored, and leads upwards. So a token is one segment below
the prefix exactly if the client keeps one piece of it, which is not empty and no dot segment
without its tabs; before it there may only be ways up from an empty segment (`staysBelow_iff`).
-/

namespace Tako.Auth

open Traced

/-! ## The path of a request -/

/-- The pieces between slashes. -/
def pieces (s : String) : List String := (s.toList.splitOn '/').map String.ofList

def isDotSegment (piece : String) : Bool := piece = "." || piece = ".."

/-- The pieces that are not ignored. -/
def kept (s : String) : List String := (pieces s).filter fun piece => !isDotSegment piece

/-- A URL has no tabs. -/
def withoutTabs (piece : String) : String := String.ofList (piece.toList.filter (· != '\t'))

/-- How `vaultrs` addresses an entry of a KV engine: the segments in the path of the URL, and a
piece of the text as it is written there. -/
structure KvAddressing where
  segments : (mount path : String) → List String
  encode : String → String

/-- `HeaderValue::to_str` succeeds: the characters that a client can send. -/
def Visible (token : String) : Prop :=
  ∀ c ∈ token.toList, (32 ≤ c.toNat ∧ c.toNat < 127) ∨ c.toNat = 9

instance (token : String) : Decidable (Visible token) :=
  List.decidableBAll (fun c : Char => (32 ≤ c.toNat ∧ c.toNat < 127) ∨ c.toNat = 9) token.toList

namespace KvAddressing

variable (A : KvAddressing)

/-- `PathSegmentsMut::extend` with one piece. A way up replaces the last segment by an empty one. -/
def push (segments : List String) (piece : String) : List String :=
  if withoutTabs piece = ".." then segments.dropLast ++ [""]
  else if withoutTabs piece = "." then segments ++ [""]
  else segments ++ [A.encode (withoutTabs piece)]

/-- The documented behaviour: an entry is at `{mount}/data/{path}`, and what stands between slashes
is appended to the URL piece by piece. Dot segments are ignored, and the other pieces are
percent-encoded, with `%`, `?` and `#` in them. -/
structure Documented : Prop where
  data : ∀ mount path, A.segments mount path ≠ []
  extend : ∀ mount path token, Visible token →
    A.segments mount (path ++ "/" ++ token) = (kept token).foldl A.push (A.segments mount path)
  encode : ∀ piece, A.encode piece = "" ↔ piece = ""

end KvAddressing

/-! ## Lookups of a resolver -/

namespace VaultAuthResolver

variable (A : KvAddressing) (R : VaultAuthResolver)

/-- The prefix as a path. -/
def prefixPath : String := Str.trimEndMatches R.pathPrefix '/'

/-- The path is one segment below the prefix. -/
def Below (path : String) : Prop :=
  ∃ segment, segment ≠ "" ∧
    A.segments R.mount path = A.segments R.mount R.prefixPath ++ [segment]

/-- Whatever Vault answers, and whatever is cached: what is read for the token is one segment below
the prefix. -/
def StaysBelow (token : String) : Prop :=
  ∀ (C W : Type) (B : VaultBackend C W) (s : VaultState C W) (path : String)
    (r : Except ClientError VaultEntry),
    .kv2Read path r ∈ ((R.resolve B token).run s).trace → R.Below A path

/-- The piece is a segment below where it is appended. -/
def Named (piece : String) : Prop := withoutTabs piece ∉ ["", ".", ".."]

/-- The piece is a way up that is not ignored. -/
def Up (piece : String) : Prop := withoutTabs piece = ".."

instance (piece : String) : Decidable (Up piece) :=
  inferInstanceAs (Decidable (withoutTabs piece = ".."))

instance (piece : String) : Decidable (Named piece) :=
  inferInstanceAs (Decidable (withoutTabs piece ∉ ["", ".", ".."]))

/-- One piece of the token is appended below the prefix. The ways up before it come to nothing, as
the path of the prefix itself ends in an empty segment. -/
def OneSegment (token : String) : Prop :=
  ∃ ups piece, kept token = ups ++ [piece] ∧ Named piece ∧ (∀ up ∈ ups, Up up) ∧
    (ups ≠ [] → "" ∈ (A.segments R.mount R.prefixPath).getLast?)

/-! ## Reads -/

variable {A R}

section

variable {C W : Type} {B : VaultBackend C W}

/-- No entry is read, or only the one at `path`. -/
def ReadsAt (path : String) (t : VaultAct) : Prop := ∀ path' r, t = .kv2Read path' r → path' = path

theorem authenticate_reads (path url : String) (body : Json) :
    (authenticate B url body).Acts (ReadsAt path) := by
  have hlogin : (vaultLogin B url body).Acts (ReadsAt path) := by
    refine .bind (.call fun _ => nofun) fun resp => ?_
    split
    · exact .throw _
    · exact .ofExcept _
  exact .bind hlogin fun _ => .bind (.modify _) fun _ => .pure _

theorem token_reads (path : String) (provider : VaultTokenProvider) :
    (token B provider).Acts (ReadsAt path) := by
  cases provider with
  | static token => exact .pure _
  | appRole addr roleId secretId =>
    refine .bind (.read _) fun o => ?_
    cases o with
    | some token => exact .pure _
    | none => exact authenticate_reads path _ _
  | kubernetes addr role jwtPath =>
    refine .bind (.read _) fun o => ?_
    cases o with
    | some token => exact .pure _
    | none => exact .bind (.call fun _ => nofun) fun jwt => authenticate_reads path _ _

theorem lookupToken_reads (client : C) (token : String) :
    (R.lookupToken B client token).Acts (ReadsAt (R.pathFor token)) := by
  unfold lookupToken
  refine .call fun s path r heq => ?_
  cases heq
  rfl

/-- A resolution reads nothing but the token's own path. -/
theorem resolve_reads (token : String) :
    (R.resolve B token).Acts (ReadsAt (R.pathFor token)) := by
  refine .bind (.read _) fun o => ?_
  cases o with
  | some p => exact .pure p
  | none =>
    exact .bind (token_reads _ R.provider) fun vaultToken =>
      .bind (getOrBuildClient_acts _) fun client =>
        .bind (lookupToken_reads client token) fun entry => .bind (.modify _) fun _ => .pure _

end

/-- A Vault that lets everyone in. -/
def openVault : VaultBackend Unit Unit where
  instant _ := 0
  login _ _ w := (.ok { status := 200, json := .ok { clientToken := "t" } }, w)
  readToString _ w := (.ok "jwt", w)
  withinLease _ _ := false
  settings _ _ _ := .ok ()
  client _ _ _ := .ok ()
  kv2Read _ _ _ w := (.error (.api 404 "not found"), w)
  firstKey := List.head?
  statusText n := toString n

/-- There is a resolution that reads it, with every provider. -/
theorem exists_read (R : VaultAuthResolver) (token : String) : ∃ r,
    .kv2Read (R.pathFor token) r ∈ ((R.resolve openVault token).run { world := () }).trace := by
  obtain ⟨addr, provider, mount, pathPrefix, cacheTtl, namespaceName⟩ := R
  cases provider with
  | static token => exact ⟨_, List.mem_singleton_self _⟩
  | appRole addr roleId secretId => exact ⟨_, .tail _ (List.mem_singleton_self _)⟩
  | kubernetes addr role jwtPath => exact ⟨_, .tail _ (.tail _ (List.mem_singleton_self _))⟩

/-! ## One segment -/

variable {segments : List String} {piece : String}

theorem push_up (h : Up piece) : A.push segments piece = segments.dropLast ++ [""] := if_pos h

theorem push_named (h : Named piece) :
    A.push segments piece = segments ++ [A.encode (withoutTabs piece)] := by
  simp only [Named, List.mem_cons, List.not_mem_nil, or_false, not_or] at h
  rw [KvAddressing.push, if_neg h.2.2, if_neg h.2.1]

theorem encode_named (hA : A.Documented) (h : Named piece) : A.encode (withoutTabs piece) ≠ "" := by
  intro hempty
  rw [hA.encode] at hempty
  exact h (hempty ▸ List.mem_cons_self)

/-- Any other piece is empty, or a dot with tabs. -/
theorem push_empty (hA : A.Documented) (hup : ¬Up piece) (hnamed : ¬Named piece) :
    A.push segments piece = segments ++ [""] := by
  have hcases : withoutTabs piece = "" ∨ withoutTabs piece = "." := by
    simp only [Named, List.mem_cons, List.not_mem_nil, or_false, not_not] at hnamed
    exact hnamed.imp_right fun h => h.resolve_right hup
  have hnotUp : withoutTabs piece ≠ ".." := hup
  rw [KvAddressing.push, if_neg hnotUp]
  obtain hempty | hdot := hcases
  · rw [hempty, (hA.encode "").2 rfl, if_neg (by decide)]
  · rw [if_pos hdot]

theorem length_push (hsegments : segments ≠ []) (piece : String) :
    (A.push segments piece).length = if Up piece then segments.length else segments.length + 1 := by
  by_cases hup : Up piece
  · have hpos := List.length_pos_iff.2 hsegments
    rw [push_up hup, if_pos hup, List.length_append, List.length_dropLast, List.length_singleton]
    omega
  · have hnotUp : withoutTabs piece ≠ ".." := hup
    rw [KvAddressing.push, if_neg hnotUp, if_neg hup]
    split <;> simp

theorem push_ne_nil (segments : List String) (piece : String) : A.push segments piece ≠ [] := by
  unfold KvAddressing.push
  split
  · simp
  · split <;> simp

theorem length_le_foldl (hsegments : segments ≠ []) (pieces : List String) :
    segments.length ≤ (pieces.foldl A.push segments).length := by
  induction pieces generalizing segments with
  | nil => exact le_rfl
  | cons piece pieces ih =>
    have hpush := length_push (A := A) hsegments piece
    have hrest := ih (push_ne_nil (A := A) segments piece)
    rw [List.foldl_cons]
    split at hpush <;> omega

/-- Only ways up append nothing. -/
theorem forall_up (hsegments : segments ≠ []) {pieces : List String}
    (h : (pieces.foldl A.push segments).length = segments.length) : ∀ up ∈ pieces, Up up := by
  induction pieces generalizing segments with
  | nil => exact List.forall_mem_nil _
  | cons piece pieces ih =>
    have hpush := length_push (A := A) hsegments piece
    have hrest := length_le_foldl (A := A) (push_ne_nil (A := A) segments piece) pieces
    rw [List.foldl_cons] at h
    by_cases hup : Up piece
    · rw [if_pos hup] at hpush
      exact List.forall_mem_cons.2 ⟨hup, ih (push_ne_nil segments piece) (h.trans hpush.symm)⟩
    · rw [if_neg hup] at hpush
      omega

/-- Ways up replace one segment, and then nothing more. -/
theorem foldl_ups {ups : List String} (hups : ∀ up ∈ ups, Up up) (hne : ups ≠ []) :
    ups.foldl A.push segments = segments.dropLast ++ [""] := by
  induction ups generalizing segments with
  | nil => exact absurd rfl hne
  | cons up ups ih =>
    obtain ⟨hup, hrest⟩ := List.forall_mem_cons.1 hups
    rw [List.foldl_cons, push_up hup]
    by_cases hnil : ups = []
    · rw [hnil, List.foldl_nil]
    · rw [ih hrest hnil, List.dropLast_concat]

theorem foldl_ups_self {ups : List String} (hups : ∀ up ∈ ups, Up up) :
    ups.foldl A.push segments = segments ↔ (ups ≠ [] → "" ∈ segments.getLast?) := by
  by_cases hnil : ups = []
  · simp [hnil]
  rw [foldl_ups hups hnil]
  constructor
  · intro h _
    rw [← h, List.getLast?_concat]
    rfl
  · intro h
    rw [List.dropLast_append_getLast? _ (h hnil)]

theorem below_pathFor_iff (hA : A.Documented) {token : String} (htoken : Visible token) :
    R.Below A (R.pathFor token) ↔ OneSegment A R token := by
  have hpath : A.segments R.mount (R.pathFor token) =
      (kept token).foldl A.push (A.segments R.mount R.prefixPath) :=
    hA.extend _ _ _ htoken
  have hdata := hA.data R.mount R.prefixPath
  unfold Below OneSegment
  rw [hpath]
  constructor
  · rintro ⟨segment, hsegment, heq⟩
    obtain hnil | ⟨ups, piece, hkept⟩ := List.eq_nil_or_concat (kept token)
    · rw [hnil, List.foldl_nil] at heq
      exact absurd heq.symm (by simp)
    rw [hkept, List.concat_eq_append, List.foldl_append, List.foldl_cons, List.foldl_nil] at heq
    have hnamed : Named piece := by
      by_contra hnamed
      apply hsegment
      by_cases hup : Up piece
      · rw [push_up hup] at heq
        exact (List.singleton_inj.1 (List.append_inj' heq rfl).2).symm
      · rw [push_empty hA hup hnamed] at heq
        exact (List.singleton_inj.1 (List.append_inj' heq rfl).2).symm
    rw [push_named hnamed] at heq
    have hself := (List.append_inj' heq rfl).1
    have hups := forall_up hdata (congrArg List.length hself)
    exact ⟨ups, piece, by rw [hkept, List.concat_eq_append], hnamed, hups,
      (foldl_ups_self hups).1 hself⟩
  · rintro ⟨ups, piece, hkept, hnamed, hups, hlast⟩
    refine ⟨A.encode (withoutTabs piece), encode_named hA hnamed, ?_⟩
    rw [hkept, List.foldl_append, (foldl_ups_self hups).2 hlast]
    exact push_named hnamed

/-- For every mount and prefix: the lookups of a token stay one segment below the prefix exactly if
the token is one segment. -/
theorem staysBelow_iff (hA : A.Documented) (R : VaultAuthResolver) {token : String}
    (htoken : Visible token) : R.StaysBelow A token ↔ OneSegment A R token := by
  rw [← below_pathFor_iff (R := R) hA htoken]
  constructor
  · intro h
    obtain ⟨r, hr⟩ := exists_read R token
    exact h _ _ _ _ _ r hr
  · intro h C W B s path r hr
    rw [resolve_reads token s _ hr path r rfl]
    exact h

/-- Then two prefixes on a mount share no entry that is read. -/
theorem below_inj {R' : VaultAuthResolver} {path path' : String} (hbelow : R.Below A path)
    (hbelow' : R'.Below A path') (heq : A.segments R.mount path = A.segments R'.mount path') :
    A.segments R.mount R.prefixPath = A.segments R'.mount R'.prefixPath := by
  obtain ⟨segment, -, hpath⟩ := hbelow
  obtain ⟨segment', -, hpath'⟩ := hbelow'
  rw [hpath, hpath'] at heq
  exact (List.append_inj' heq rfl).1

/-! ## A token with a slash -/

theorem pieces_append (a b : String) : pieces (a ++ "/" ++ b) = pieces a ++ pieces b := by
  have h : (a ++ "/" ++ b).toList = a.toList ++ '/' :: b.toList := by simp
  unfold pieces
  rw [h, List.splitOn_eq_splitOnP, List.splitOnP_append_cons _ _ (by decide), List.map_append]
  rfl

theorem kept_append (a b : String) : kept (a ++ "/" ++ b) = kept a ++ kept b := by
  unfold kept
  rw [pieces_append, List.filter_append]

/-- A client that writes every piece as it is. -/
def sampleAddressing : KvAddressing where
  segments mount path :=
    (kept (mount ++ "/data/" ++ path)).foldl (KvAddressing.push ⟨default, id⟩) []
  encode := id

theorem sampleAddressing_documented : sampleAddressing.Documented := by
  refine ⟨fun mount path => ?_, fun mount path token _ => ?_, fun _ => Iff.rfl⟩
  · have heq : mount ++ "/data/" ++ path = mount ++ "/" ++ ("data" ++ "/" ++ path) :=
      String.toList_inj.1 (by simp)
    have hdata : kept "data" = ["data"] := by decide
    dsimp only [sampleAddressing]
    rw [heq, kept_append, kept_append, hdata, List.foldl_append, List.foldl_append, List.foldl_cons]
    exact List.length_pos_iff.1 (Nat.lt_of_lt_of_le (List.length_pos_iff.2 (push_ne_nil _ _))
      (length_le_foldl (push_ne_nil _ _) _))
  · have heq : mount ++ "/data/" ++ (path ++ "/" ++ token) =
        mount ++ "/data/" ++ path ++ "/" ++ token := by simp [String.append_assoc]
    dsimp only [sampleAddressing]
    rw [heq, kept_append, List.foldl_append]
    rfl

def sampleVaultResolver (pathPrefix : String) : VaultAuthResolver where
  addr := "https://vault"
  provider := .static "t"
  pathPrefix

/-- With a slash in the token, two segments below one prefix are read, which are one below
another. -/
theorem slash_leaves_prefix :
    ¬(sampleVaultResolver "tako/tokens").StaysBelow sampleAddressing "team/x" ∧
      (sampleVaultResolver "tako/tokens").pathFor "team/x" =
        (sampleVaultResolver "tako/tokens/team").pathFor "x" := by
  refine ⟨fun h => ?_, rfl⟩
  obtain ⟨r, hr⟩ := exists_read (sampleVaultResolver "tako/tokens") "team/x"
  obtain ⟨segment, -, heq⟩ := h _ _ _ _ _ r hr
  have hlength := congrArg List.length heq
  rw [List.length_append, List.length_singleton] at hlength
  exact absurd hlength (by decide)

/-- Two dots with a tab between them lead above the prefix. -/
example : sampleAddressing.segments "secret" "tako/tokens/.\t." =
    ["secret", "data", "tako", ""] := by
  decide

theorem plain_token_below :
    (sampleVaultResolver "tako/tokens").StaysBelow sampleAddressing "abc" ↔
      OneSegment sampleAddressing (sampleVaultResolver "tako/tokens") "abc" :=
  staysBelow_iff sampleAddressing_documented (sampleVaultResolver "tako/tokens") (by decide)

end VaultAuthResolver

end Tako.Auth
