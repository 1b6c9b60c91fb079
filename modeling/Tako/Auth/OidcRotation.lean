import Tako.Auth.OidcSoundness

/-!
# Rotation of the issuer's keys

A token that is valid under the key set that the issuer publishes now, and a resolver that still has
an older one. A missing key and a signature that does not verify make it fetch the new set. A key of
another kind under the same name does not: the texts of its errors are not looked for.
-/

namespace Tako.Auth.OidcAuthResolver

open Traced

variable {J : Jsonwebtoken} {κ W : Type} {R : OidcAuthResolver κ} {B : OidcBackend J κ W}

/-! ## Errors of a validation -/

/-- How `jsonwebtoken` words errors of keys and signatures, where `fits` says which keys can be used
with an algorithm. -/
structure DocumentedErrors (J : Jsonwebtoken) (fits : J.Key → Algorithm → Bool) : Prop where
  /-- The resolver's message about a key that cannot be built has no marker. -/
  fromJwk : ∀ jwk e, J.fromJwk jwk = .error e →
    retries (.invalid s!"oidc: cannot build DecodingKey: {e}") = false
  unfit : ∀ now token header key v, J.decodeHeader token = .ok header →
    v.algorithms = [header.alg] → fits key header.alg = false →
    ∃ e ∈ ["InvalidAlgorithm", "InvalidKeyFormat", "InvalidEcdsaKey"],
      J.decode now token key v = .error e
  signature : ∀ now token header key v, J.decodeHeader token = .ok header →
    v.algorithms = [header.alg] → fits key header.alg = true →
    ¬J.Verifies key header.alg token → J.decode now token key v = .error "InvalidSignature"

theorem missing_marked :
    Str.contains "oidc: no JWK in cache matches `kid` = " "no JWK in cache matches" = true := by
  decide +kernel

theorem retries_missing (kid : String) :
    retries (.invalid s!"oidc: no JWK in cache matches `kid` = {kid}") = true :=
  List.any_eq_true.2 ⟨_, List.mem_cons_of_mem _ List.mem_cons_self,
    Str.contains_append missing_marked kid⟩

theorem retries_signature {e : String} (h : e = "InvalidSignature") :
    retries (.invalid s!"oidc: {e}") = true := by
  subst h
  decide +kernel

theorem not_retries_unfit :
    ∀ e ∈ ["InvalidAlgorithm", "InvalidKeyFormat", "InvalidEcdsaKey"],
      retries (.invalid s!"oidc: {e}") = false := by
  decide +kernel

/-! ## A validation with an older key set -/

section

variable {now : Nat} {token kid : String} {header : Header} {jwks : List J.Jwk} {jwk : J.Jwk}

theorem validateAgainst_missing (hheader : J.decodeHeader token = .ok header)
    (hkid : header.kid = some kid) (hfind : find jwks kid = none) :
    R.validateAgainst now token jwks =
      .error (.invalid s!"oidc: no JWK in cache matches `kid` = {kid}") := by
  simp only [validateAgainst, hheader, Except.mapError, bind, Except.bind, hkid, Option.elim, hfind]

theorem validateAgainst_unbuilt (hheader : J.decodeHeader token = .ok header)
    (hkid : header.kid = some kid) (hfind : find jwks kid = some jwk)
    (halg : allowedAlg header.alg = true) (hkey : J.fromJwk jwk = .error e) :
    R.validateAgainst now token jwks =
      .error (.invalid s!"oidc: cannot build DecodingKey: {e}") := by
  simp only [validateAgainst, hheader, Except.mapError, bind, Except.bind, hkid, Option.elim, hfind,
    halg, not_true, Except.rejectIf, if_false, hkey]

theorem validateAgainst_refused {key : J.Key} (hheader : J.decodeHeader token = .ok header)
    (hkid : header.kid = some kid) (hfind : find jwks kid = some jwk)
    (halg : allowedAlg header.alg = true) (hkey : J.fromJwk jwk = .ok key)
    (hdecode : J.decode now token key (R.validation header.alg) = .error e) :
    R.validateAgainst now token jwks = .error (.invalid s!"oidc: {e}") := by
  simp only [validateAgainst, hheader, Except.mapError, bind, Except.bind, hkid, Option.elim, hfind,
    halg, not_true, Except.rejectIf, if_false, hkey, hdecode]

end

/-- A key set has no key under the token's name, or one that can be used with its algorithm. -/
def Usable (fits : J.Key → Algorithm → Bool) (token : String) (jwks : List J.Jwk) : Prop :=
  ∀ header kid jwk, J.decodeHeader token = .ok header → header.kid = some kid →
    find jwks kid = some jwk → ∃ key, J.fromJwk jwk = .ok key ∧ fits key header.alg = true

section

variable {fits : J.Key → Algorithm → Bool} {now : Nat} {token : String} {current older : List J.Jwk}
  {p : Principal}

/-- A key set that is usable accepts the token or leads to a new one. -/
theorem validateAgainst_usable (hJ : J.Documented) (herr : DocumentedErrors J fits)
    (hvalid : R.validateAgainst now token current = .ok p) (h : Usable fits token older) :
    R.validateAgainst now token older = .ok p ∨
      ∃ e, R.validateAgainst now token older = .error e ∧ retries e = true := by
  obtain ⟨header, kid, jwk, key, claims, hheader, hkid, -, halg, -, hdecode, hp⟩ :=
    validateAgainst_ok_iff.1 hvalid
  have haccepts := (hJ.decode ..).1 hdecode
  cases hfind : find older kid with
  | none =>
    exact .inr ⟨_, validateAgainst_missing hheader hkid hfind, retries_missing kid⟩
  | some jwk' =>
    obtain ⟨key', hkey', hfits⟩ := h header kid jwk' hheader hkid hfind
    by_cases hverifies : J.Verifies key' header.alg token
    · have haccepts' : J.Accepts now token key' (R.validation header.alg) claims :=
        { haccepts with signature := ⟨header, hheader, List.mem_singleton_self _, hverifies⟩ }
      exact .inl (validateAgainst_ok_iff.2 ⟨header, kid, jwk', key', claims, hheader, hkid, hfind,
        halg, hkey', (hJ.decode ..).2 haccepts', hp⟩)
    · have hrefused := herr.signature now token header key' (R.validation header.alg) hheader rfl
        hfits hverifies
      exact .inr ⟨_, validateAgainst_refused hheader hkid hfind halg hkey' hrefused,
        retries_signature rfl⟩

/-- One that is not refuses the token for good. -/
theorem validateAgainst_unusable (herr : DocumentedErrors J fits)
    (hvalid : R.validateAgainst now token current = .ok p) (h : ¬Usable fits token older) :
    ∃ e, R.validateAgainst now token older = .error e ∧ retries e = false := by
  obtain ⟨header, kid, -, -, -, hheader, hkid, -, halg, -⟩ := validateAgainst_ok_iff.1 hvalid
  simp only [Usable, Classical.not_forall] at h
  obtain ⟨header', kid', jwk, hheader', hkid', hfind, hnot⟩ := h
  obtain rfl : header = header' := Except.ok.inj (hheader.symm.trans hheader')
  cases hkey : J.fromJwk jwk with
  | error e =>
    exact ⟨_, validateAgainst_unbuilt hheader hkid' hfind halg hkey, herr.fromJwk jwk e hkey⟩
  | ok key =>
    have hfits : fits key header.alg = false :=
      Bool.eq_false_iff.2 fun hfits => hnot ⟨key, hkey, hfits⟩
    obtain ⟨e, he, hrefused⟩ :=
      herr.unfit now token header key (R.validation header.alg) hheader rfl hfits
    exact ⟨_, validateAgainst_refused hheader hkid' hfind halg hkey hrefused,
      not_retries_unfit e he⟩

end

/-! ## A resolution -/

variable (R B) in
/-- The endpoint answers with a key set. -/
def Answers (w w' : W) (jwks : List J.Jwk) : Prop :=
  ∃ a : Answer (List J.Jwk), B.getJwks R.jwksUri w = (.ok a, w') ∧ a.isStatusError = false ∧
    a.json = .ok jwks

section

variable {w' : W} {s : OidcState J W} {jwks current : List J.Jwk} {token : String} {p : Principal}

theorem jwks_fresh (h : R.fresh B s = some jwks) : (R.jwks B false).run s = ⟨.ok jwks, s, []⟩ := by
  rw [OidcAuthResolver.jwks, run_read_bind, if_neg Bool.false_ne_true, h]
  rfl

theorem jwks_stale (h : R.fresh B s = none) :
    (R.jwks B false).run s = (R.fetchJwks B).run s := by
  rw [OidcAuthResolver.jwks, run_read_bind, if_neg Bool.false_ne_true, h]
  dsimp only
  rw [run_read_bind, if_neg Bool.false_ne_true, h]

theorem jwks_forced : (R.jwks B true).run s = (R.fetchJwks B).run s := rfl

theorem fetchJwks_answers (h : R.Answers B s.world w' jwks) :
    ((R.fetchJwks B).run s).result = .ok jwks ∧ ((R.fetchJwks B).run s).world.world = w' := by
  obtain ⟨a, hget, hstatus, hjson⟩ := h
  have hask : ((ask (fun w => ((B.getJwks R.jwksUri w).1.mapError fun e =>
      .transport s!"oidc: jwks GET {R.jwksUri} failed: {e}", (B.getJwks R.jwksUri w).2)) .getJwks :
      M J W (Answer (List J.Jwk))).run s).result = .ok a := by
    simp only [ask, Traced.call, hget, Except.mapError]
  rw [fetchJwks, run_bind_ok _ hask, hstatus, hjson]
  simp only [ask, Traced.call, hget]
  exact ⟨rfl, rfl⟩

/-- The validation with a key set that the endpoint answers with. -/
theorem validate_end {x : M J W (List J.Jwk)} (hx : (x.run s).result = .ok jwks)
    {f : Result Principal → M J W Principal} :
    ((x >>= fun jwks => R.validateNow B token jwks >>= f).run s).result =
      ((f (R.validateAgainst (B.unixNow (x.run s).world.world) token jwks)).run
        (x.run s).world).result := by
  rw [run_bind_ok _ hx]
  have hnow : ((R.validateNow B token jwks).run (x.run s).world).result =
      .ok (R.validateAgainst (B.unixNow (x.run s).world.world) token jwks) := rfl
  rw [run_bind_ok _ hnow]
  rfl

/-- Without introspection a resolution is the validation. -/
theorem resolve_eq (hintro : R.introspection = none) : R.resolve B token = R.validate B token := by
  unfold resolve introspect
  rw [hintro]
  exact bind_pure _

/-- A resolver accepts a token that is valid under the key set of now exactly if the key set that it
has is too old, or usable. -/
theorem resolve_ok_iff {fits : J.Key → Algorithm → Bool} (hJ : J.Documented)
    (herr : DocumentedErrors J fits) (hintro : R.introspection = none)
    (hanswers : R.Answers B s.world w' current)
    (hnow : R.validateAgainst (B.unixNow s.world) token current = .ok p)
    (hlater : R.validateAgainst (B.unixNow w') token current = .ok p) :
    ((R.resolve B token).run s).result = .ok p ↔
      ∀ cached, R.fresh B s = some cached → Usable fits token cached := by
  obtain ⟨hfetch, hworld⟩ := fetchJwks_answers hanswers
  rw [resolve_eq hintro, validate]
  cases hfresh : R.fresh B s with
  | none =>
    have hjwks : ((R.jwks B false).run s).result = .ok current := jwks_stale hfresh ▸ hfetch
    rw [validate_end hjwks, jwks_stale hfresh, hworld, hlater]
    exact iff_of_true rfl nofun
  | some cached =>
    have hjwks : ((R.jwks B false).run s).result = .ok cached := by rw [jwks_fresh hfresh]
    rw [validate_end hjwks, jwks_fresh hfresh]
    simp only [Option.some.injEq, forall_eq']
    by_cases husable : Usable fits token cached
    · refine iff_of_true ?_ husable
      rcases validateAgainst_usable hJ herr hnow husable with hok | ⟨e, herror, hretries⟩
      · rw [hok]
        rfl
      · have hlatest : ((R.jwks B true).run s).result = .ok current := hfetch
        rw [herror]
        simp only [hretries, if_true]
        rw [validate_end hlatest, jwks_forced, hworld, hlater]
        rfl
    · refine iff_of_false ?_ husable
      obtain ⟨e, herror, hretries⟩ := validateAgainst_unusable herr hnow husable
      rw [herror]
      simp only [hretries]
      exact nofun

end

/-! ## Two rotations -/

theorem sample_errors (table : String → Option Sample.Token) :
    DocumentedErrors (Sample.crate table) fun key alg => key.family = Sample.family alg where
  fromJwk _ _ h := by cases h
  unfit now token header key v hheader halg hfits := by
    obtain ⟨t, ht, rfl⟩ := Sample.decodeHeader_ok table hheader
    exact ⟨_, List.mem_cons_self, Sample.decode_unfit table ht (of_decide_eq_false hfits)⟩
  signature now token header key v hheader halg hfits hverifies := by
    obtain ⟨t, ht, rfl⟩ := Sample.decodeHeader_ok table hheader
    have hfamily := of_decide_eq_true hfits
    refine Sample.decode_unsigned table ht (halg ▸ List.mem_singleton_self _) hfamily ?_
    exact fun hkey => hverifies ⟨t, ht, hkey, rfl, hfamily⟩

def rotatingResolver : OidcAuthResolver Unit :=
  { sampleResolver with introspection := none }

/-- The name of the first key is given to a second one. -/
def rotatedKey (family : Sample.Family) : Sample.Key := { name := "second", family }

def rotatedTable (token : String) : Option Sample.Token :=
  if token = "old" then
    some
      { header := { alg := .rs256, kid := some "k1" }
        key := rsaKey
        claims := sampleClaims (.string "https://idp") }
  else if token = "rsa" then
    some
      { header := { alg := .rs256, kid := some "k1" }
        key := rotatedKey .rsa
        claims := sampleClaims (.string "https://idp") }
  else if token = "ec" then
    some
      { header := { alg := .es256, kid := some "k1" }
        key := rotatedKey .ec
        claims := sampleClaims (.string "https://idp") }
  else none

/-- The key set is another one from the time 500 on. -/
def rotatingIssuer (family : Sample.Family) : OidcBackend (Sample.crate rotatedTable) Unit Nat :=
  { sampleBackend rotatedTable [] with
    getJwks := fun _ now =>
      (.ok
        { status := 200
          json := .ok [{ kid := some "k1", key := if now < 500 then rsaKey else rotatedKey family }] },
        now) }

/-- The resolver has the first key set in its cache. -/
def staleState : OidcState (Sample.crate rotatedTable) Nat :=
  { world := 600, cache := some ⟨[{ kid := some "k1", key := rsaKey }], 400000000000⟩ }

theorem rsa_rotation_overcome :
    ((rotatingResolver.resolve (rotatingIssuer .rsa) "rsa").run staleState).result =
      .ok { tenantId := "acme", userId := "alice" } := by
  refine (resolve_ok_iff (Sample.crate_documented rotatedTable) (sample_errors rotatedTable) rfl
    ⟨_, rfl, rfl, rfl⟩ rfl rfl).2 fun cached hcached header kid jwk hheader hkid hfind => ?_
  have hfresh : rotatingResolver.fresh (rotatingIssuer .rsa) staleState =
      some [{ kid := some "k1", key := rsaKey }] := by
    simp [fresh, staleState, rotatingIssuer, sampleBackend, rotatingResolver, sampleResolver]
  obtain rfl := Option.some.inj (hfresh.symm.trans hcached)
  have hrs256 : (Sample.crate rotatedTable).decodeHeader "rsa" =
      .ok { alg := .rs256, kid := some "k1" } := rfl
  obtain rfl := Except.ok.inj (hrs256.symm.trans hheader)
  cases hkid
  cases hfind
  exact ⟨_, rfl, rfl⟩

theorem stale_reached : ∃ h, Reached rotatingResolver (rotatingIssuer .ec) h staleState := by
  have hold : ((rotatingResolver.resolve (rotatingIssuer .ec) "old").run { world := 400 }).world =
      { staleState with world := 400 } := rfl
  have hreached := (Reached.start (R := rotatingResolver) (B := rotatingIssuer .ec) 400).resolve "old"
  rw [hold] at hreached
  exact ⟨_, hreached.elapse 600⟩

/-- A token that the new key set validates is refused: the cached key is of another kind. -/
theorem ec_rotation_refused :
    (∃ h, Reached rotatingResolver (rotatingIssuer .ec) h staleState) ∧
      (∃ p, rotatingResolver.validateAgainst (J := Sample.crate rotatedTable) 600 "ec"
        [{ kid := some "k1", key := rotatedKey .ec }] = .ok p) ∧
      rotatingResolver.Answers (rotatingIssuer .ec) 600 600
        [{ kid := some "k1", key := rotatedKey .ec }] ∧
      ((rotatingResolver.resolve (rotatingIssuer .ec) "ec").run staleState).result =
        .error (.invalid "oidc: InvalidAlgorithm") :=
  ⟨stale_reached, ⟨{ tenantId := "acme", userId := "alice" }, rfl⟩, ⟨_, rfl, rfl, rfl⟩, rfl⟩

end Tako.Auth.OidcAuthResolver
