import Mathlib.Data.List.Induction
import Tako.Auth.Sample

/-!
# Tokens signed with a configured key

`JwtAuthResolver` (`tako-compat/src/auth/jwt.rs`). A configured audience or issuer is handed to
`jsonwebtoken`, but only `exp` is ever made a required claim. So a token without the claim passes.
-/

namespace Tako.Auth

structure JwtAuthResolver (J : Jsonwebtoken) where
  decodingKey : J.Key
  validation : Validation
  claims : ClaimNames := {}

namespace JwtAuthResolver

variable {J : Jsonwebtoken}

def withAlg (alg : Algorithm) (key : J.Key) : JwtAuthResolver J where
  decodingKey := key
  validation := { Validation.new alg with requiredSpecClaims := ["exp"] }

def hs256 (fromSecret : List UInt8 → J.Key) (secret : List UInt8) : JwtAuthResolver J :=
  withAlg .hs256 (fromSecret secret)

def rs256FromPem (fromRsaPem : List UInt8 → Except String J.Key) (pem : List UInt8) :
    Result (JwtAuthResolver J) := do
  let key ← (fromRsaPem pem).mapError fun e => .invalid s!"jwt: invalid RS256 key: {e}"
  .ok (withAlg .rs256 key)

def es256FromPem (fromEcPem : List UInt8 → Except String J.Key) (pem : List UInt8) :
    Result (JwtAuthResolver J) := do
  let key ← (fromEcPem pem).mapError fun e => .invalid s!"jwt: invalid ES256 key: {e}"
  .ok (withAlg .es256 key)

variable (R : JwtAuthResolver J)

def withAudience (aud : String) : JwtAuthResolver J :=
  { R with validation := R.validation.setAudience [aud] }

def withIssuer (iss : String) : JwtAuthResolver J :=
  { R with validation := R.validation.setIssuer [iss] }

def withClaims (tenant user roles : String) : JwtAuthResolver J :=
  { R with claims := { tenant, user, roles } }

def resolve (now : Nat) (token : String) : Result Principal := do
  let claims ← (J.decode now token R.decodingKey R.validation).mapError fun e =>
    .invalid s!"jwt: {e}"
  principalFromClaims "jwt" R.claims claims

/-! ## Building a resolver -/

/-- A call of a builder method. -/
inductive Builder where
  | audience (aud : String)
  | issuer (iss : String)
  | claims (tenant user roles : String)

def Builder.apply (R : JwtAuthResolver J) : Builder → JwtAuthResolver J
  | audience aud => R.withAudience aud
  | issuer iss => R.withIssuer iss
  | claims tenant user roles => R.withClaims tenant user roles

/-- The builder methods in a row. -/
def build (alg : Algorithm) (key : J.Key) (calls : List Builder) : JwtAuthResolver J :=
  calls.foldl Builder.apply (withAlg alg key)

def Builder.asAudience : Builder → Option String
  | audience aud => some aud
  | _ => none

def Builder.asIssuer : Builder → Option String
  | issuer iss => some iss
  | _ => none

/-- The configured audience: each call overwrites the one before. -/
def audienceOf (calls : List Builder) : Option String :=
  (calls.filterMap Builder.asAudience).getLast?

/-- The configured issuer. -/
def issuerOf (calls : List Builder) : Option String :=
  (calls.filterMap Builder.asIssuer).getLast?

/-- The order of the calls does not matter, and none of them makes a claim required. -/
theorem build_spec (alg : Algorithm) (key : J.Key) (calls : List Builder) :
    (build alg key calls).decodingKey = key ∧
      (build alg key calls).validation =
        { Validation.new alg with
          aud := (audienceOf calls).map ([·])
          iss := (issuerOf calls).map ([·]) } := by
  induction calls using List.reverseRecOn with
  | nil => exact ⟨rfl, rfl⟩
  | append_singleton calls call ih =>
    unfold build audienceOf issuerOf at *
    rw [List.foldl_append, List.filterMap_append, List.filterMap_append]
    obtain ⟨hkey, hvalidation⟩ := ih
    cases call with
    | audience aud =>
      refine ⟨hkey, ?_⟩
      simp [Builder.apply, withAudience, Validation.setAudience, hvalidation, Builder.asAudience,
        Builder.asIssuer]
    | issuer iss =>
      refine ⟨hkey, ?_⟩
      simp [Builder.apply, withIssuer, Validation.setIssuer, hvalidation, Builder.asAudience,
        Builder.asIssuer]
    | claims tenant user roles =>
      refine ⟨hkey, ?_⟩
      simp [Builder.apply, withClaims, hvalidation, Builder.asAudience, Builder.asIssuer]

/-! ## What a configured claim is worth -/

variable (J) in
/-- A correctly signed and unexpired token. -/
structure Signed (now : Nat) (alg : Algorithm) (key : J.Key) (token : String) (claims : Claims) :
    Prop where
  signature : ∃ header, J.decodeHeader token = .ok header ∧ header.alg = alg ∧
    J.Verifies key header.alg token
  payload : J.payload token = some claims
  exp : ∃ value, claims.lookup "exp" = some value ∧ J.reads "exp" value = true ∧
    ∀ t, J.seconds value = some t → now < t

/-- The token has the configured audience among its audiences and the configured issuer. -/
structure Checked (calls : List Builder) (claims : Claims) : Prop where
  aud : ∀ a ∈ audienceOf calls, ∃ value, claims.lookup "aud" = some value ∧ Names value a
  iss : ∀ i ∈ issuerOf calls, claims.lookup "iss" = some (.string i)

variable (J) in
/-- The token omits no configured claim: it has an audience that can be read or is the configured
one, and an issuer that is a string. -/
structure Carries (calls : List Builder) (claims : Claims) : Prop where
  aud : ∀ a ∈ audienceOf calls, ∃ value, claims.lookup "aud" = some value ∧
    (J.reads "aud" value = true ∨ Names value a)
  iss : ∀ i ∈ issuerOf calls, ∃ s, claims.lookup "iss" = some (.string s)

variable (J) in
/-- The token is refused for a claim that it has, or for its tenant or user. -/
inductive Refused (calls : List Builder) (names : ClaimNames) (claims : Claims) : Prop
  | tenant : (∀ s, claims.lookup names.tenant ≠ some (.string s)) → Refused calls names claims
  | user : (∀ s, claims.lookup names.user ≠ some (.string s)) → Refused calls names claims
  | issuer : i ∈ issuerOf calls → claims.lookup "iss" = some value →
    J.reads "iss" value = true → ¬Names value i → Refused calls names claims
  | audience : a ∈ audienceOf calls → claims.lookup "aud" = some value →
    J.reads "aud" value = true → ¬Names value a → Refused calls names claims
  | unexpected : audienceOf calls = none → claims.lookup "aud" = some value →
    J.reads "aud" value = true → value ≠ .array [] → Refused calls names claims

variable {now : Nat} {alg : Algorithm} {key : J.Key} {token : String} {claims : Claims}
  {calls : List Builder}

/-- What acceptance comes down to for a correctly signed token. -/
theorem resolve_ok (hJ : J.Documented) (hsigned : Signed J now alg key token claims)
    {p : Principal} :
    (build alg key calls).resolve now token = .ok p ↔
      J.Accepts now token key (build alg key calls).validation claims ∧
        PrincipalOf (build alg key calls).claims claims p := by
  unfold resolve
  rw [(build_spec alg key calls).1, Except.bind_eq_ok]
  constructor
  · rintro ⟨claims', hdecode, hp⟩
    have haccepts := (hJ.decode ..).1 (Except.mapError_eq_ok.1 hdecode)
    obtain rfl : claims' = claims :=
      Option.some.inj (haccepts.payload.symm.trans hsigned.payload)
    exact ⟨haccepts, principalFromClaims_ok_iff.1 hp⟩
  · rintro ⟨haccepts, hp⟩
    exact ⟨claims, Except.mapError_eq_ok.2 ((hJ.decode ..).2 haccepts),
      principalFromClaims_ok_iff.2 hp⟩

theorem accepts_of_not_refused (hsigned : Signed J now alg key token claims)
    (h : ¬Refused J calls names claims) :
    J.Accepts now token key (build alg key calls).validation claims := by
  obtain ⟨header, hheader, halg, hverifies⟩ := hsigned.signature
  obtain ⟨exp, hexp, hreads, hlater⟩ := hsigned.exp
  rw [(build_spec alg key calls).2]
  refine ⟨⟨header, hheader, halg ▸ List.mem_singleton_self alg, hverifies⟩, hsigned.payload, ?_,
    ?_, ?_, ?_⟩
  · intro name hname
    rw [List.mem_singleton.1 hname]
    exact ⟨exp, hexp, hreads⟩
  · intro value t hvalue ht
    cases hexp.symm.trans hvalue
    exact Nat.le_trans (Nat.le_of_lt (hlater t ht)) (Nat.le_add_right t _)
  · intro allowed hallowed value hvalue hread
    obtain ⟨i, hi, rfl⟩ := Option.map_eq_some_iff.1 hallowed
    refine ⟨i, List.mem_singleton_self i, Classical.byContradiction fun hnot => h ?_⟩
    exact .issuer hi hvalue hread hnot
  · intro value hvalue hread
    refine ⟨fun allowed hallowed => ?_, fun hnone => ?_⟩
    · obtain ⟨a, ha, rfl⟩ := Option.map_eq_some_iff.1 hallowed
      refine ⟨a, List.mem_singleton_self a, Classical.byContradiction fun hnot => h ?_⟩
      exact .audience ha hvalue hread hnot
    · refine Classical.byContradiction fun hnot => h ?_
      exact .unexpected (Option.map_eq_none_iff.1 hnone) hvalue hread hnot

theorem not_refused_of_accepts {names : ClaimNames}
    (h : J.Accepts now token key (build alg key calls).validation claims)
    (hp : PrincipalOf names claims p) : ¬Refused J calls names claims := by
  rw [(build_spec alg key calls).2] at h
  intro hrefused
  cases hrefused with
  | tenant hnot => exact hnot _ hp.tenant
  | user hnot => exact hnot _ hp.user
  | issuer hi hvalue hread hnot =>
    obtain ⟨i', hi', hnames⟩ := h.iss _ (Option.map_eq_some_iff.2 ⟨_, hi, rfl⟩) _ hvalue hread
    rw [List.mem_singleton.1 hi'] at hnames
    exact hnot hnames
  | audience ha hvalue hread hnot =>
    obtain ⟨a', ha', hnames⟩ :=
      (h.aud _ hvalue hread).1 _ (Option.map_eq_some_iff.2 ⟨_, ha, rfl⟩)
    rw [List.mem_singleton.1 ha'] at hnames
    exact hnot hnames
  | unexpected hnone hvalue hread hnot =>
    exact hnot ((h.aud _ hvalue hread).2 (Option.map_eq_none_iff.2 hnone))

theorem exists_principal {names : ClaimNames} (h : ¬Refused J calls names claims) :
    ∃ p, PrincipalOf names claims p := by
  obtain ⟨tenantId, htenant⟩ : ∃ s, claims.lookup names.tenant = some (.string s) :=
    Classical.byContradiction fun hnot => h (.tenant (not_exists.1 hnot))
  obtain ⟨userId, huser⟩ : ∃ s, claims.lookup names.user = some (.string s) :=
    Classical.byContradiction fun hnot => h (.user (not_exists.1 hnot))
  exact ⟨{ tenantId, userId, roles := rolesClaim claims names.roles }, htenant, huser, rfl, rfl,
    rfl⟩

/-- A configured claim is checked in every correctly signed token exactly if the token carries it or
is refused for another reason. -/
theorem resolve_checks_iff (hJ : J.Documented) (hsigned : Signed J now alg key token claims) :
    (∀ p, (build alg key calls).resolve now token = .ok p → Checked calls claims) ↔
      Carries J calls claims ∨ Refused J calls (build alg key calls).claims claims := by
  constructor
  · intro h
    refine Classical.or_iff_not_imp_right.2 fun hrefused => ?_
    obtain ⟨p, hp⟩ := exists_principal hrefused
    have hchecked := h p ((resolve_ok hJ hsigned).2 ⟨accepts_of_not_refused hsigned hrefused, hp⟩)
    refine ⟨fun a ha => ?_, fun i hi => ⟨i, hchecked.iss i hi⟩⟩
    obtain ⟨value, hvalue, hnames⟩ := hchecked.aud a ha
    exact ⟨value, hvalue, .inr hnames⟩
  · intro h p hresolve
    obtain ⟨haccepts, hp⟩ := (resolve_ok hJ hsigned).1 hresolve
    have hnot := not_refused_of_accepts haccepts hp
    have hcarries := h.resolve_right hnot
    refine ⟨fun a ha => ?_, fun i hi => ?_⟩
    · obtain ⟨value, hvalue, hread | hnames⟩ := hcarries.aud a ha
      · exact ⟨value, hvalue, Classical.byContradiction fun hn =>
          hnot (.audience ha hvalue hread hn)⟩
      · exact ⟨value, hvalue, hnames⟩
    · obtain ⟨s, hs⟩ := hcarries.iss i hi
      have hnames : Names (.string s) i := Classical.byContradiction fun hn =>
        hnot (.issuer hi hs (hJ.reads_string s).1 hn)
      rcases hnames with heq | ⟨items, hitems, -⟩
      · rw [hs, heq]
      · cases hitems

/-- A resolver with an audience and an issuer. -/
def sampleCalls : List Builder := [.issuer "https://idp", .audience "tako-api"]

def sampleKey : Sample.Key := { name := "secret", family := .hmac }

/-- A token with an audience and an issuer, and one without. -/
def sampleTable (token : String) : Option Sample.Token :=
  if token = "complete" then
    some
      { header := { alg := .hs256 }
        key := sampleKey
        claims :=
          [("aud", .string "tako-api"), ("exp", .ofU64 2000), ("iss", .string "https://idp"),
            ("sub", .string "alice"), ("tenant_id", .string "acme")] }
  else if token = "bare" then
    some
      { header := { alg := .hs256 }
        key := sampleKey
        claims := [("exp", .ofU64 2000), ("sub", .string "alice"), ("tenant_id", .string "acme")] }
  else none

theorem sample_signed {token : String} {t : Sample.Token} (ht : sampleTable token = some t)
    (halg : t.header.alg = .hs256) (hkey : sampleKey = t.key)
    (hexp : t.claims.lookup "exp" = some (.ofU64 2000)) :
    Signed (Sample.crate sampleTable) 1000 .hs256 sampleKey token t.claims where
  signature :=
    ⟨t.header, by simp only [Sample.crate, ht], halg, t, ht, hkey, rfl, by rw [halg]; rfl⟩
  payload := congrArg (Option.map Sample.Token.claims) ht
  exp := ⟨_, hexp, rfl, fun t ht => by cases ht; decide⟩

theorem complete_token_checked :
    (build (J := Sample.crate sampleTable) .hs256 sampleKey sampleCalls).resolve 1000 "complete" =
        .ok { tenantId := "acme", userId := "alice" } ∧
      Checked sampleCalls
        [("aud", .string "tako-api"), ("exp", .ofU64 2000), ("iss", .string "https://idp"),
          ("sub", .string "alice"), ("tenant_id", .string "acme")] := by
  have hresolve : (build (J := Sample.crate sampleTable) .hs256 sampleKey sampleCalls).resolve 1000
      "complete" = .ok { tenantId := "acme", userId := "alice" } := rfl
  refine ⟨hresolve, (resolve_checks_iff (Sample.crate_documented sampleTable)
    (sample_signed (t := ⟨_, _, _⟩) rfl rfl rfl rfl)).2 (.inl ⟨fun a ha => ?_, fun i hi => ?_⟩) _
    hresolve⟩
  · exact ⟨_, rfl, .inl rfl⟩
  · exact ⟨_, rfl⟩

/-- A token that says nothing of an audience or an issuer is accepted. -/
theorem bare_token_accepted :
    Signed (Sample.crate sampleTable) 1000 .hs256 sampleKey "bare"
        [("exp", .ofU64 2000), ("sub", .string "alice"), ("tenant_id", .string "acme")] ∧
      (build (J := Sample.crate sampleTable) .hs256 sampleKey sampleCalls).resolve 1000 "bare" =
        .ok { tenantId := "acme", userId := "alice" } ∧
      ¬Checked sampleCalls
        [("exp", .ofU64 2000), ("sub", .string "alice"), ("tenant_id", .string "acme")] := by
  refine ⟨sample_signed (t := ⟨_, _, _⟩) rfl rfl rfl rfl, rfl, fun h => ?_⟩
  obtain ⟨value, hvalue, -⟩ := h.aud "tako-api" rfl
  cases hvalue

end JwtAuthResolver

end Tako.Auth
