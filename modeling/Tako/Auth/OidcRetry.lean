import Tako.Auth.OidcIssuer

/-!
# When an introspection is sent again

After a POST that fails, `introspect` refreshes the mTLS identity and sends the POST once more. Its
guard asks whether there is an mTLS client, which a configuration may have without a method that
uses it.
-/

namespace Tako.Auth.OidcAuthResolver

open Traced

variable {J : Jsonwebtoken} {κ W : Type} {R : OidcAuthResolver κ} {B : OidcBackend J κ W}

/-! ## The law -/

/-- A POST that came to `r` calls for a refresh and a second POST. -/
structure RefreshDue (R : OidcAuthResolver κ) (cfg : IntrospectionConfig κ)
    (r : Result (Answer Bool)) : Prop where
  transport : ∃ e, r = .error (.transport e)
  hook : R.mtlsRefreshHook = true
  mtls : cfg.authMethod = .tlsClientAuth ∨ cfg.authMethod = .selfSignedTlsClientAuth

variable (R B) in
/-- What an introspection may do and come to: no POST, if there is nothing to ask or a credential is
missing; or one; or two with one refresh between them. The last POST determines the result. -/
inductive RetryLaw : List (OidcAct J) → Result Unit → Prop
  | unsent : (res = .ok () → R.introspection = none) → RetryLaw [] res
  | once : R.introspection = some cfg → ¬RefreshDue R cfg r →
    RetryLaw [.introspect req r] (r >>= checkActive B)
  | twice : R.introspection = some cfg → RefreshDue R cfg r →
    RetryLaw [.introspect req r, .forceRefresh h, .introspect req r'] (r' >>= checkActive B)

/-! ## A POST -/

def introspectRequest (cfg : IntrospectionConfig κ) (form : List (String × String)) :
    IntrospectRequest where
  uri := cfg.introspectUri
  form
  basicAuth :=
    if cfg.authMethod = .clientSecretBasic then some (cfg.clientId, cfg.clientSecret) else none
  mtls := (mtlsMethodName cfg.authMethod).isSome && cfg.mtlsClient

variable (B) in
/-- The endpoint is not reached: the first POST for the token, sent in the state `s`, fails. -/
def PostFails (cfg : IntrospectionConfig κ) (token : String) (s : OidcState J W) : Prop :=
  ∃ jwt, ((assertion B cfg : M J W (Option String)).run s).result = .ok jwt ∧
    ∃ e, (B.introspect (introspectRequest cfg (introspectForm cfg jwt token)) s.world).1 = .error e

variable (R B) in
/-- The tokens that are sent again without an mTLS method. -/
structure ResentPlain (cfg : IntrospectionConfig κ) (token : String) (s : OidcState J W) :
    Prop where
  hook : R.mtlsRefreshHook = true
  client : cfg.mtlsClient = true
  method : mtlsMethodName cfg.authMethod = none
  fails : PostFails B cfg token s

variable {cfg : IntrospectionConfig κ} {form : List (String × String)} {token : String}
  {s : OidcState J W}

theorem mtlsMethodName_eq_none {method : IntrospectionAuthMethod} :
    mtlsMethodName method = none ↔
      ¬(method = .tlsClientAuth ∨ method = .selfSignedTlsClientAuth) := by
  cases method <;> simp [mtlsMethodName]

/-- Making a client assertion leaves everything as it is. -/
theorem assertion_run (cfg : IntrospectionConfig κ) (s : OidcState J W) :
    (assertion B cfg : M J W (Option String)).run s =
      ⟨((assertion B cfg : M J W (Option String)).run s).result, s, []⟩ := by
  obtain ⟨htrace, hworld⟩ := assertion_spec (B := B) (J := J)
    (P := fun l s' => l = [] ∧ s' = s) cfg [] s ⟨rfl, rfl⟩
  rw [List.nil_append] at htrace
  calc (assertion B cfg : M J W (Option String)).run s
      = ⟨((assertion B cfg : M J W (Option String)).run s).result,
          ((assertion B cfg : M J W (Option String)).run s).world,
          ((assertion B cfg : M J W (Option String)).run s).trace⟩ := rfl
    _ = _ := by rw [hworld, htrace]

/-- What comes of a POST in the state `s`. -/
def posted (B : OidcBackend J κ W) (cfg : IntrospectionConfig κ) (form : List (String × String))
    (s : OidcState J W) : Result (Answer Bool) :=
  (B.introspect (introspectRequest cfg form) s.world).1.mapError fun e =>
    .transport s!"oidc: introspect POST {cfg.introspectUri}: {e}"

def afterPost (B : OidcBackend J κ W) (cfg : IntrospectionConfig κ) (form : List (String × String))
    (s : OidcState J W) : OidcState J W :=
  { s with world := (B.introspect (introspectRequest cfg form) s.world).2 }

theorem introspectSendOnce_run (cfg : IntrospectionConfig κ) (form : List (String × String))
    (s : OidcState J W) :
    (introspectSendOnce B cfg form).run s =
      ⟨posted B cfg form s, afterPost B cfg form s,
        [.introspect (introspectRequest cfg form) (posted B cfg form s)]⟩ := rfl

theorem posted_error_iff : (∃ e, posted B cfg form s = .error e) ↔
    ∃ e, (B.introspect (introspectRequest cfg form) s.world).1 = .error e := by
  simp only [posted, Except.mapError_eq_error]
  constructor
  · rintro ⟨-, e, he, -⟩
    exact ⟨e, he⟩
  · rintro ⟨e, he⟩
    exact ⟨_, e, he, rfl⟩

/-- A POST fails with a transport error, if it fails. -/
theorem posted_transport (h : posted B cfg form s = .error e) : ∃ msg, e = .transport msg := by
  obtain ⟨e', -, rfl⟩ := Except.mapError_eq_error.1 h
  exact ⟨_, rfl⟩

/-! ## One or two POSTs -/

theorem introspectSend_once (h : ∀ e, posted B cfg form s = .error e →
      (R.mtlsRefreshHook && cfg.mtlsClient) = false) :
    (introspectSend R B cfg form).run s =
      ⟨posted B cfg form s, afterPost B cfg form s,
        [.introspect (introspectRequest cfg form) (posted B cfg form s)]⟩ := by
  rw [introspectSend, run_bind_ok (a := posted B cfg form s) _ rfl]
  cases hr : posted B cfg form s with
  | ok a =>
    dsimp only [Traced.attempt]
    rw [introspectSendOnce_run, hr]
    rfl
  | error e =>
    obtain ⟨msg, rfl⟩ := posted_transport hr
    have hretry : R.shouldRetryWithRefresh cfg (.transport msg) = false := h _ hr
    dsimp only [Traced.attempt]
    rw [introspectSendOnce_run, hr, hretry]
    rfl

/-- After a failed POST the identity is refreshed, and a second POST is sent in the state `s'` that
the refresh leaves. -/
theorem introspectSend_twice (hr : posted B cfg form s = .error e)
    (h : (R.mtlsRefreshHook && cfg.mtlsClient) = true) :
    ∃ refresh s', (introspectSend R B cfg form).run s =
      ⟨posted B cfg form s', afterPost B cfg form s',
        [.introspect (introspectRequest cfg form) (posted B cfg form s), .forceRefresh refresh,
          .introspect (introspectRequest cfg form) (posted B cfg form s')]⟩ := by
  obtain ⟨msg, rfl⟩ := posted_transport hr
  have hretry : R.shouldRetryWithRefresh cfg (.transport msg) = true := h
  rw [introspectSend, run_bind_ok (a := posted B cfg form s) _ rfl, hr]
  dsimp only [Traced.attempt]
  rw [introspectSendOnce_run, hr, hretry]
  exact ⟨_, _, rfl⟩

/-- With a client assertion and a client, the form is sent. -/
theorem introspect_sent (hcfg : R.introspection = some cfg)
    (hjwt : ((assertion B cfg : M J W (Option String)).run s).result = .ok jwt)
    (hclient : mtlsMethodName cfg.authMethod ≠ none → cfg.mtlsClient = true) :
    (R.introspect B token).run s =
      (introspectSend R B cfg (introspectForm cfg jwt token) >>= fun resp =>
        .ofExcept (checkActive B resp)).run s := by
  have hrun := assertion_run (B := B) cfg s
  rw [hjwt] at hrun
  rw [introspect, hcfg]
  dsimp only
  rw [run_bind_ok (a := jwt) _ (by rw [hrun]), hrun]
  cases hname : mtlsMethodName cfg.authMethod with
  | none => rfl
  | some name =>
    have hclient : cfg.mtlsClient = true := hclient (by rw [hname]; nofun)
    dsimp only
    rw [hclient]
    rfl

theorem introspect_unsent (token : String) (hcfg : R.introspection = some cfg)
    (h : (∃ e, ((assertion B cfg : M J W (Option String)).run s).result = .error e) ∨
      mtlsMethodName cfg.authMethod ≠ none ∧ cfg.mtlsClient = false) :
    ∃ e, (R.introspect B token).run s = ⟨.error e, s, []⟩ := by
  have hrun := assertion_run (B := B) cfg s
  rw [introspect, hcfg]
  dsimp only
  cases hjwt : ((assertion B cfg : M J W (Option String)).run s).result with
  | error e =>
    rw [run_bind_error _ hjwt, hrun]
    exact ⟨e, rfl⟩
  | ok jwt =>
    rw [hjwt] at hrun h
    rcases h with ⟨e, he⟩ | ⟨hname, hclient⟩
    · cases he
    · obtain ⟨name, hname⟩ := Option.ne_none_iff_exists'.1 hname
      rw [run_bind_ok (a := jwt) _ (by rw [hrun]), hrun, hname, hclient]
      exact ⟨_, rfl⟩

/-! ## When the law holds -/

theorem RetryLaw.due {res : Result Unit}
    (h : RetryLaw R B [.introspect req r, .forceRefresh refresh, .introspect req' r'] res)
    (hcfg : R.introspection = some cfg) : RefreshDue R cfg r := by
  cases h with
  | twice hcfg' hdue =>
    rw [hcfg] at hcfg'
    cases hcfg'
    exact hdue

theorem run_bind_ofExcept {α β : Type} {x : M J W α} {f : α → Result β} (s : OidcState J W) :
    (x >>= fun a => .ofExcept (f a) : M J W β).run s =
      ⟨(x.run s).result >>= f, (x.run s).world, (x.run s).trace⟩ := by
  cases hx : (x.run s).result with
  | ok a => rw [run_bind_ok _ hx, run_ofExcept, List.append_nil]; rfl
  | error e => rw [run_bind_error _ hx]; rfl

/-- A form that is sent obeys the law, unless it is one that is sent again without an mTLS
method. -/
theorem retryLaw_of_sent (hcfg : R.introspection = some cfg)
    (hjwt : ((assertion B cfg : M J W (Option String)).run s).result = .ok jwt)
    (hclient : mtlsMethodName cfg.authMethod ≠ none → cfg.mtlsClient = true) :
    RetryLaw R B ((R.introspect B token).run s).trace ((R.introspect B token).run s).result ↔
      ¬ResentPlain R B cfg token s := by
  have hfails : PostFails B cfg token s ↔
      ∃ e, posted B cfg (introspectForm cfg jwt token) s = .error e := by
    rw [posted_error_iff]
    constructor
    · rintro ⟨jwt', hjwt', he⟩
      rwa [Except.ok.inj (hjwt'.symm.trans hjwt)] at he
    · exact fun he => ⟨jwt, hjwt, he⟩
  rw [introspect_sent hcfg hjwt hclient, run_bind_ofExcept]
  by_cases hretry : (∃ e, posted B cfg (introspectForm cfg jwt token) s = .error e) ∧
      (R.mtlsRefreshHook && cfg.mtlsClient) = true
  · obtain ⟨⟨e, he⟩, hguard⟩ := hretry
    obtain ⟨hhook, hhas⟩ := Bool.and_eq_true_iff.1 hguard
    obtain ⟨msg, rfl⟩ := posted_transport he
    obtain ⟨refresh, s', hrun⟩ := introspectSend_twice he hguard
    rw [hrun]
    constructor
    · intro hlaw hplain
      exact mtlsMethodName_eq_none.1 hplain.method (hlaw.due hcfg).mtls
    · intro hplain
      refine .twice hcfg ⟨⟨msg, he⟩, hhook, Decidable.not_not.1 fun hmtls => hplain ?_⟩
      exact ⟨hhook, hhas, mtlsMethodName_eq_none.2 hmtls, hfails.2 ⟨_, he⟩⟩
  · rw [introspectSend_once fun e he => Bool.eq_false_iff.2 fun hguard => hretry ⟨⟨e, he⟩, hguard⟩]
    refine iff_of_true (.once hcfg fun hdue => ?_) fun hplain => ?_
    · obtain ⟨msg, he⟩ := hdue.transport
      have hname : mtlsMethodName cfg.authMethod ≠ none :=
        fun hname => mtlsMethodName_eq_none.1 hname hdue.mtls
      exact hretry ⟨⟨_, he⟩, Bool.and_eq_true_iff.2 ⟨hdue.hook, hclient hname⟩⟩
    · exact hretry ⟨hfails.1 hplain.fails, Bool.and_eq_true_iff.2 ⟨hplain.hook, hplain.client⟩⟩

/-- In every configuration and whatever the endpoint and the hook answer: an introspection obeys the
law, unless its POST fails while there are a hook and an mTLS client that the method does not
use. -/
theorem introspect_retryLaw_iff (R : OidcAuthResolver κ) (B : OidcBackend J κ W) (token : String)
    (s : OidcState J W) :
    RetryLaw R B ((R.introspect B token).run s).trace ((R.introspect B token).run s).result ↔
      ∀ cfg, R.introspection = some cfg → ¬ResentPlain R B cfg token s := by
  cases hcfg : R.introspection with
  | none =>
    have hrun : (R.introspect B token).run s = ⟨.ok (), s, []⟩ := by
      rw [introspect, hcfg]
      rfl
    rw [hrun]
    exact iff_of_true (.unsent fun _ => hcfg) nofun
  | some cfg =>
    have hone : (∀ cfg', some cfg = some cfg' → ¬ResentPlain R B cfg' token s) ↔
        ¬ResentPlain R B cfg token s :=
      ⟨fun h => h cfg rfl, fun h cfg' heq => Option.some.inj heq ▸ h⟩
    rw [hone]
    cases hjwt : ((assertion B cfg : M J W (Option String)).run s).result with
    | error e =>
      obtain ⟨e', hrun⟩ := introspect_unsent token hcfg (.inl ⟨e, hjwt⟩)
      rw [hrun]
      refine iff_of_true (.unsent nofun) fun hplain => ?_
      obtain ⟨jwt, hjwt', -⟩ := hplain.fails
      rw [hjwt] at hjwt'
      cases hjwt'
    | ok jwt =>
      by_cases hclient : mtlsMethodName cfg.authMethod ≠ none → cfg.mtlsClient = true
      · exact retryLaw_of_sent hcfg hjwt hclient
      · obtain ⟨hname, hclient⟩ := Classical.not_imp.1 hclient
        obtain ⟨e, hrun⟩ := introspect_unsent (B := B) (s := s) token hcfg
          (.inr ⟨hname, Bool.eq_false_iff.2 hclient⟩)
        rw [hrun]
        exact iff_of_true (.unsent nofun) fun hplain => hname hplain.method

/-! ## A client that is not used -/

/-- The issuer of the examples, whose introspection endpoint is not reached. -/
abbrev sampleUnreached : OidcBackend (Sample.crate sampleTable) Unit Nat :=
  { sampleIssuer with introspect := fun _ now => (.error "connection reset", now) }

def sampleBuilders : List (ConfiguredResolver.Builder Unit) :=
  [.introspectionUri "https://idp/introspect" "tako" (some "s"), .mtls [] [],
    .authMethod .clientSecretBasic, .mtlsRefreshHook]

def sampleConfigured : ConfiguredResolver Unit :=
  { ConfiguredResolver.sampleDiscovered "https://idp" with
    introspection := some
      { introspectUri := "https://idp/introspect", clientId := "tako", clientSecret := some "s"
        mtlsClient := true }
    mtlsRefreshHook := true }

/-- Configured for mTLS and then for a secret, a resolver sends the secret twice. -/
theorem plain_sent_again :
    ConfiguredResolver.configure
        (ConfiguredResolver.sampleSetup ConfiguredResolver.sampleDoc)
        (ConfiguredResolver.sampleDiscovered "https://idp") sampleBuilders =
      .ok sampleConfigured ∧
    ((sampleConfigured.introspect sampleUnreached "single").run { world := 900 }).trace.length = 3 ∧
    ¬RetryLaw sampleConfigured.toOidcAuthResolver sampleUnreached
      ((sampleConfigured.introspect sampleUnreached "single").run { world := 900 }).trace
      ((sampleConfigured.introspect sampleUnreached "single").run { world := 900 }).result := by
  refine ⟨rfl, rfl, fun hlaw => ?_⟩
  have hdue := hlaw.due rfl
  rcases hdue.mtls with h | h <;> cases h

end Tako.Auth.OidcAuthResolver
