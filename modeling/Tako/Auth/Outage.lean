import Tako.Auth.Chained
import Tako.Auth.OidcSoundness
import Tako.Auth.Vault

/-!
# Outages of the backends

What a resolution that ends with an outage returns: an error of the transport only where the key set
was asked for, or a request of the other endpoints got no answer at all. In a chain that such an
error ends, any other outage goes on to the next resolver.
-/

namespace Tako.Auth

open Traced

/-! ## Calls that fail -/

inductive Endpoint where
  | jwks
  | introspection
  | login
  | secret
  deriving DecidableEq

/-- A call without an answer, one whose answer breaks off, and a 5xx status. -/
inductive Outage where
  | unreachable
  | interrupted
  | serverError
  deriving DecidableEq

/-- The outages that a resolver tells from bad credentials. -/
def reported : Endpoint × Outage → Bool
  | (.jwks, .unreachable) | (.jwks, .serverError) => true
  | (.introspection, .unreachable) | (.login, .unreachable) => true
  | _ => false

/-- What the resolver makes of an outage. -/
def errorFor (f : Endpoint × Outage) (msg : String) : TakoError :=
  if reported f then .transport msg else .invalid msg

/-- The outage of an answer, whose body may be read. -/
def Answer.outage {α : Type} (a : Answer α) (read : Bool) : Option Outage :=
  if a.isServerError then some .serverError
  else
    match a.json with
    | .error (.network _) => if read then some .interrupted else none
    | _ => none

theorem Answer.outage_eq_some {α : Type} {a : Answer α} {read : Bool} {o : Outage} :
    a.outage read = some o ↔ (a.isServerError = true ∧ o = .serverError) ∨
      (a.isServerError = false ∧ read = true ∧ (∃ e, a.json = .error (.network e)) ∧
        o = .interrupted) := by
  unfold Answer.outage
  cases a.isServerError with
  | true => simp [eq_comm]
  | false =>
    cases a.json with
    | ok v => simp
    | error e => cases e <;> simp [eq_comm]

theorem Answer.isServerError_eq_false {α : Type} {a : Answer α} (h : a.isStatusError = false) :
    a.isServerError = false := by
  simp only [Answer.isStatusError, Answer.isServerError, decide_eq_false_iff_not] at *
  omega

theorem Answer.isSuccess_eq_false {α : Type} {a : Answer α} (h : a.isServerError = true) :
    a.isSuccess = false := by
  simp only [Answer.isSuccess, Answer.isServerError, decide_eq_true_eq,
    decide_eq_false_iff_not] at *
  omega

def OidcAct.outage {J : Jsonwebtoken} : OidcAct J → Option (Endpoint × Outage)
  | .getJwks (.error _) => some (.jwks, .unreachable)
  | .getJwks (.ok a) => (a.outage (!a.isStatusError)).map (.jwks, ·)
  | .introspect _ (.error _) => some (.introspection, .unreachable)
  | .introspect _ (.ok a) => (a.outage a.isSuccess).map (.introspection, ·)
  | _ => none

def VaultAct.outage : VaultAct → Option (Endpoint × Outage)
  | .login _ (.error _) => some (.login, .unreachable)
  | .login _ (.ok a) => (a.outage a.isSuccess).map (.login, ·)
  | .kv2Read _ (.error (.network _)) => some (.secret, .unreachable)
  | .kv2Read _ (.error (.api code _)) =>
    if 500 ≤ code ∧ code < 600 then some (.secret, .serverError) else none
  | _ => none

section

variable {τ ω α β : Type} (outage : τ → Option (Endpoint × Outage))

/-- The outage that a trace ends with. -/
def endsWith (l : List τ) : Option (Endpoint × Outage) := l.getLast?.bind outage

/-- If the trace ends with an outage, then the result is its error. -/
def Reports (r : Result α) (l : List τ) : Prop :=
  ∀ f, endsWith outage l = some f → ∃ msg, r = .error (errorFor f msg)

variable {outage}

theorem Reports.ok {a : α} {l : List τ} (h : Reports outage (.ok a) l) :
    endsWith outage l = none := by
  cases hl : endsWith outage l with
  | none => rfl
  | some f =>
    obtain ⟨msg, hmsg⟩ := h f hl
    cases hmsg

theorem endsWith_append {l l' : List τ} (h : endsWith outage l = none) :
    endsWith outage (l ++ l') = endsWith outage l' := by
  unfold endsWith at *
  rw [List.getLast?_append]
  cases l'.getLast? with
  | none => exact h
  | some t => rfl

variable (outage) in
/-- Every run that ends with an outage results in its error. -/
def Reporting (x : Traced ω τ TakoError α) : Prop := x.Ensures (Reports outage)

namespace Reporting

theorem bind {x : Traced ω τ TakoError α} {f : α → Traced ω τ TakoError β}
    (hx : Reporting outage x) (hf : ∀ a, Reporting outage (f a)) : Reporting outage (x >>= f) := by
  refine Ensures.bind hx (fun e l h o ho => ?_) fun a l h => ?_
  · obtain ⟨msg, hmsg⟩ := h o ho
    exact ⟨msg, by rw [Except.error.inj hmsg]⟩
  · refine Ensures.weaken (hf a) fun r l' hr o ho => ?_
    rw [endsWith_append h.ok] at ho
    exact hr o ho

theorem of_acts {x : Traced ω τ TakoError α} (h : x.Acts fun t => outage t = none) :
    Reporting outage x := by
  refine Ensures.weaken h fun r l hl o ho => ?_
  obtain ⟨t, ht, hout⟩ := Option.bind_eq_some_iff.1 ho
  rw [hl t (List.mem_of_getLast? ht)] at hout
  cases hout

end Reporting

/-- The end of a request whose answer is looked at without further actions. -/
theorem reports_answer {γ : Type} {l : List τ} {t : τ} {a : Answer γ} {r : Result β} {read : Bool}
    {endpoint : Endpoint} (hl : l.getLast? = some t)
    (ht : outage t = (a.outage read).map (endpoint, ·))
    (hr : ∀ o, a.outage read = some o → ∃ msg, r = .error (errorFor (endpoint, o) msg)) :
    Reports outage r (l ++ []) := by
  intro f hf
  rw [List.append_nil, endsWith, hl] at hf
  obtain ⟨o, ho, rfl⟩ := Option.map_eq_some_iff.1 (ht.symm.trans hf)
  exact hr o ho

end

/-! ## Resolvers of tokens of an issuer -/

namespace OidcAuthResolver

variable {J : Jsonwebtoken} {κ W : Type} {R : OidcAuthResolver κ} {B : OidcBackend J κ W}

theorem fetchJwks_reports : Reporting OidcAct.outage (R.fetchJwks B) := by
  refine Ensures.bind (Q := fun r l => l = [.getJwks r] ∧ ∀ e, r = .error e → ∃ msg,
    e = .transport msg) ?_ ?_ ?_
  · refine Ensures.call fun s => ⟨rfl, fun e he => ?_⟩
    obtain ⟨e', -, hmsg⟩ := Except.mapError_eq_error.1 he
    exact ⟨_, hmsg.symm⟩
  · rintro e l ⟨rfl, he⟩ f hf
    cases hf
    obtain ⟨msg, rfl⟩ := he e rfl
    exact ⟨msg, rfl⟩
  · rintro a l ⟨rfl, -⟩
    cases hstatus : a.isStatusError with
    | true =>
      have ht : OidcAct.outage (J := J) (.getJwks (.ok a)) = (a.outage false).map (.jwks, ·) := by
        rw [OidcAct.outage, hstatus]
        rfl
      refine Ensures.throw (reports_answer rfl ht fun o ho => ?_)
      rcases Answer.outage_eq_some.1 ho with ⟨-, rfl⟩ | ⟨-, hread, -⟩
      · exact ⟨_, rfl⟩
      · cases hread
    | false =>
      have hserver : a.isServerError = false := Answer.isServerError_eq_false hstatus
      have ht : OidcAct.outage (J := J) (.getJwks (.ok a)) = (a.outage true).map (.jwks, ·) := by
        rw [OidcAct.outage, hstatus]
        rfl
      cases hjson : a.json with
      | error e =>
        refine Ensures.throw (reports_answer rfl ht fun o ho => ?_)
        rcases Answer.outage_eq_some.1 ho with ⟨hserver', -⟩ | ⟨-, -, -, rfl⟩
        · exact absurd hserver' (Bool.eq_false_iff.1 hserver)
        · exact ⟨_, rfl⟩
      | ok jwks =>
        refine fun s => reports_answer rfl ht fun o ho => ?_
        rcases Answer.outage_eq_some.1 ho with ⟨hserver', -⟩ | ⟨-, -, ⟨e, he⟩, -⟩
        · exact absurd hserver' (Bool.eq_false_iff.1 hserver)
        · exact nomatch hjson.symm.trans he

theorem jwks_reports (force : Bool) : Reporting OidcAct.outage (R.jwks B force) := by
  refine .bind (.of_acts (.read _)) fun o => ?_
  cases o with
  | some jwks => exact .of_acts (.pure _)
  | none =>
    refine .bind (.of_acts (.read _)) fun o => ?_
    cases o with
    | some jwks => exact .of_acts (.pure _)
    | none => exact fetchJwks_reports

theorem validateNow_reports (token : String) (jwks : List J.Jwk) :
    Reporting OidcAct.outage (R.validateNow B token jwks) :=
  .of_acts (.bind (.read _) fun _ => .bind (.emit rfl) fun _ => .pure _)

theorem validate_reports (token : String) :
    Reporting OidcAct.outage (R.validate B token) := by
  refine .bind (jwks_reports false) fun cached => .bind (validateNow_reports token cached) fun r => ?_
  cases r with
  | ok p => exact .of_acts (.pure p)
  | error e =>
    dsimp only
    split
    · exact .bind (jwks_reports true) fun latest =>
        .bind (validateNow_reports token latest) fun r => .of_acts (.ofExcept r)
    · exact .of_acts (.throw e)

theorem checkActive_failed {a : Answer Bool} (h : a.isSuccess = false) :
    checkActive B a = .error (.invalid
      s!"oidc: introspect endpoint returned {B.statusText a.status}: {a.text}") := by
  simp [checkActive, h, Except.rejectIf, bind, Except.bind]

theorem checkActive_unread {a : Answer Bool} {e : BodyError} (h : a.isSuccess = true)
    (hjson : a.json = .error e) :
    checkActive B a = .error (.invalid s!"oidc: introspect response parse: {e.display}") := by
  simp [checkActive, h, hjson, Except.rejectIf, Except.mapError, bind, Except.bind]

/-- The last request is the one whose outcome is returned. -/
theorem introspectSend_last (cfg : IntrospectionConfig κ) (form : List (String × String)) :
    (introspectSend R B cfg form).Ensures fun r l =>
      (∃ req, l.getLast? = some (.introspect req r)) ∧ ∀ e, r = .error e → ∃ msg, e = .transport msg := by
  have honce : (introspectSendOnce B cfg form).Ensures fun r l =>
      (∃ req, l.getLast? = some (.introspect req r)) ∧
        ∀ e, r = .error e → ∃ msg, e = .transport msg := by
    refine Ensures.call fun s => ⟨⟨_, rfl⟩, fun e he => ?_⟩
    obtain ⟨e', -, hmsg⟩ := Except.mapError_eq_error.1 he
    exact ⟨_, hmsg.symm⟩
  refine Ensures.bind (.attempt (Q := fun r l => ∃ r', r = .ok r' ∧
    (∃ req, l.getLast? = some (.introspect req r')) ∧
      ∀ e, r' = .error e → ∃ msg, e = .transport msg) ?_) ?_ ?_
  · exact honce.weaken fun r l h => ⟨r, rfl, h⟩
  · rintro e l ⟨r', hr', -⟩
    cases hr'
  · rintro r l ⟨r', hr', hlast⟩
    cases hr'
    cases r with
    | ok a => exact Ensures.pure (by rwa [List.append_nil])
    | error e =>
      dsimp only
      split
      · refine Ensures.bind (Q := fun r _ => ∃ r', r = .ok r') (fun _ => ⟨_, rfl⟩) ?_ fun _ l' _ => ?_
        · rintro e' l' ⟨r', hr'⟩
          cases hr'
        · refine honce.weaken fun r l'' h => ?_
          obtain ⟨⟨req, hreq⟩, herr⟩ := h
          exact ⟨⟨req, by rw [List.getLast?_append, List.getLast?_append, hreq]; rfl⟩, herr⟩
      · exact Ensures.throw (by rwa [List.append_nil])

theorem introspect_reports (token : String) :
    Reporting OidcAct.outage (R.introspect B token) := by
  unfold introspect
  cases R.introspection with
  | none => exact .of_acts (.pure _)
  | some cfg =>
    refine .bind (.of_acts (assertion_acts cfg)) fun jwt => .bind (.of_acts (.ofExcept _)) fun _ => ?_
    refine Ensures.bind (introspectSend_last cfg _) ?_ ?_
    · rintro e l ⟨⟨req, hlast⟩, he⟩ f hf
      obtain ⟨msg, rfl⟩ := he e rfl
      rw [endsWith, hlast] at hf
      cases hf
      exact ⟨msg, rfl⟩
    · rintro a l ⟨⟨req, hlast⟩, -⟩
      refine Ensures.ofExcept (reports_answer hlast rfl fun o ho => ?_)
      rcases Answer.outage_eq_some.1 ho with ⟨hserver, rfl⟩ | ⟨-, hsuccess, ⟨e, he⟩, rfl⟩
      · exact ⟨_, checkActive_failed (Answer.isSuccess_eq_false hserver)⟩
      · exact ⟨_, checkActive_unread hsuccess he⟩

theorem resolve_reports (token : String) : Reporting OidcAct.outage (R.resolve B token) :=
  .bind (validate_reports token) fun p =>
    .bind (introspect_reports token) fun _ => .of_acts (.pure p)

end OidcAuthResolver

/-! ## Resolvers of tokens in Vault -/

namespace VaultAuthResolver

variable {C W : Type} {R : VaultAuthResolver} {B : VaultBackend C W}

theorem vaultLogin_reports (url : String) (body : Json) :
    Reporting VaultAct.outage (vaultLogin B url body) := by
  refine Ensures.bind (Q := fun r l => ∃ reply, l = [.login url reply] ∧
    (∀ a, r = .ok a → reply = .ok a) ∧
    ∀ e, r = .error e → (∃ e', reply = .error e') ∧ ∃ msg, e = .transport msg) ?_ ?_ ?_
  · refine Ensures.call fun s => ⟨_, rfl, fun a ha => Except.mapError_eq_ok.1 ha, fun e he => ?_⟩
    obtain ⟨e', he', hmsg⟩ := Except.mapError_eq_error.1 he
    exact ⟨⟨e', he'⟩, _, hmsg.symm⟩
  · rintro e l ⟨reply, rfl, -, herr⟩ f hf
    obtain ⟨⟨e', rfl⟩, msg, rfl⟩ := herr e rfl
    cases hf
    exact ⟨msg, rfl⟩
  · rintro a l ⟨reply, rfl, hok, -⟩
    obtain rfl := hok a rfl
    cases hsuccess : a.isSuccess with
    | false =>
      refine Ensures.throw (reports_answer rfl rfl fun o ho => ?_)
      rcases Answer.outage_eq_some.1 ho with ⟨-, rfl⟩ | ⟨-, hread, -⟩
      · exact ⟨_, rfl⟩
      · rw [hsuccess] at hread
        cases hread
    | true =>
      refine Ensures.ofExcept (reports_answer rfl rfl fun o ho => ?_)
      rcases Answer.outage_eq_some.1 ho with ⟨hserver, -⟩ | ⟨-, -, ⟨e, he⟩, rfl⟩
      · rw [Answer.isSuccess_eq_false hserver] at hsuccess
        cases hsuccess
      · exact ⟨_, by rw [he]; rfl⟩

theorem authenticate_reports (url : String) (body : Json) :
    Reporting VaultAct.outage (authenticate B url body) :=
  .bind (vaultLogin_reports url body) fun _ => .of_acts (.bind (.modify _) fun _ => .pure _)

theorem token_reports (provider : VaultTokenProvider) :
    Reporting VaultAct.outage (token B provider) := by
  cases provider with
  | static token => exact .of_acts (.pure _)
  | appRole addr roleId secretId =>
    refine .bind (.of_acts (.read _)) fun o => ?_
    cases o with
    | some token => exact .of_acts (.pure _)
    | none => exact authenticate_reports _ _
  | kubernetes addr role jwtPath =>
    refine .bind (.of_acts (.read _)) fun o => ?_
    cases o with
    | some token => exact .of_acts (.pure _)
    | none => exact .bind (.of_acts (.call fun _ => rfl)) fun jwt => authenticate_reports _ _

theorem getOrBuildClient_acts {P : VaultAct → Prop} (vaultToken : String) :
    (R.getOrBuildClient B vaultToken).Acts P := by
  refine .bind (.read _) fun o => ?_
  cases o with
  | some c => exact .pure _
  | none =>
    refine .bind (.ofExcept _) fun _ => .bind (.ofExcept _) fun client => .bind (.read _) fun o => ?_
    cases o with
    | some existing => exact .pure _
    | none => exact .bind (.modify _) fun _ => .pure _

/-- Whatever a lookup fails with, the credential is said to be bad. -/
theorem lookupToken_reports (client : C) (token : String) :
    Reporting VaultAct.outage (R.lookupToken B client token) := by
  unfold lookupToken
  refine Ensures.call fun s => ?_
  cases (B.kv2Read client R.mount (R.pathFor token) s.world).1 with
  | ok entry => exact nofun
  | error e =>
    intro f hf
    cases e with
    | network e =>
      cases hf
      exact ⟨_, rfl⟩
    | api code e =>
      have hcode : (if 500 ≤ code ∧ code < 600 then some (Endpoint.secret, Outage.serverError)
          else none) = some f := hf
      split at hcode
      · cases hcode
        exact ⟨_, rfl⟩
      · cases hcode
    | other e => cases hf

theorem resolve_reports (token : String) : Reporting VaultAct.outage (R.resolve B token) := by
  refine .bind (.of_acts (.read _)) fun o => ?_
  cases o with
  | some p => exact .of_acts (.pure p)
  | none =>
    exact .bind (token_reports R.provider) fun vaultToken =>
      .bind (.of_acts (getOrBuildClient_acts _)) fun client =>
        .bind (lookupToken_reports client token) fun entry =>
          .of_acts (.bind (.modify _) fun _ => .pure _)

end VaultAuthResolver

/-! ## Outages in a chain -/

/-- A resolver whose state is a part of the world. -/
def ofRun {Ω S τ : Type} (get : Ω → S) (put : S → Ω → Ω)
    (resolve : String → Traced S τ TakoError Principal) : AuthResolver Ω where
  resolve token ω :=
    (((resolve token).run (get ω)).result, put ((resolve token).run (get ω)).world ω)

/-- A resolver with backends, and the outages that its resolutions end with. -/
inductive Backed {Ω : Type} :
    AuthResolver Ω → (String → Ω → Option (Endpoint × Outage)) → Prop
  | oidc {J : Jsonwebtoken} {κ W : Type} (R : OidcAuthResolver κ) (B : OidcBackend J κ W)
    (get : Ω → OidcState J W) (put : OidcState J W → Ω → Ω) :
    Backed (ofRun get put (R.resolve B)) fun token ω =>
      endsWith OidcAct.outage ((R.resolve B token).run (get ω)).trace
  | vault {C W : Type} (R : VaultAuthResolver) (B : VaultBackend C W)
    (get : Ω → VaultState C W) (put : VaultState C W → Ω → Ω) :
    Backed (ofRun get put (R.resolve B)) fun token ω =>
      endsWith VaultAct.outage ((R.resolve B token).run (get ω)).trace

variable {Ω : Type} {child : AuthResolver Ω} {ends : String → Ω → Option (Endpoint × Outage)}
  {token : String} {f : Endpoint × Outage}

theorem Backed.reports (h : Backed child ends) {ω : Ω} (hf : ends token ω = some f) :
    ∃ msg, (child.resolve token ω).1 = .error (errorFor f msg) := by
  cases h with
  | oidc R B get put => exact OidcAuthResolver.resolve_reports token _ f hf
  | vault R B get put => exact VaultAuthResolver.resolve_reports token _ f hf

/-- An outage is an error of the transport, and ends a chain that such an error ends, exactly if it
is one of those that are reported. -/
theorem outage_reported_iff (hchild : Backed child ends) {ω' : Ω} (hf : ends token ω' = some f) :
    ((∃ msg, (child.resolve token ω').1 = .error (.transport msg)) ↔ reported f = true) ∧
      ∀ (chain : ChainedAuthResolver Ω) policy before after ω,
        chain.children = before ++ ⟨child, policy⟩ :: after →
        ChainedAuthResolver.FallThrough chain.shortCircuitPolicy token before ω ω' →
        ChainedAuthResolver.ShortCircuitsTransport chain.shortCircuitPolicy policy →
        ((∃ msg, ((chain.resolve token).run ω).result = .error (.transport msg) ∧
            ((chain.resolve token).run ω).trace.length = before.length + 1) ↔
          reported f = true) := by
  obtain ⟨msg, hmsg⟩ := hchild.reports hf
  unfold errorFor at hmsg
  cases hreported : reported f with
  | true =>
    rw [hreported, if_pos rfl] at hmsg
    refine ⟨iff_of_true ⟨msg, hmsg⟩ rfl, ?_⟩
    intro chain policy before after ω hchildren hbefore hpolicy
    obtain ⟨hresult, hlength⟩ :=
      ChainedAuthResolver.resolve_stop hchildren hbefore hmsg (hpolicy msg)
    exact iff_of_true ⟨msg, hresult, hlength⟩ rfl
  | false =>
    rw [hreported, if_neg Bool.false_ne_true] at hmsg
    refine ⟨iff_of_false ?_ Bool.false_ne_true, ?_⟩
    · rintro ⟨msg', hmsg'⟩
      cases hmsg.symm.trans hmsg'
    · intro chain policy before after ω hchildren hbefore hpolicy
      refine iff_of_false ?_ Bool.false_ne_true
      rintro ⟨msg', hresult, hlength⟩
      have hnext : ChainedAuthResolver.shouldShortCircuit chain.shortCircuitPolicy policy
          (.invalid msg) = false := ChainedAuthResolver.not_shortCircuits_invalid _ _ _
      rcases ChainedAuthResolver.resolve_next hchildren hbefore hmsg hnext with herr | hlonger
      · cases herr.symm.trans hresult
      · omega

/-! ## Two chains -/

def sampleVault : VaultAuthResolver where
  addr := "http://vault"
  provider := .static "root"

/-- Vault does not answer. -/
def sealedVault : VaultBackend Unit Unit where
  instant _ := 0
  login _ _ w := (.error "refused", w)
  readToString _ w := (.error "missing", w)
  withinLease elapsed lease := 10 * elapsed < 9 * lease
  settings _ _ _ := .ok ()
  client _ _ _ := .ok ()
  kv2Read _ _ _ w := (.error (.network "refused"), w)
  firstKey keys := keys.head?
  statusText n := toString n

/-- The issuer does not answer. -/
def silentIssuer : OidcBackend (Sample.crate OidcAuthResolver.sampleTable) Unit Nat :=
  { OidcAuthResolver.sampleBackend OidcAuthResolver.sampleTable [] with
    getJwks := fun _ now => (.error "refused", now) }

/-- Static tokens behind a resolver. -/
def guardedChain {Ω : Type} (child : AuthResolver Ω) : ChainedAuthResolver Ω :=
  (({ } : ChainedAuthResolver Ω).then_ child).then_
    (staticTokens [("probe", { tenantId := "acme", userId := "fallback" })])
    |>.withShortCircuitOnTransportError

theorem silent_issuer_ends_chain :
    ∃ msg, (((guardedChain (ofRun id (fun s _ => s)
      (OidcAuthResolver.sampleResolver.resolve silentIssuer))).resolve "probe").run
        { world := 900 }).result = .error (.transport msg) := by
  obtain ⟨msg, hresult, -⟩ := ((outage_reported_iff
    (.oidc OidcAuthResolver.sampleResolver silentIssuer id fun s _ => s) rfl).2
      (guardedChain _) .inherit [] [_] { world := 900 } rfl .nil fun _ => rfl).2 rfl
  exact ⟨msg, hresult⟩

/-- While Vault is down, a token that it may have revoked is let in by the next resolver. -/
theorem sealed_vault_falls_through :
    endsWith VaultAct.outage ((sampleVault.resolve sealedVault "probe").run { world := () }).trace =
        some (.secret, .unreachable) ∧
      ((sampleVault.resolve sealedVault "probe").run { world := () }).result =
        .error (.invalid "vault: lookup `tako/tokens/probe` failed: refused") ∧
      (((guardedChain (ofRun id (fun s _ => s) (sampleVault.resolve sealedVault))).resolve
        "probe").run { world := () }).result = .ok { tenantId := "acme", userId := "fallback" } :=
  ⟨rfl, rfl, rfl⟩

end Tako.Auth
