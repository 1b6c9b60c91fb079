import Tako.Auth.Oidc
import Tako.Auth.Sample
import Tako.Theory.TracedHistory

/-!
# What an accepted OIDC token guarantees

Whatever the endpoints answer, and however old the cached key set is: a token that is accepted
verifies with a key that was fetched from the issuer, and its claims are the configured ones. The
expiry may lie in the past by the leeway of `jsonwebtoken`.
-/

namespace Tako.Auth

open Traced

namespace OidcAuthResolver

variable {J : Jsonwebtoken} {κ W : Type} {R : OidcAuthResolver κ} {B : OidcBackend J κ W}

/-! ## Runs -/

variable (R B) in
/-- The histories of a resolver and its states after them: it starts without a key set, resolves
tokens, and in between anything may happen to the world. -/
inductive Reached : List (OidcAct J) → OidcState J W → Prop
  | start (w : W) : Reached [] { world := w }
  | elapse (w : W) : Reached h s → Reached h { s with world := w }
  | resolve (token : String) : Reached h s →
    Reached (h ++ ((R.resolve B token).run s).trace) ((R.resolve B token).run s).world

/-- The key set was an answer of the issuer. -/
def FetchedIn (h : List (OidcAct J)) (jwks : List J.Jwk) : Prop :=
  ∃ a : Answer (List J.Jwk), .getJwks (.ok a) ∈ h ∧ a.isStatusError = false ∧ a.json = .ok jwks

/-- The cached key set was an answer of the issuer. -/
def Genuine (h : List (OidcAct J)) (s : OidcState J W) : Prop := ∀ c ∈ s.cache, FetchedIn h c.jwks

/-! ## What is guaranteed -/

/-- The checks of a token against a key set. -/
structure Verified (R : OidcAuthResolver κ) (now : Nat) (token : String) (jwks : List J.Jwk)
    (header : Header) (claims : Claims) : Prop where
  decoded : J.decodeHeader token = .ok header
  allowed : allowedAlg header.alg = true
  signature : ∃ kid jwk key, header.kid = some kid ∧ jwk ∈ jwks ∧ J.keyId jwk = some kid ∧
    J.fromJwk jwk = .ok key ∧ J.Verifies key header.alg token
  payload : J.payload token = some claims
  aud : ∃ value, claims.lookup "aud" = some value ∧ Names value R.audience
  iss : ∃ value, claims.lookup "iss" = some value ∧ Names value R.issuer
  exp : ∃ value t, claims.lookup "exp" = some value ∧ J.seconds value = some t ∧ now ≤ t + 60

/-- The endpoint said of the token that it is active. -/
def ActiveIn (token : String) (cfg : IntrospectionConfig κ) (l : List (OidcAct J)) : Prop :=
  ∃ req a, OidcAct.introspect req (.ok a) ∈ l ∧ req.uri = cfg.introspectUri ∧
    ("token", token) ∈ req.form ∧ a.isSuccess = true ∧ a.json = .ok true

/-- What a principal stands for: a token that was checked while it was resolved, with a key set that
was fetched then or before. -/
structure Guarantees (R : OidcAuthResolver κ) (token : String) (h l : List (OidcAct J))
    (p : Principal) : Prop where
  verified : ∃ now jwks header claims, .clock now ∈ l ∧ FetchedIn (h ++ l) jwks ∧
    Verified R now token jwks header claims ∧ PrincipalOf R.claims claims p
  active : ∀ cfg ∈ R.introspection, ActiveIn token cfg l

def isGetJwks : OidcAct J → Bool
  | .getJwks _ => true
  | _ => false

def isIntrospect : OidcAct J → Bool
  | .introspect _ _ => true
  | _ => false

/-! ## One validation -/

theorem mem_of_find {jwks : List J.Jwk} {kid : String} {jwk : J.Jwk}
    (h : find jwks kid = some jwk) : jwk ∈ jwks ∧ J.keyId jwk = some kid := by
  unfold find at h
  have hkid := List.find?_some h
  exact ⟨List.mem_of_find?_eq_some h, of_decide_eq_true hkid⟩

theorem elim_ok_iff {α ε : Type} {o : Option α} {e : ε} {a : α} :
    o.elim (Except.error e) Except.ok = .ok a ↔ o = some a := by
  cases o <;> simp

/-- The steps of a validation that succeeds. -/
theorem validateAgainst_ok_iff {now : Nat} {token : String} {jwks : List J.Jwk} {p : Principal} :
    R.validateAgainst now token jwks = .ok p ↔ ∃ header kid jwk key claims,
      J.decodeHeader token = .ok header ∧ header.kid = some kid ∧ find jwks kid = some jwk ∧
      allowedAlg header.alg = true ∧ J.fromJwk jwk = .ok key ∧
      J.decode now token key (R.validation header.alg) = .ok claims ∧
      PrincipalOf R.claims claims p := by
  simp only [validateAgainst, Except.bind_eq_ok, Except.mapError_eq_ok, elim_ok_iff,
    Except.rejectIf_eq_ok, principalFromClaims_ok_iff, Decidable.not_not]
  constructor
  · rintro ⟨header, hheader, kid, hkid, jwk, hjwk, -, halg, key, hkey, claims, hclaims, hp⟩
    exact ⟨header, kid, jwk, key, claims, hheader, hkid, hjwk, halg, hkey, hclaims, hp⟩
  · rintro ⟨header, kid, jwk, key, claims, hheader, hkid, hjwk, halg, hkey, hclaims, hp⟩
    exact ⟨header, hheader, kid, hkid, jwk, hjwk, (), halg, key, hkey, claims, hclaims, hp⟩

/-- The configured claims are required, so they are there and are checked. -/
theorem validateAgainst_verified (hJ : J.Documented) {now : Nat} {token : String}
    {jwks : List J.Jwk} {p : Principal} (h : R.validateAgainst now token jwks = .ok p) :
    ∃ header claims, Verified R now token jwks header claims ∧ PrincipalOf R.claims claims p := by
  obtain ⟨header, kid, jwk, key, claims, hheader, hkid, hfind, halg, hkey, hdecode, hp⟩ :=
    validateAgainst_ok_iff.1 h
  have haccepts := (hJ.decode ..).1 hdecode
  obtain ⟨header', hheader', -, hverifies⟩ := haccepts.signature
  obtain rfl : header = header' := Except.ok.inj (hheader.symm.trans hheader')
  obtain ⟨hmem, hid⟩ := mem_of_find hfind
  obtain ⟨aud, haud, hread⟩ := haccepts.required "aud" (by simp [validation])
  obtain ⟨iss, hiss, hreads⟩ := haccepts.required "iss" (by simp [validation])
  obtain ⟨exp, hexp, hseconds⟩ := haccepts.required "exp" (by simp [validation])
  obtain ⟨t, ht⟩ := hJ.reads_exp exp hseconds
  obtain ⟨a, ha, hnamesAud⟩ := (haccepts.aud aud haud hread).1 _ rfl
  obtain ⟨i, hi, hnamesIss⟩ := haccepts.iss _ rfl iss hiss hreads
  rw [List.mem_singleton.1 ha] at hnamesAud
  rw [List.mem_singleton.1 hi] at hnamesIss
  exact ⟨header, claims,
    { decoded := hheader
      allowed := halg
      signature := ⟨kid, jwk, key, hkid, hmem, hid, hkey, hverifies⟩
      payload := haccepts.payload
      aud := ⟨aud, haud, hnamesAud⟩
      iss := ⟨iss, hiss, hnamesIss⟩
      exp := ⟨exp, t, hexp, ht, haccepts.exp exp t hexp ht⟩ },
    hp⟩

/-! ## Growing histories -/

theorem FetchedIn.mono {h h' : List (OidcAct J)} {jwks : List J.Jwk} (hf : FetchedIn h jwks)
    (hsub : h ⊆ h') : FetchedIn h' jwks := by
  obtain ⟨a, ha, hstatus, hjson⟩ := hf
  exact ⟨a, hsub ha, hstatus, hjson⟩

theorem Genuine.mono {h h' : List (OidcAct J)} {s : OidcState J W} (hg : Genuine h s)
    (hsub : h ⊆ h') : Genuine h' s :=
  fun c hc => (hg c hc).mono hsub

variable (R) in
/-- The token passed a validation with a key set of the issuer. -/
def Validated (token : String) (h l : List (OidcAct J)) (p : Principal) : Prop :=
  ∃ now jwks, .clock now ∈ l ∧ FetchedIn (h ++ l) jwks ∧ R.validateAgainst now token jwks = .ok p

/-- A property of the history in a resolution and of the state that further actions and another
world leave true. -/
structure Stable (P : List (OidcAct J) → OidcState J W → Prop) : Prop where
  act : ∀ l s t, P l s → P (l ++ [t]) s
  world : ∀ l s w, P l s → P l { s with world := w }

theorem subset_snoc {h l : List (OidcAct J)} {t : OidcAct J} : h ++ l ⊆ h ++ (l ++ [t]) :=
  List.append_assoc h l [t] ▸ List.subset_append_left (h ++ l) [t]

/-! ## The key set -/

section

variable {h : List (OidcAct J)}

theorem genuine_stable : Stable fun l (s : OidcState J W) => Genuine (h ++ l) s where
  act _ _ _ hg := hg.mono subset_snoc
  world _ _ _ hg := hg

theorem validated_stable (token : String) (p : Principal) :
    Stable fun l (_ : OidcState J W) => R.Validated token h l p where
  act := by
    rintro l - t ⟨now, jwks, hclock, hfetched, hok⟩
    exact ⟨now, jwks, List.mem_append_left _ hclock, hfetched.mono subset_snoc, hok⟩
  world _ _ _ hv := hv

theorem Stable.and {P Q : List (OidcAct J) → OidcState J W → Prop} (hP : Stable P)
    (hQ : Stable Q) : Stable fun l s => P l s ∧ Q l s where
  act l s t hPQ := ⟨hP.act l s t hPQ.1, hQ.act l s t hPQ.2⟩
  world l s w hPQ := ⟨hP.world l s w hPQ.1, hQ.world l s w hPQ.2⟩

/-- An action leaves a stable property true, and is in the history afterwards. -/
theorem Stable.ask {α : Type} {P : List (OidcAct J) → OidcState J W → Prop} (hP : Stable P)
    {f : W → Result α × W} {act : Result α → OidcAct J} :
    Triple P (ask f act : M J W α) fun r l s => P l s ∧ act r ∈ l :=
  .call fun l s hp =>
    ⟨hP.world _ _ _ (hP.act l s _ hp), List.mem_append_right l (List.mem_singleton_self _)⟩

variable (h) in
/-- A key set that is had is the issuer's, and so is the cached one. -/
def Supplied (r : Result (List J.Jwk)) (l : List (OidcAct J)) (s : OidcState J W) : Prop :=
  Genuine (h ++ l) s ∧ ∀ jwks, r = .ok jwks → FetchedIn (h ++ l) jwks

/-- A fetched key set is the issuer's, and so is the cached one afterwards. -/
theorem fetchJwks_genuine :
    Triple (fun l s => Genuine (h ++ l) s) (R.fetchJwks B) (Supplied h) := by
  refine .bind genuine_stable.ask (fun e l s hg => ⟨hg.1, nofun⟩) fun resp => ?_
  split
  next => exact .throw fun l s hg => ⟨hg.1, nofun⟩
  next hstatus =>
    have hbody : Triple (fun l s => Genuine (h ++ l) s ∧ OidcAct.getJwks (.ok resp) ∈ l)
        (.ofExcept (resp.json.mapError fun e =>
          .invalid s!"oidc: malformed JWKS: {e.display}") : M J W (List J.Jwk))
        (Supplied h) :=
      .ofExcept fun l s hg => ⟨hg.1, fun jwks hjson =>
        ⟨resp, List.mem_append_right h hg.2, Bool.eq_false_iff.2 hstatus,
          Except.mapError_eq_ok.1 hjson⟩⟩
    refine .bind hbody (fun e l s hg => ⟨hg.1, nofun⟩) fun jwks => ?_
    refine .bind (Q := fun _ l s => Genuine (h ++ l) s ∧ FetchedIn (h ++ l) jwks)
      (.modify fun l s hg => ?_) (fun e l s hg => ⟨hg.1, nofun⟩) fun _ => ?_
    · refine ⟨fun c hc => ?_, hg.2 jwks rfl⟩
      cases hc
      exact hg.2 jwks rfl
    · exact .pure fun l s hg => ⟨hg.1, fun _ heq => Except.ok.inj heq ▸ hg.2⟩

/-- So is one that is fresh. -/
theorem fresh_genuine {l : List (OidcAct J)} {s : OidcState J W} {jwks : List J.Jwk}
    (hg : Genuine l s) (hfresh : R.fresh B s = some jwks) : FetchedIn l jwks := by
  obtain ⟨c, hc, hif⟩ := Option.bind_eq_some_iff.1 hfresh
  split at hif
  next => exact Option.some.inj hif ▸ hg c hc
  next => cases hif

/-- The cached key set, or a fetched one. -/
theorem jwks_genuine (force : Bool) :
    Triple (fun l s => Genuine (h ++ l) s) (R.jwks B force) (Supplied h) := by
  have hlook : Triple (fun l s => Genuine (h ++ l) s)
      (.read fun s => if force then none else R.fresh B s : M J W (Option (List J.Jwk)))
      fun r l s => Genuine (h ++ l) s ∧ ∀ jwks, r = .ok (some jwks) → FetchedIn (h ++ l) jwks := by
    refine .read fun l s hg => ⟨hg, fun jwks heq => ?_⟩
    have heq := Except.ok.inj heq
    split at heq
    · cases heq
    · exact fresh_genuine hg heq
  have hfound : ∀ jwks, Triple
      (fun l s => Genuine (h ++ l) s ∧
        ∀ jwks', Except.ok (ε := TakoError) (some jwks) = .ok (some jwks') →
          FetchedIn (h ++ l) jwks')
      (pure jwks : M J W (List J.Jwk))
      (Supplied h) :=
    fun jwks => .pure fun l s hg => ⟨hg.1, fun _ heq => hg.2 _ (by rw [Except.ok.inj heq])⟩
  refine .bind hlook (fun e l s hg => ⟨hg.1, nofun⟩) fun o => ?_
  cases o with
  | some jwks => exact hfound jwks
  | none =>
    refine .bind (hlook.weaken (fun l s hg => hg.1) fun _ _ _ hg => hg)
      (fun e l s hg => ⟨hg.1, nofun⟩) fun o => ?_
    cases o with
    | some jwks => exact hfound jwks
    | none => exact fetchJwks_genuine.weaken (fun l s hg => hg.1) fun _ _ _ hg => hg

/-! ## The validation -/

/-- A validation looks at the clock once. -/
theorem validateNow_spec {P : List (OidcAct J) → OidcState J W → Prop} (hP : Stable P)
    (token : String) (jwks : List J.Jwk) :
    Triple P (R.validateNow B token jwks) fun r l s =>
      P l s ∧ ∃ now, .clock now ∈ l ∧ r = .ok (R.validateAgainst now token jwks) := by
  refine .bind (Q := fun r l s => P l s ∧ ∃ now, r = .ok now) (.read fun l s hp => ⟨hp, _, rfl⟩)
    (fun e l s hp => ?_) fun now => ?_
  · obtain ⟨-, now, hnow⟩ := hp
    cases hnow
  refine .bind (Q := fun r l s => P l s ∧ .clock now ∈ l ∧ r = .ok ()) (.emit fun l s hp => ?_)
    (fun e l s hp => nomatch hp.2.2) fun _ => ?_
  · exact ⟨hP.act l s _ hp.1, List.mem_append_right l (List.mem_singleton_self _), rfl⟩
  · exact .pure fun l s hp => ⟨hp.1, now, hp.2.1, rfl⟩

theorem fetched_stable (jwks : List J.Jwk) : Stable fun l (s : OidcState J W) =>
    Genuine (h ++ l) s ∧ FetchedIn (h ++ l) jwks where
  act _ _ _ hg := ⟨hg.1.mono subset_snoc, hg.2.mono subset_snoc⟩
  world _ _ _ hg := hg

/-- The token passes with the cached key set or with the one that is fetched then. -/
theorem validate_spec (token : String) :
    Triple (fun l s => Genuine (h ++ l) s) (R.validate B token) fun r l s =>
      Genuine (h ++ l) s ∧ ∀ p, r = .ok p → R.Validated token h l p := by
  have hnow : ∀ jwks : List J.Jwk, Triple (Supplied h (.ok jwks)) (R.validateNow B token jwks)
      fun r l s => Genuine (h ++ l) s ∧
        ∃ r', r = .ok r' ∧ ∀ p, r' = .ok p → R.Validated token h l p := by
    intro jwks
    refine (validateNow_spec (fetched_stable jwks) token jwks).weaken
      (fun l s hs => ⟨hs.1, hs.2 jwks rfl⟩) fun r l s hv => ?_
    obtain ⟨⟨hg, hfetched⟩, now, hclock, hr⟩ := hv
    exact ⟨hg, _, hr, fun p hp => ⟨now, jwks, hclock, hfetched, hp⟩⟩
  refine .bind (jwks_genuine false) (fun e l s hs => ⟨hs.1, nofun⟩) fun cached => ?_
  refine .bind (hnow cached) (fun e l s hv => ⟨hv.1, nofun⟩) fun r => ?_
  cases r with
  | ok p =>
    refine .pure fun l s hv => ⟨hv.1, fun p' hp' => ?_⟩
    obtain ⟨-, r', hr', hvalid⟩ := hv
    exact hvalid p' (by rw [← Except.ok.inj hr', hp'])
  | error e =>
    dsimp only
    split
    next =>
      refine .bind ((jwks_genuine true).weaken (fun l s hv => hv.1) fun _ _ _ hs => hs)
        (fun e l s hs => ⟨hs.1, nofun⟩) fun latest => ?_
      refine .bind (hnow latest) (fun e l s hv => ⟨hv.1, nofun⟩) fun r => ?_
      refine .ofExcept fun l s hv => ⟨hv.1, fun p hp => ?_⟩
      obtain ⟨-, r', hr', hvalid⟩ := hv
      exact hvalid p (by rw [← Except.ok.inj hr', hp])
    next => exact .throw fun l s hv => ⟨hv.1, nofun⟩

/-! ## Introspection -/

section

variable {P : List (OidcAct J) → OidcState J W → Prop}

/-- A client assertion is made without an action. -/
theorem assertion_spec (cfg : IntrospectionConfig κ) :
    Triple P (assertion B cfg : M J W (Option String)) fun _ l s => P l s := by
  have hbuild : ∀ key alg, Triple P
      (buildClientAssertion B cfg.clientId cfg.introspectUri key alg : M J W String)
      fun _ l s => P l s := fun key alg =>
    .bind (Q := fun _ l s => P l s) (.read fun _ _ hp => hp) (fun _ _ _ hp => hp) fun _ =>
      .bind (Q := fun _ l s => P l s) (.read fun _ _ hp => hp) (fun _ _ _ hp => hp) fun _ =>
        .ofExcept fun _ _ hp => hp
  have hsome : ∀ jwt, Triple P (pure (some jwt) : M J W (Option String)) fun _ l s => P l s :=
    fun jwt => .pure fun _ _ hp => hp
  unfold assertion
  split
  · split
    · exact .throw fun _ _ hp => hp
    · exact .bind (hbuild _ _) (fun _ _ _ hp => hp) hsome
  · split
    · exact .throw fun _ _ hp => hp
    · exact .bind (hbuild _ _) (fun _ _ _ hp => hp) hsome
  · exact .pure fun _ _ hp => hp

/-- The request of an answer has the form that was sent. -/
theorem introspectSend_spec (hP : Stable P) (cfg : IntrospectionConfig κ)
    (form : List (String × String)) :
    Triple P (introspectSend R B cfg form) fun r l s => P l s ∧ ∀ a, r = .ok a →
      ∃ req, .introspect req (.ok a) ∈ l ∧ req.uri = cfg.introspectUri ∧ req.form = form := by
  have honce : Triple P (introspectSendOnce B cfg form) fun r l s => P l s ∧ ∀ a, r = .ok a →
      ∃ req, .introspect req (.ok a) ∈ l ∧ req.uri = cfg.introspectUri ∧ req.form = form := by
    unfold introspectSendOnce
    exact hP.ask.weaken (fun _ _ hp => hp) fun r l s hr =>
      ⟨hr.1, fun a ha => ⟨_, ha ▸ hr.2, rfl, rfl⟩⟩
  refine .bind (.attempt (Q := fun r l s => P l s ∧ ∀ a, r = .ok (.ok a) →
      ∃ req, .introspect req (.ok a) ∈ l ∧ req.uri = cfg.introspectUri ∧ req.form = form)
    (honce.weaken (fun _ _ hp => hp) fun r l s hr => ⟨hr.1, fun a ha => hr.2 a (Except.ok.inj ha)⟩))
    (fun e l s hr => ⟨hr.1, nofun⟩) fun r => ?_
  cases r with
  | ok a => exact .pure fun l s hr => ⟨hr.1, fun a' ha' => hr.2 a' (congrArg _ ha')⟩
  | error e =>
    dsimp only
    split
    next =>
      refine .bind (.attempt (Q := fun _ l s => P l s)
        (hP.ask.weaken (fun l s hr => hr.1) fun _ _ _ hr => hr.1)) (fun e l s hp => ⟨hp, nofun⟩)
        fun _ => honce
    next => exact .throw fun l s hr => ⟨hr.1, nofun⟩

theorem checkActive_ok {a : Answer Bool} (hok : checkActive B a = .ok ()) :
    a.isSuccess = true ∧ a.json = .ok true := by
  simp only [checkActive, Except.bind_eq_ok, Except.rejectIf_eq_ok, Except.mapError_eq_ok,
    Decidable.not_not] at hok
  obtain ⟨-, hsuccess, active, hjson, rfl⟩ := hok
  exact ⟨hsuccess, hjson⟩

/-- If introspection passes, then the endpoint has said that the token is active. -/
theorem introspect_spec (hP : Stable P) (token : String) :
    Triple P (R.introspect B token) fun r l s => P l s ∧
      (r = .ok () → ∀ cfg ∈ R.introspection, ActiveIn token cfg l) := by
  unfold introspect
  cases hcfg : R.introspection with
  | none => exact .pure fun l s hp => ⟨hp, nofun⟩
  | some cfg =>
    refine .bind (assertion_spec cfg) (fun e l s hp => ⟨hp, nofun⟩) fun jwt => ?_
    refine .bind (Q := fun _ l s => P l s) (.ofExcept fun l s hp => hp)
      (fun e l s hp => ⟨hp, nofun⟩) fun _ => ?_
    refine .bind (introspectSend_spec hP cfg _) (fun e l s hr => ⟨hr.1, nofun⟩) fun a => ?_
    refine .ofExcept fun l s hr => ⟨hr.1, fun hok cfg' hcfg' => ?_⟩
    cases hcfg'
    obtain ⟨req, hmem, huri, hform⟩ := hr.2 a rfl
    obtain ⟨hsuccess, hjson⟩ := checkActive_ok hok
    exact ⟨req, a, hmem, huri, hform ▸ List.mem_cons_self, hsuccess, hjson⟩

end

/-! ## Resolutions -/

theorem resolve_spec (token : String) :
    Triple (fun l s => Genuine (h ++ l) s) (R.resolve B token) fun r l s =>
      Genuine (h ++ l) s ∧ ∀ p, r = .ok p →
        R.Validated token h l p ∧ ∀ cfg ∈ R.introspection, ActiveIn token cfg l := by
  refine .bind (validate_spec token) (fun e l s hv => ⟨hv.1, nofun⟩) fun p => ?_
  refine .bind ((introspect_spec (genuine_stable.and (validated_stable token p)) token).weaken
    (fun l s hv => ⟨hv.1, hv.2 p rfl⟩) fun _ _ _ hr => hr) (fun e l s hr => ⟨hr.1.1, nofun⟩)
    fun _ => ?_
  refine .pure fun l s hr => ⟨hr.1.1, fun p' hp' => ?_⟩
  cases hp'
  exact ⟨hr.1.2, hr.2 rfl⟩

end

/-- The cached key set is always one that the issuer has answered. -/
theorem Reached.genuine {h : List (OidcAct J)} {s : OidcState J W} (hs : Reached R B h s) :
    Genuine (h ++ []) s := by
  rw [List.append_nil]
  induction hs with
  | start w => exact nofun
  | elapse w _ ih => exact ih
  | @resolve h s token _ ih =>
    have hg : Genuine (h ++ []) s := by rwa [List.append_nil]
    exact (resolve_spec token [] _ hg).1

/-! ## Requests -/

theorem fetchJwks_acts : (R.fetchJwks B).Acts fun t => isIntrospect t = false := by
  refine .bind (.call fun _ => rfl) fun resp => ?_
  split
  · exact .throw _
  · exact .bind (.ofExcept _) fun _ => .bind (.modify _) fun _ => .pure _

theorem fetchJwks_count : AtMost isGetJwks 1 (R.fetchJwks B) := by
  refine .bind (n := 0) .call fun resp => .of_acts ?_
  split
  · exact .throw _
  · exact .bind (.ofExcept _) fun _ => .bind (.modify _) fun _ => .pure _

theorem jwks_acts (force : Bool) : (R.jwks B force).Acts fun t => isIntrospect t = false := by
  refine .bind (.read _) fun o => ?_
  cases o with
  | some jwks => exact .pure _
  | none =>
    refine .bind (.read _) fun o => ?_
    cases o with
    | some jwks => exact .pure _
    | none => exact fetchJwks_acts

theorem jwks_count (force : Bool) : AtMost isGetJwks 1 (R.jwks B force) := by
  refine .bind (m := 0) (n := 1) (.of_acts (.read _)) fun o => ?_
  cases o with
  | some jwks => exact .weaken (.of_acts (.pure _)) (Nat.zero_le 1)
  | none =>
    refine .bind (m := 0) (n := 1) (.of_acts (.read _)) fun o => ?_
    cases o with
    | some jwks => exact .weaken (.of_acts (.pure _)) (Nat.zero_le 1)
    | none => exact fetchJwks_count

theorem validateNow_acts {p : OidcAct J → Bool} (hp : ∀ now, p (.clock now) = false)
    (token : String) (jwks : List J.Jwk) :
    (R.validateNow B token jwks).Acts fun t => p t = false :=
  .bind (.read _) fun now => .bind (.emit (hp now)) fun _ => .pure _

theorem validate_acts (token : String) :
    (R.validate B token).Acts fun t => isIntrospect t = false := by
  refine .bind (jwks_acts false) fun cached =>
    .bind (validateNow_acts (fun _ => rfl) _ _) fun r => ?_
  cases r with
  | ok p => exact .pure _
  | error e =>
    dsimp only
    split
    · exact .bind (jwks_acts true) fun latest =>
        .bind (validateNow_acts (fun _ => rfl) _ _) fun r => .ofExcept r
    · exact .throw e

theorem validate_count (token : String) : AtMost isGetJwks 2 (R.validate B token) := by
  refine .bind (jwks_count false) fun cached =>
    .bind (m := 0) (n := 1) (.of_acts (validateNow_acts (fun _ => rfl) _ _)) fun r => ?_
  cases r with
  | ok p => exact .weaken (.of_acts (.pure _)) (Nat.zero_le 1)
  | error e =>
    dsimp only
    split
    · exact .bind (n := 0) (jwks_count true) fun latest =>
        .of_acts (.bind (validateNow_acts (fun _ => rfl) _ _) fun r => .ofExcept r)
    · exact .weaken (.of_acts (.throw e)) (Nat.zero_le 1)

theorem assertion_acts {P : OidcAct J → Prop} (cfg : IntrospectionConfig κ) :
    (assertion B cfg : M J W (Option String)).Acts P := by
  have hbuild : ∀ key alg,
      (buildClientAssertion B cfg.clientId cfg.introspectUri key alg : M J W String).Acts P :=
    fun key alg => .bind (.read _) fun _ => .bind (.read _) fun _ => .ofExcept _
  unfold assertion
  split
  · split
    · exact .throw _
    · exact .bind (hbuild _ _) fun _ => .pure _
  · split
    · exact .throw _
    · exact .bind (hbuild _ _) fun _ => .pure _
  · exact .pure _

/-- Introspection sends its request at most twice, and nothing else. -/
theorem introspectSend_count (cfg : IntrospectionConfig κ) (form : List (String × String)) :
    (introspectSend R B cfg form).Acts (fun t => isGetJwks t = false) ∧
      AtMost isIntrospect 2 (introspectSend R B cfg form) := by
  constructor
  · refine .bind (.attempt (.call fun _ => rfl)) fun r => ?_
    cases r with
    | ok a => exact .pure _
    | error e =>
      dsimp only
      split
      · exact .bind (.attempt (.call fun _ => rfl)) fun _ => .call fun _ => rfl
      · exact .throw e
  · refine .bind (n := 1) (.attempt .call) fun r => ?_
    cases r with
    | ok a => exact .weaken (.of_acts (.pure _)) (Nat.zero_le 1)
    | error e =>
      dsimp only
      split
      · exact .bind (m := 0) (.of_acts (.attempt (.call fun _ => rfl))) fun _ => .call
      · exact .weaken (.of_acts (.throw e)) (Nat.zero_le 1)

theorem introspect_count (token : String) :
    (R.introspect B token).Acts (fun t => isGetJwks t = false) ∧
      AtMost isIntrospect 2 (R.introspect B token) := by
  unfold introspect
  cases R.introspection with
  | none => exact ⟨.pure _, .weaken (.of_acts (.pure _)) (Nat.zero_le 2)⟩
  | some cfg =>
    constructor
    · exact .bind (assertion_acts cfg) fun jwt => .bind (.ofExcept _) fun _ =>
        .bind (introspectSend_count cfg _).1 fun a => .ofExcept _
    · exact .bind (m := 0) (.of_acts (assertion_acts cfg)) fun jwt =>
        .bind (m := 0) (.of_acts (.ofExcept _)) fun _ =>
          .bind (n := 0) (introspectSend_count cfg _).2 fun a => .of_acts (.ofExcept _)

/-- Every resolution asks each endpoint twice at most, and the one of introspection only of a token
that has passed. -/
theorem resolve_count (token : String) (s : OidcState J W) :
    ((R.resolve B token).run s).trace.countP isGetJwks ≤ 2 ∧
      ((R.resolve B token).run s).trace.countP isIntrospect ≤ 2 ∧
      (((R.validate B token).run s).result.isOk = false →
        ((R.resolve B token).run s).trace.countP isIntrospect = 0) := by
  have hget : AtMost isGetJwks 2 (R.resolve B token) :=
    .bind (n := 0) (validate_count token) fun p =>
      .of_acts (.bind (introspect_count token).1 fun _ => .pure p)
  have hpost : AtMost isIntrospect 2 (R.resolve B token) :=
    .bind (m := 0) (.of_acts (validate_acts token)) fun p =>
      .bind (n := 0) (introspect_count token).2 fun _ => .of_acts (.pure p)
  refine ⟨hget s, hpost s, fun hfail => ?_⟩
  obtain ⟨e, he⟩ := Except.isOk_eq_false_iff.1 hfail
  have hrun : (R.resolve B token).run s = ⟨.error e, _, _⟩ := run_bind_error _ he
  rw [hrun]
  exact List.countP_eq_zero.2 fun t ht => Bool.eq_false_iff.1 (validate_acts token s t ht)

/-- Whatever the endpoints have answered and answer: a principal is one of a token that a key of the
issuer has signed, with the configured claims, and that is active where introspection is
configured. -/
theorem resolve_sound (hJ : J.Documented) {h : List (OidcAct J)} {s : OidcState J W}
    (hs : Reached R B h s) (token : String) :
    (∀ p, ((R.resolve B token).run s).result = .ok p →
        R.Guarantees token h ((R.resolve B token).run s).trace p) ∧
      ((R.resolve B token).run s).trace.countP isGetJwks ≤ 2 ∧
      ((R.resolve B token).run s).trace.countP isIntrospect ≤ 2 ∧
      (((R.validate B token).run s).result.isOk = false →
        ((R.resolve B token).run s).trace.countP isIntrospect = 0) := by
  refine ⟨fun p hp => ?_, resolve_count token s⟩
  obtain ⟨-, hspec⟩ := resolve_spec token [] s hs.genuine
  obtain ⟨⟨now, jwks, hclock, hfetched, hok⟩, hactive⟩ := hspec p hp
  obtain ⟨header, claims, hverified, hprincipal⟩ := validateAgainst_verified hJ hok
  exact ⟨⟨now, jwks, header, claims, hclock, hfetched, hverified, hprincipal⟩, hactive⟩

/-! ## A resolver with introspection -/

def sampleResolver : OidcAuthResolver Unit where
  issuer := "https://idp"
  audience := "tako-api"
  jwksUri := "https://idp/jwks"
  introspection :=
    some { introspectUri := "https://idp/introspect", clientId := "tako", clientSecret := some "s" }

def sampleClaims (iss : Json) : Claims :=
  [("aud", .string "tako-api"), ("exp", .ofU64 1000), ("iss", iss), ("sub", .string "alice"),
    ("tenant_id", .string "acme")]

def rsaKey : Sample.Key := { name := "first", family := .rsa }

/-- Tokens with the issuer as a text and with a list of issuers. -/
def sampleTable (token : String) : Option Sample.Token :=
  if token = "single" then
    some
      { header := { alg := .rs256, kid := some "k1" }
        key := rsaKey
        claims := sampleClaims (.string "https://idp") }
  else if token = "listed" then
    some
      { header := { alg := .rs256, kid := some "k1" }
        key := rsaKey
        claims := sampleClaims (.array [.string "https://idp", .string "https://other"]) }
  else none

/-- The world is the time in seconds; the endpoints always answer the same. -/
def sampleBackend (table : String → Option Sample.Token) (jwks : List Sample.Jwk) :
    OidcBackend (Sample.crate table) Unit Nat where
  unixNow := id
  instant now := now * 1000000000
  getJwks _ now := (.ok { status := 200, json := .ok jwks }, now)
  introspect _ now := (.ok { status := 200, json := .ok true }, now)
  forceRefresh now := (.ok (), now)
  makeJti _ := "jti"
  signingKey _ := ()
  encode _ _ _ := .ok "assertion"
  statusText n := toString n
  statusError n := toString n

/-- The sample backend with the key of the tokens. -/
abbrev sampleIssuer : OidcBackend (Sample.crate sampleTable) Unit Nat :=
  sampleBackend sampleTable [{ kid := some "k1", key := rsaKey }]

theorem single_token_sound :
    ((sampleResolver.resolve sampleIssuer "single").run { world := 900 }).result =
        .ok { tenantId := "acme", userId := "alice" } ∧
      (sampleResolver.Guarantees (J := Sample.crate sampleTable) "single" []
        ((sampleResolver.resolve sampleIssuer "single").run { world := 900 }).trace
        { tenantId := "acme", userId := "alice" }) := by
  have hok : ((sampleResolver.resolve sampleIssuer "single").run { world := 900 }).result =
      .ok { tenantId := "acme", userId := "alice" } := rfl
  exact ⟨hok, (resolve_sound (Sample.crate_documented sampleTable) (.start 900) "single").1 _ hok⟩

/-- Half a minute after it expired a token is still accepted, and so is one that lists the issuer
among others. -/
theorem late_and_listed_accepted :
    (((sampleResolver.resolve sampleIssuer "single").run { world := 1030 }).result =
        .ok { tenantId := "acme", userId := "alice" } ∧
      (Sample.crate sampleTable).payload "single" = some (sampleClaims (.string "https://idp")) ∧
      ∀ value t, (sampleClaims (.string "https://idp")).lookup "exp" = some value →
        (Sample.crate sampleTable).seconds value = some t → ¬1030 < t) ∧
    ((sampleResolver.resolve sampleIssuer "listed").run { world := 900 }).result =
        .ok { tenantId := "acme", userId := "alice" } ∧
      (Sample.crate sampleTable).payload "listed" =
        some (sampleClaims (.array [.string "https://idp", .string "https://other"])) ∧
      (sampleClaims (.array [.string "https://idp", .string "https://other"])).lookup "iss" ≠
        some (.string "https://idp") := by
  refine ⟨⟨rfl, rfl, fun value t hvalue ht => ?_⟩, rfl, rfl, ?_⟩
  · cases hvalue
    cases ht
    decide
  · intro h
    cases h

end OidcAuthResolver

end Tako.Auth
