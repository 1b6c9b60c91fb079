import Tako.Auth.VaultCache

/-!
# Concurrent lookups of tokens in Vault

The caches of `VaultAuthResolver` under any interleaving of resolutions: what is in them (`Kept`)
is kept by every step, and whoever is resolved has been read from Vault for the very token, in time
(`resolve_concurrent`).
-/

namespace Tako.Auth

open Async
open Interleaving (Config)

namespace VaultAuthResolver

variable {C W : Type} {B : VaultBackend C W} {R : VaultAuthResolver}

/-! ## What the resolutions keep -/

/-- A Vault token that a login has answered. -/
def LoggedIn (B : VaultBackend C W) (vaultToken : String) : Prop :=
  ∃ url body w a auth, (B.login url body w).1 = .ok a ∧ a.isSuccess = true ∧ a.json = .ok auth ∧
    auth.clientToken = vaultToken

/-- A Vault token that the provider gives. -/
def Provided (B : VaultBackend C W) (R : VaultAuthResolver) (vaultToken : String) : Prop :=
  R.provider = .static vaultToken ∨ LoggedIn B vaultToken

/-- The entry is what Vault has at the token's path, for a client with a token of the provider. -/
structure Genuine (B : VaultBackend C W) (R : VaultAuthResolver) (r : VaultRead C) : Prop where
  client : ∃ vaultToken, Provided B R vaultToken ∧ R.buildClient B vaultToken = .ok r.client
  entry : ∃ w, (B.kv2Read r.client R.mount (R.pathFor r.token) w).1 = .ok r.entry

/-- A principal was read for a token, before it was put into the cache. -/
def ReadFor (reads : List (VaultRead C)) (token : String) (p : Principal) (since : Nat) : Prop :=
  ∃ r ∈ reads, r.token = token ∧ r.entry.principal = p ∧ r.readAt ≤ since

/-- What is in the caches. -/
structure Kept (B : VaultBackend C W) (R : VaultAuthResolver) (s : VaultCell C W) : Prop where
  auth : ∀ entry ∈ s.state.auth, LoggedIn B entry.token
  clients : ∀ e ∈ s.state.clients, R.buildClient B e.1 = .ok e.2
  distinct : (s.state.clients.map Prod.fst).Nodup
  bounded : s.state.clients.length ≤ clientCacheLimit
  cache : ∀ e ∈ s.state.cache, ReadFor s.reads e.1 e.2.1 e.2.2 ∧ e.2.2 ≤ B.instant s.state.world
  reads : ∀ r ∈ s.reads, Genuine B R r

/-- A later state, whoever has made the steps to it. -/
structure Later (B : VaultBackend C W) (R : VaultAuthResolver) (s s' : VaultCell C W) : Prop where
  kept : Kept B R s → Kept B R s'
  clock : B.instant s.state.world ≤ B.instant s'.state.world
  reads : s.reads ⊆ s'.reads

/-- Time passes. -/
def Passes (B : VaultBackend C W) (s s' : VaultCell C W) : Prop :=
  ∃ w, B.instant s.state.world ≤ B.instant w ∧ s' = s.inWorld w

/-- The clock does not go back while somebody answers, and a map that is not empty has a first
key. -/
structure Steady (B : VaultBackend C W) : Prop where
  login : ∀ url body w, B.instant w ≤ B.instant (B.login url body w).2
  readToString : ∀ path w, B.instant w ≤ B.instant (B.readToString path w).2
  kv2Read : ∀ client mount path w, B.instant w ≤ B.instant (B.kv2Read client mount path w).2
  firstKey : ∀ keys, keys ≠ [] → ∃ k ∈ keys, B.firstKey keys = some k

variable {s s' : VaultCell C W}

theorem Later.refl (s : VaultCell C W) : Later B R s s := ⟨id, Nat.le_refl _, fun _ h => h⟩

theorem Later.trans {u : VaultCell C W} (h : Later B R s s') (h' : Later B R s' u) :
    Later B R s u :=
  ⟨h'.kept ∘ h.kept, h.clock.trans h'.clock, fun _ hr => h'.reads (h.reads hr)⟩

theorem inWorld_later {w : W} (h : B.instant s.state.world ≤ B.instant w) :
    Later B R s (s.inWorld w) where
  kept hs := { hs with cache := fun e he => ⟨(hs.cache e he).1, (hs.cache e he).2.trans h⟩ }
  clock := h
  reads _ hr := hr

theorem putAuth_later (entry : CachedAuth) (h : LoggedIn B entry.token) :
    Later B R s (s.putAuth entry) where
  kept hs := { hs with auth := fun _ he => Option.some.inj he ▸ h }
  clock := Nat.le_refl _
  reads _ hr := hr

theorem addRead_later {r : VaultRead C} (h : Genuine B R r) : Later B R s (s.addRead r) where
  kept hs :=
    { hs with
      cache := fun e he => by
        obtain ⟨⟨r', hr', hrest⟩, hpast⟩ := hs.cache e he
        exact ⟨⟨r', List.mem_append_left _ hr', hrest⟩, hpast⟩
      reads := fun r' hr' => by
        rcases List.mem_append.1 hr' with hr' | hr'
        · exact hs.reads r' hr'
        · exact List.mem_singleton.1 hr' ▸ h }
  clock := Nat.le_refl _
  reads _ hr := List.mem_append_left _ hr

theorem putPrincipal_later (token : String) (p : Principal)
    (h : ReadFor s.reads token p (B.instant s.state.world)) :
    Later B R s (s.putPrincipal token p (B.instant s.state.world)) where
  kept hs :=
    { hs with
      cache := fun e he => by
        rcases List.mem_cons.1 he with rfl | he
        · exact ⟨h, Nat.le_refl _⟩
        · exact hs.cache e (List.mem_of_mem_filter he) }
  clock := Nat.le_refl _
  reads _ hr := hr

/-- Another client is dropped if there are too many. -/
theorem insertClient_spec (hB : Steady B) (vaultToken : String) (client : C)
    {clients : List (String × C)} (hbounded : clients.length ≤ clientCacheLimit) :
    ∃ kept, insertClient B vaultToken client clients = (vaultToken, client) :: kept ∧
      kept.Sublist clients ∧ kept.length < clientCacheLimit := by
  unfold insertClient
  dsimp only
  split
  · next hfull =>
    have hne : clients.map Prod.fst ≠ [] := by
      intro hnil
      rw [List.map_eq_nil_iff.1 hnil] at hfull
      cases hfull
    obtain ⟨k, hk, hfirst⟩ := hB.firstKey _ hne
    obtain ⟨e, he, rfl⟩ := List.mem_map.1 hk
    rw [hfirst]
    refine ⟨_, rfl, List.filter_sublist, lt_of_lt_of_le ?_ hbounded⟩
    exact List.length_filter_lt_length_iff_exists.2 ⟨e, he, by simp⟩
  · next hroom => exact ⟨clients, rfl, .refl _, Nat.lt_of_not_le hroom⟩

theorem keepClient_spec (hB : Steady B) {vaultToken : String} {client : C}
    (h : R.buildClient B vaultToken = .ok client) (hs : Kept B R s) :
    Later B R s (keepClient B vaultToken client s).2 ∧
      R.buildClient B vaultToken = .ok (keepClient B vaultToken client s).1 := by
  unfold keepClient
  cases hlookup : s.state.clients.lookup vaultToken with
  | some existing =>
    obtain ⟨before, after, heq, -⟩ := List.lookup_eq_some_iff.1 hlookup
    have hmem : (vaultToken, existing) ∈ s.state.clients := by
      rw [heq]
      exact List.mem_append_right _ List.mem_cons_self
    exact ⟨.refl s, hs.clients _ hmem⟩
  | none =>
    obtain ⟨kept, heq, hsub, hlt⟩ := insertClient_spec hB vaultToken client hs.bounded
    refine ⟨⟨fun _ => { hs with clients := fun e he => ?_, distinct := ?_, bounded := ?_ },
      Nat.le_refl _, fun _ hr => hr⟩, h⟩
    · change e ∈ insertClient B vaultToken client s.state.clients at he
      rw [heq] at he
      rcases List.mem_cons.1 he with rfl | he
      · exact h
      · exact hs.clients e (hsub.subset he)
    · change ((insertClient B vaultToken client s.state.clients).map Prod.fst).Nodup
      rw [heq, List.map_cons]
      refine List.nodup_cons.2 ⟨fun hmem => ?_, (hsub.map _).nodup hs.distinct⟩
      obtain ⟨e, he, hkey⟩ := List.mem_map.1 hmem
      simpa [hkey] using List.lookup_eq_none_iff.1 hlookup e (hsub.subset he)
    · change (insertClient B vaultToken client s.state.clients).length ≤ clientCacheLimit
      rw [heq]
      exact hlt

/-! ### The programs -/

/-- A resolution that began at `t₀` or later. -/
structure Begun (B : VaultBackend C W) (R : VaultAuthResolver) (t₀ : Nat) (s : VaultCell C W) :
    Prop where
  kept : Kept B R s
  clock : t₀ ≤ B.instant s.state.world

theorem Begun.later {t₀ : Nat} (h : Begun B R t₀ s) (hs : Later B R s s') : Begun B R t₀ s' :=
  ⟨hs.kept h.kept, h.clock.trans hs.clock⟩

/-- The program is safe, if steps to later states are all that anybody takes. -/
abbrev Proceeds {α : Type} (B : VaultBackend C W) (R : VaultAuthResolver)
    (x : Async (VaultCell C W) α) (Q : α → VaultCell C W → Prop) (s : VaultCell C W) : Prop :=
  x.Safe (Later B R) (Later B R) (Later B R) Q s

/-- A step that only looks at the state. -/
theorem read_proceeds {α : Type} {f : VaultCell C W → α} {Q : α → VaultCell C W → Prop}
    (h : ∀ u, Later B R s u → ∀ v, Later B R u v → Q (f u) v) :
    Proceeds B R (Async.read f) Q s :=
  .read fun u hu => ⟨.refl u, .refl u, h u hu⟩

/-- What a program gives, for a resolution that began at `t₀`. -/
def Gives {α : Type} (B : VaultBackend C W) (R : VaultAuthResolver) (t₀ : Nat) (P : α → Prop)
    (r : Result α) (s : VaultCell C W) : Prop :=
  Begun B R t₀ s ∧ ∀ a, r = .ok a → P a

theorem Gives.later {α : Type} {t₀ : Nat} {P : α → Prop} {r : Result α} (h : Gives B R t₀ P r s)
    (hs : Later B R s s') : Gives B R t₀ P r s' :=
  ⟨h.1.later hs, h.2⟩

theorem Gives.andThen {α β : Type} {t₀ : Nat} {P : α → Prop} {Q : β → Prop}
    {x : Async (VaultCell C W) (Result α)} {k : α → Async (VaultCell C W) (Result β)}
    (h : Proceeds B R x (Gives B R t₀ P) s)
    (hk : ∀ a s', Begun B R t₀ s' → P a → Proceeds B R (k a) (Gives B R t₀ Q) s') :
    Proceeds B R (x.andThen k) (Gives B R t₀ Q) s :=
  .andThen .refl h (fun a s' ha => hk a s' ha.1 (ha.2 a rfl))
    fun _ _ _ he hs => ⟨he.1.later hs, nofun⟩

/-- A call of the world. -/
theorem call_proceeds {α : Type} {t₀ : Nat} {P : α → Prop}
    {f : VaultCell C W → Result α × VaultCell C W} (hs : Begun B R t₀ s)
    (h : ∀ u, Begun B R t₀ u → Later B R u (f u).2 ∧ ∀ a, (f u).1 = .ok a → P a) :
    Proceeds B R (atomically f) (Gives B R t₀ P) s := by
  refine .atomically fun u hu => ⟨.refl u, (h u (hs.later hu)).1, fun v hv => ?_⟩
  exact ⟨((hs.later hu).later (h u (hs.later hu)).1).later hv, (h u (hs.later hu)).2⟩

theorem pure_proceeds {α : Type} {t₀ : Nat} {P : α → Prop} {r : Result α} (hs : Begun B R t₀ s)
    (h : ∀ a, r = .ok a → P a) : Proceeds B R (pure r) (Gives B R t₀ P) s :=
  .pure fun _ hu => ⟨hs.later hu, h⟩

variable {t₀ : Nat}

theorem vaultLoginCall_proceeds (hB : Steady B) (url : String) (body : Json)
    (hs : Begun B R t₀ s) : Proceeds B R (vaultLoginCall B url body)
      (Gives B R t₀ fun auth => LoggedIn B auth.clientToken) s := by
  refine Gives.andThen (P := fun resp => ∃ w, (B.login url body w).1 = .ok resp)
    (call_proceeds hs fun u _ => ⟨inWorld_later (hB.login ..), fun a ha => ?_⟩)
    fun resp u hu hresp => pure_proceeds hu fun auth hauth => ?_
  · exact ⟨_, Except.mapError_eq_ok.1 ha⟩
  · obtain ⟨w, hw⟩ := hresp
    unfold readLogin at hauth
    split at hauth
    · cases hauth
    · next hsuccess =>
      exact ⟨url, body, w, resp, auth, hw, not_not.1 hsuccess, Except.mapError_eq_ok.1 hauth, rfl⟩

theorem authenticateCall_proceeds (hB : Steady B) (url : String) (body : Json)
    (hs : Begun B R t₀ s) : Proceeds B R (authenticateCall B url body)
      (Gives B R t₀ fun vaultToken => LoggedIn B vaultToken.1) s := by
  refine Gives.andThen (vaultLoginCall_proceeds hB url body hs) fun auth u hu hauth => ?_
  refine .bind .refl (read_proceeds (Q := fun _ => Begun B R t₀) fun v hv x hx =>
    (hu.later hv).later hx) fun now v hv => ?_
  refine .bind .refl (P := fun _ => Begun B R t₀) (.atomically fun x hx => ?_)
    fun _ x hx => pure_proceeds hx fun vaultToken heq => ?_
  · have hput := putAuth_later (B := B) (R := R) (s := x)
      ⟨auth.clientToken, now, max auth.leaseDuration 1 * 1000000000⟩ hauth
    exact ⟨.refl x, hput, fun y hy => ((hv.later hx).later hput).later hy⟩
  · obtain rfl := Except.ok.inj heq
    exact hauth

theorem cachedToken_loggedIn {vaultToken : String × Option Nat} (hs : Kept B R s)
    (h : cachedToken B s.state = some vaultToken) : LoggedIn B vaultToken.1 := by
  obtain ⟨entry, hentry, hif⟩ := Option.bind_eq_some_iff.1 h
  obtain ⟨-, heq⟩ := Option.ite_none_right_eq_some.1 hif
  exact Option.some.inj heq ▸ hs.auth entry hentry

theorem tokenCall_proceeds (hB : Steady B) (hs : Begun B R t₀ s) :
    Proceeds B R (tokenCall B R.provider) (Gives B R t₀ fun vaultToken =>
      Provided B R vaultToken.1) s := by
  have hlook : Proceeds B R (Async.read fun s => cachedToken B s.state)
      (fun o s' => Begun B R t₀ s' ∧ ∀ vaultToken, o = some vaultToken →
        LoggedIn B vaultToken.1) s :=
    read_proceeds fun u hu v hv => ⟨(hs.later hu).later hv, fun _ ho =>
      cachedToken_loggedIn (hs.later hu).kept ho⟩
  have hlogged {url : String} {body : Json} {u : VaultCell C W} (hu : Begun B R t₀ u) :
      Proceeds B R (authenticateCall B url body) (Gives B R t₀ fun vaultToken =>
        Provided B R vaultToken.1) u :=
    Safe.weaken (authenticateCall_proceeds hB url body hu) fun r v hr =>
      ⟨hr.1, fun a ha => .inr (hr.2 a ha)⟩
  cases hprovider : R.provider with
  | static token =>
    refine pure_proceeds hs fun a ha => .inl ?_
    obtain rfl := Except.ok.inj ha
    exact hprovider
  | appRole addr roleId secretId =>
    refine .bind .refl hlook fun o u hu => ?_
    cases o with
    | some vaultToken =>
      refine pure_proceeds hu.1 fun a ha => .inr ?_
      exact Except.ok.inj ha ▸ hu.2 vaultToken rfl
    | none => exact hlogged hu.1
  | kubernetes addr role jwtPath =>
    refine .bind .refl hlook fun o u hu => ?_
    cases o with
    | some vaultToken =>
      refine pure_proceeds hu.1 fun a ha => .inr ?_
      exact Except.ok.inj ha ▸ hu.2 vaultToken rfl
    | none =>
      exact Gives.andThen (P := fun _ => True) (call_proceeds hu.1 fun v _ =>
        ⟨inWorld_later (hB.readToString ..), fun _ _ => trivial⟩) fun jwt v hv _ => hlogged hv

theorem getOrBuildClientCall_proceeds (hB : Steady B) {vaultToken : String}
    (hs : Begun B R t₀ s) : Proceeds B R (R.getOrBuildClientCall B vaultToken)
      (Gives B R t₀ fun client => R.buildClient B vaultToken = .ok client) s := by
  refine .bind .refl (read_proceeds (Q := fun o s' => Begun B R t₀ s' ∧
    ∀ client, o = some client → R.buildClient B vaultToken = .ok client)
    fun u hu v hv => ⟨(hs.later hu).later hv, fun client ho => ?_⟩) fun o u hu => ?_
  · obtain ⟨before, after, heq, -⟩ := List.lookup_eq_some_iff.1 ho
    refine (hs.later hu).kept.clients (vaultToken, client) ?_
    rw [heq]
    exact List.mem_append_right _ List.mem_cons_self
  · cases o with
    | some client =>
      refine pure_proceeds hu.1 fun a ha => ?_
      exact Except.ok.inj ha ▸ hu.2 client rfl
    | none =>
      refine Gives.andThen (pure_proceeds hu.1 fun _ h => h) fun client v hv hclient => ?_
      refine .bind .refl (P := fun c s' => Begun B R t₀ s' ∧ R.buildClient B vaultToken = .ok c)
        (.atomically fun x hx => ?_) fun c x hx => pure_proceeds hx.1 fun a ha => ?_
      · obtain ⟨hlater, hbuilt⟩ := keepClient_spec hB hclient (hv.later hx).kept
        exact ⟨.refl x, hlater, fun y hy => ⟨((hv.later hx).later hlater).later hy, hbuilt⟩⟩
      · exact Except.ok.inj ha ▸ hx.2

/-- The entry has been read since `t₀`. -/
def ReadSince (B : VaultBackend C W) (t₀ : Nat) (token : String) (entry : VaultEntry)
    (s : VaultCell C W) : Prop :=
  ∃ r ∈ s.reads, r.token = token ∧ r.entry = entry ∧ t₀ ≤ r.readAt ∧
    r.readAt ≤ B.instant s.state.world

theorem ReadSince.later {token : String} {entry : VaultEntry} (h : ReadSince B t₀ token entry s)
    (hs : Later B R s s') : ReadSince B t₀ token entry s' := by
  obtain ⟨r, hr, htoken, hentry, hsince, hpast⟩ := h
  exact ⟨r, hs.reads hr, htoken, hentry, hsince, hpast.trans hs.clock⟩

theorem lookupTokenCall_proceeds (hB : Steady B) {client : C} {vaultToken token : String}
    (hprovided : Provided B R vaultToken) (hclient : R.buildClient B vaultToken = .ok client)
    (hs : Begun B R t₀ s) : Proceeds B R (R.lookupTokenCall B client token) (fun r s' =>
      Begun B R t₀ s' ∧ ∀ entry, r = .ok entry → ReadSince B t₀ token entry s') s := by
  refine .atomically fun u hu => ⟨.refl u, ?_⟩
  have hu := hs.later hu
  have hworld := inWorld_later (R := R)
    (hB.kv2Read client R.mount (R.pathFor token) u.state.world)
  dsimp only
  cases hr : (B.kv2Read client R.mount (R.pathFor token) u.state.world).1 with
  | error e => exact ⟨hworld, fun v hv => ⟨(hu.later hworld).later hv, nofun⟩⟩
  | ok entry =>
    have hgenuine : Genuine B R ⟨token, client, entry,
        B.instant (B.kv2Read client R.mount (R.pathFor token) u.state.world).2⟩ :=
      ⟨⟨vaultToken, hprovided, hclient⟩, ⟨_, hr⟩⟩
    have hread := addRead_later (s := u.inWorld
      (B.kv2Read client R.mount (R.pathFor token) u.state.world).2) hgenuine
    refine ⟨hworld.trans hread, fun v hv => ⟨((hu.later hworld).later hread).later hv, ?_⟩⟩
    intro entry' heq
    obtain rfl := Except.ok.inj heq
    refine ReadSince.later (s := (u.inWorld _).addRead _)
      ⟨_, List.mem_concat_self, rfl, rfl, ?_⟩ hv
    exact ⟨(hu.later hworld).clock, Nat.le_refl _⟩

/-- The principal was read from Vault for the token: since `t₀`, or before it was put into the
cache, and there it was younger than the entries may be when it was taken, which was since `t₀`. -/
def Resolved (B : VaultBackend C W) (R : VaultAuthResolver) (t₀ : Nat) (token : String)
    (p : Principal) (s : VaultCell C W) : Prop :=
  ∃ r ∈ s.reads, r.token = token ∧ r.entry.principal = p ∧ (t₀ ≤ r.readAt ∨
    ∃ since t, r.readAt ≤ since ∧ since ≤ t ∧ t₀ ≤ t ∧ t ≤ B.instant s.state.world ∧
      t < since + R.cacheTtl)

theorem Resolved.later {token : String} {p : Principal} (h : Resolved B R t₀ token p s)
    (hs : Later B R s s') : Resolved B R t₀ token p s' := by
  obtain ⟨r, hr, htoken, hp, hsince⟩ := h
  refine ⟨r, hs.reads hr, htoken, hp, hsince.imp_right ?_⟩
  rintro ⟨since, t, hread, hle, ht₀, hpast, hage⟩
  exact ⟨since, t, hread, hle, ht₀, hpast.trans hs.clock, hage⟩

theorem cachedPrincipal_resolved {token : String} {p : Principal} (hs : Begun B R t₀ s)
    (h : R.cachedPrincipal B token s.state = some p) : Resolved B R t₀ token p s := by
  obtain ⟨⟨q, since⟩, hlookup, hif⟩ := Option.bind_eq_some_iff.1 h
  obtain ⟨hage, heq⟩ := Option.ite_none_right_eq_some.1 hif
  obtain rfl : q = p := Option.some.inj heq
  obtain ⟨before, after, hcache, -⟩ := List.lookup_eq_some_iff.1 hlookup
  obtain ⟨⟨r, hr, htoken, hp, hread⟩, hpast⟩ := hs.kept.cache (token, q, since) (by
    rw [hcache]
    exact List.mem_append_right _ List.mem_cons_self)
  refine ⟨r, hr, htoken, hp, .inr ⟨since, _, hread, hpast, hs.clock, Nat.le_refl _, ?_⟩⟩
  change B.instant s.state.world - since < R.cacheTtl at hage
  omega

theorem resolveCall_proceeds (hB : Steady B) (token : String) (hs : Begun B R t₀ s) :
    Proceeds B R (R.resolveCall B token) (fun r s' =>
      ∀ p, r = .ok p → Resolved B R t₀ token p s') s := by
  refine .bind .refl (read_proceeds (Q := fun o s' => Begun B R t₀ s' ∧
    ∀ p, o = some p → Resolved B R t₀ token p s') fun u hu v hv =>
      ⟨(hs.later hu).later hv, fun p hp => (cachedPrincipal_resolved (hs.later hu) hp).later hv⟩)
    fun o u hu => ?_
  cases o with
  | some p =>
    refine .pure fun v hv p' hp => ?_
    obtain rfl := Except.ok.inj hp
    exact (hu.2 _ rfl).later hv
  | none =>
    refine .andThen .refl (tokenCall_proceeds hB hu.1) (fun vaultToken v hv => ?_)
      fun _ _ _ _ _ => nofun
    refine .andThen .refl (getOrBuildClientCall_proceeds hB hv.1) (fun client x hx => ?_)
      fun _ _ _ _ _ => nofun
    refine .andThen .refl (lookupTokenCall_proceeds hB (hv.2 _ rfl) (hx.2 _ rfl) hx.1)
      (fun entry y hy => ?_) fun _ _ _ _ _ => nofun
    refine .bind .refl (P := fun _ => Resolved B R t₀ token entry.principal)
      (.atomically fun z hz => ?_) fun _ z hz => .pure fun z' hz' p hp => ?_
    · obtain ⟨r, hr, htoken, hentry, hsince, hpast⟩ := (hy.2 entry rfl).later hz
      have hput := putPrincipal_later (B := B) (R := R) (s := z) token entry.principal
        ⟨r, hr, htoken, congrArg _ hentry, hpast⟩
      refine ⟨.refl z, hput, fun z' hz' => Resolved.later (s := z.putPrincipal ..) ?_ hz'⟩
      exact ⟨r, hr, htoken, congrArg _ hentry, .inl hsince⟩
    · obtain rfl := Except.ok.inj hp
      exact hz.later hz'

/-! ## Any number of resolutions -/

variable {ι : Type}

/-- The resolutions, none of which has begun, with empty caches. -/
def resolutions (B : VaultBackend C W) (R : VaultAuthResolver) (tokens : ι → String) (w : W) :
    Config ι (VaultCell C W) (Option (Async (VaultCell C W) (Result Principal))) :=
  ⟨{ state := { world := w } }, fun i => some (R.resolveCall B (tokens i))⟩

theorem passes_later (h : Passes B s s') : Later B R s s' := by
  obtain ⟨w, hw, rfl⟩ := h
  exact inWorld_later hw

theorem interference :
    Interference (Passes B) (fun _ : ι => Later B R) (fun _ => Later B R) (Later B R) where
  rely_refl _ := .refl
  rely_trans _ := .trans
  rely_of_guarantee _ h := h
  rely_of_env _ := passes_later
  refl := .refl
  trans := .trans
  of_guarantee _ := id
  of_env := passes_later

theorem kept_start (w : W) : Kept B R { state := { world := w } } where
  auth := nofun
  clients := nofun
  distinct := .nil
  bounded := Nat.zero_le _
  cache := nofun
  reads := nofun

theorem resolutions_safe (hB : Steady B) (tokens : ι → String) (w : W) :
    AllSafe (fun _ => Later B R) (fun _ => Later B R)
      (fun i r s => ∀ p, r = .ok p → Resolved B R (B.instant w) (tokens i) p s)
      (resolutions B R tokens w) := by
  intro i x hx
  obtain rfl := Option.some.inj hx
  exact resolveCall_proceeds hB (tokens i) ⟨kept_start w, Nat.le_refl _⟩

/-- Any number of tokens are resolved at the same time, by a resolver whose caches are empty at
first, and resolutions may be dropped. At any time there are at most as many clients as are allowed,
each for one Vault token, and nothing is cached but what Vault has given for the token itself, for a
client with a Vault token of the provider. A token that is then resolved has a principal that Vault
gave for it during the resolution, or that was cached and not too old at some time during it. -/
theorem resolve_concurrent [DecidableEq ι] (hB : Steady B) (tokens : ι → String) (w : W)
    {c : Config ι (VaultCell C W) (Option (Async (VaultCell C W) (Result Principal)))}
    (h : Run (Passes B) (resolutions B R tokens w) c) :
    c.shared.state.clients.length ≤ clientCacheLimit ∧
      (c.shared.state.clients.map Prod.fst).Nodup ∧
      (∀ e ∈ c.shared.state.clients, R.buildClient B e.1 = .ok e.2) ∧
      (∀ e ∈ c.shared.state.cache, ReadFor c.shared.reads e.1 e.2.1 e.2.2) ∧
      (∀ r ∈ c.shared.reads, Genuine B R r) ∧
      ∀ i, c.locals i = some (R.resolveCall B (tokens i)) → ∀ c', Run (Passes B) c c' →
        ∀ p, c'.locals i = some (.done (.ok p)) →
          Resolved B R (B.instant c.shared.state.world) (tokens i) p c'.shared := by
  obtain ⟨hsafe, hlater⟩ := Run.safe interference h (resolutions_safe hB tokens w)
  have hkept := hlater.kept (kept_start w)
  refine ⟨hkept.bounded, hkept.distinct, hkept.clients, fun e he => (hkept.cache e he).1,
    hkept.reads, fun i hi c' h' p hp => ?_⟩
  have hnext : AllSafe (fun _ => Later B R) (fun _ => Later B R) (fun j r s => j = i →
      ∀ p, r = .ok p → Resolved B R (B.instant c.shared.state.world) (tokens j) p s) c := by
    intro j x hx
    rcases eq_or_ne j i with rfl | hne
    · obtain rfl := Option.some.inj (hi.symm.trans hx)
      exact (resolveCall_proceeds hB (tokens j) ⟨hkept, Nat.le_refl _⟩).weaken fun _ _ h _ => h
    · exact (hsafe j x hx).weaken fun _ _ _ h => absurd h hne
  exact (Run.safe interference h' hnext).1.result interference hp rfl p rfl

/-- A Vault with one token; the world is the time. -/
def smallVault : VaultBackend Unit Nat where
  instant := id
  login _ _ now := (.error "refused", now)
  readToString _ now := (.error "no such file", now)
  withinLease _ _ := false
  settings _ _ _ := .ok ()
  client _ _ _ := .ok ()
  kv2Read _ _ path now :=
    if path = "tako/tokens/key" then (.ok { tenantId := "acme", userId := "alice" }, now)
    else (.error (.api 404 "not found"), now)
  firstKey := List.head?
  statusText n := toString n

def smallResolver : VaultAuthResolver :=
  { addr := "https://vault", provider := .static "root" }

theorem smallVault_steady : Steady smallVault where
  login _ _ _ := Nat.le_refl _
  readToString _ _ := Nat.le_refl _
  kv2Read _ _ path now := by
    unfold smallVault
    dsimp only
    split <;> exact Nat.le_refl _
  firstKey keys hne := ⟨keys.head hne, List.head_mem hne, List.head?_eq_some_head hne⟩

/-- One resolution after another: the second begins when the first has ended. -/
theorem resolve_concurrent_alice :
    ∃ c c', Run (Passes smallVault) (resolutions smallVault smallResolver
        (fun _ : Nat => "key") 7) c ∧ Run (Passes smallVault) c c' ∧
      c'.locals 1 = some (.done (.ok { tenantId := "acme", userId := "alice" })) ∧
      Resolved smallVault smallResolver 7 "key" { tenantId := "acme", userId := "alice" }
        c'.shared := by
  let alice : Principal := { tenantId := "acme", userId := "alice" }
  let after : VaultState Unit Nat :=
    { world := 7, clients := [("root", ())], cache := [("key", (alice, 7))] }
  have hafter : ((smallResolver.resolve smallVault "key").run { world := 7 }).world = after :=
    rfl
  have hcached : smallResolver.cachedPrincipal smallVault "key" after = some alice := by
    simp [cachedPrincipal, after, smallResolver, smallVault]
  have hresult : ((smallResolver.resolve smallVault "key").run after).result = .ok alice := by
    rw [resolve, Traced.run_read_bind, hcached]
    rfl
  obtain ⟨s, hfirst, -, hs⟩ := resolveCall_alone (R := smallResolver) (B := smallVault) "key"
    { state := { world := 7 } } trivial
  have hs : s.state = after := hs.trans hafter
  obtain ⟨s', hsecond, -⟩ := resolveCall_alone (R := smallResolver) (B := smallVault) "key" s
    trivial
  rw [hs, hresult] at hsecond
  obtain ⟨c, hrun, rfl, hwaiting⟩ : ∃ c, Run (Passes smallVault)
      (resolutions smallVault smallResolver (fun _ : Nat => "key") 7) c ∧
      c.shared = s ∧ c.locals 1 = some (smallResolver.resolveCall smallVault "key") :=
    ⟨_, Run.exec (i := 0) rfl hfirst, rfl, rfl⟩
  have hnext : Run (Passes smallVault) c _ := Run.exec hwaiting hsecond
  have hdone : Function.update c.locals 1 (some (.done (.ok alice))) 1 =
      some (.done (.ok alice)) := Function.update_self ..
  have hresolved := (resolve_concurrent smallVault_steady _ 7 hrun).2.2.2.2.2 1 hwaiting _ hnext
    alice hdone
  have hclock : smallVault.instant c.shared.state.world = 7 := by
    rw [hs]
    rfl
  rw [hclock] at hresolved
  exact ⟨c, _, hrun, hnext, hdone, hresolved⟩

end VaultAuthResolver

end Tako.Auth
