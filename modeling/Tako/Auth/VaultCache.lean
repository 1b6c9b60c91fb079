import Tako.Auth.Vault
import Tako.Theory.Async

/-!
# The caches that concurrent lookups in Vault share

`VaultAuthResolver::resolve` (`tako-compat/src/auth/vault.rs`) and the providers of Vault tokens
(`vault_token.rs`) as asynchronous programs on the three caches that they share. No guard is held
while something is awaited, so what happens under a lock is one step; between the steps others take
theirs. Alone a resolution is the function of `Tako.Auth.Vault` (`resolveCall_alone`).
-/

namespace Tako.Auth

open Async
open Interleaving (Config)

/-- An entry that Vault has given for a token. -/
structure VaultRead (C : Type) where
  token : String
  client : C
  entry : VaultEntry
  readAt : Nat

/-- What the resolutions share. The entries that have been read are kept beside it; nothing depends
on them. -/
structure VaultCell (C W : Type) where
  state : VaultState C W
  reads : List (VaultRead C) := []

namespace VaultCell

variable {C W : Type}

def inWorld (w : W) (s : VaultCell C W) : VaultCell C W :=
  { s with state := { s.state with world := w } }

def putAuth (entry : CachedAuth) (s : VaultCell C W) : VaultCell C W :=
  { s with state := { s.state with auth := some entry } }

def putClients (clients : List (String × C)) (s : VaultCell C W) : VaultCell C W :=
  { s with state := { s.state with clients } }

def putPrincipal (token : String) (principal : Principal) (now : Nat) (s : VaultCell C W) :
    VaultCell C W :=
  { s with
    state :=
      { s.state with cache := (token, (principal, now)) :: s.state.cache.filter (·.1 ≠ token) } }

/-- An entry has been read. -/
def addRead (r : VaultRead C) (s : VaultCell C W) : VaultCell C W :=
  { s with reads := s.reads ++ [r] }

end VaultCell

def VaultEntry.principal (entry : VaultEntry) : Principal :=
  { tenantId := entry.tenantId, userId := entry.userId, roles := entry.roles }

namespace VaultAuthResolver

variable {C W : Type} (B : VaultBackend C W)

/-! ## The programs -/

/-- What an answer means. -/
def readLogin (url : String) (resp : Answer VaultAuthBody) : Result VaultAuthBody :=
  if ¬resp.isSuccess then
    .error (.invalid s!"vault: login `{url}` returned {B.statusText resp.status}: {resp.text}")
  else
    resp.json.mapError fun e => .invalid s!"vault: login response parse: {e.display}"

def vaultLoginCall (url : String) (body : Json) : Async (VaultCell C W) (Result VaultAuthBody) :=
  (atomically fun s => ((B.login url body s.state.world).1.mapError fun e =>
      .transport s!"vault: login `{url}`: {e}",
      s.inWorld (B.login url body s.state.world).2)).andThen fun resp =>
    .done (readLogin B url resp)

/-- The time is taken before the lock. -/
def authenticateCall (url : String) (body : Json) :
    Async (VaultCell C W) (Result (String × Option Nat)) :=
  (vaultLoginCall B url body).andThen fun auth => do
    let lease := max auth.leaseDuration 1 * 1000000000
    let now ← Async.read fun s => B.instant s.state.world
    modify fun s => s.putAuth ⟨auth.clientToken, now, lease⟩
    pure (.ok (auth.clientToken, some lease))

def appRoleTokenCall (addr roleId secretId : String) :
    Async (VaultCell C W) (Result (String × Option Nat)) := do
  match ← Async.read fun s => cachedToken B s.state with
  | some token => pure (.ok token)
  | none =>
    authenticateCall B (Str.trimEndMatches addr '/' ++ "/v1/auth/approle/login")
      (.object [("role_id", .string roleId), ("secret_id", .string secretId)])

def kubernetesTokenCall (addr role jwtPath : String) :
    Async (VaultCell C W) (Result (String × Option Nat)) := do
  match ← Async.read fun s => cachedToken B s.state with
  | some token => pure (.ok token)
  | none =>
    (atomically fun s => ((B.readToString jwtPath s.state.world).1.mapError fun e =>
        .transport s!"vault: kubernetes JWT path `{jwtPath}` unreadable: {e}",
        s.inWorld (B.readToString jwtPath s.state.world).2)).andThen fun jwt =>
      authenticateCall B (Str.trimEndMatches addr '/' ++ "/v1/auth/kubernetes/login")
        (.object [("jwt", .string (Str.trim jwt)), ("role", .string role)])

def tokenCall : VaultTokenProvider → Async (VaultCell C W) (Result (String × Option Nat))
  | .static token => pure (.ok (token, none))
  | .appRole addr roleId secretId => appRoleTokenCall B addr roleId secretId
  | .kubernetes addr role jwtPath => kubernetesTokenCall B addr role jwtPath

variable (R : VaultAuthResolver)

/-- A client of `vaultrs` for a Vault token. -/
def buildClient (vaultToken : String) : Result C := do
  (B.settings R.addr vaultToken R.namespaceName).mapError fun e =>
    .invalid s!"vault: invalid client settings: {e}"
  (B.client R.addr vaultToken R.namespaceName).mapError fun e =>
    .transport s!"vault: client connect: {e}"

/-- The client is put into the cache, unless another one is there by now. -/
def keepClient (vaultToken : String) (client : C) (s : VaultCell C W) : C × VaultCell C W :=
  match s.state.clients.lookup vaultToken with
  | some existing => (existing, s)
  | none => (client, s.putClients (insertClient B vaultToken client s.state.clients))

def getOrBuildClientCall (vaultToken : String) : Async (VaultCell C W) (Result C) := do
  match ← Async.read fun s => s.state.clients.lookup vaultToken with
  | some c => pure (.ok c)
  | none =>
    (Async.done (R.buildClient B vaultToken)).andThen fun client => do
      let kept ← atomically (keepClient B vaultToken client)
      pure (.ok kept)

def lookupTokenCall (client : C) (token : String) : Async (VaultCell C W) (Result VaultEntry) :=
  atomically fun s =>
    let path := R.pathFor token
    let r := B.kv2Read client R.mount path s.state.world
    let s := s.inWorld r.2
    match r.1 with
    | .ok entry => (.ok entry, s.addRead ⟨token, client, entry, B.instant s.state.world⟩)
    | .error e => (.error (.invalid s!"vault: lookup `{path}` failed: {e.display}"), s)

def resolveCall (token : String) : Async (VaultCell C W) (Result Principal) := do
  match ← Async.read fun s => R.cachedPrincipal B token s.state with
  | some p => pure (.ok p)
  | none =>
    (tokenCall B R.provider).andThen fun vaultToken =>
      (R.getOrBuildClientCall B vaultToken.1).andThen fun client =>
        (R.lookupTokenCall B client token).andThen fun entry => do
          modify fun s => s.putPrincipal token entry.principal (B.instant s.state.world)
          pure (.ok entry.principal)

/-! ## Alone -/

variable {B R}

theorem vaultLoginCall_alone (url : String) (body : Json) :
    Alone (fun _ => True) VaultCell.state (vaultLoginCall B url body) (vaultLogin B url body) := by
  refine .andThen (.call fun s _ => ⟨rfl, trivial, rfl⟩) fun resp => ?_
  unfold readLogin
  split
  · exact .ofExcept (.error _)
  · exact .ofExcept _

theorem authenticateCall_alone (url : String) (body : Json) :
    Alone (fun _ => True) VaultCell.state (authenticateCall B url body)
      (authenticate B url body) := by
  refine .andThen (vaultLoginCall_alone url body) fun auth s _ => ?_
  exact ⟨_, rfl, trivial, rfl⟩

theorem tokenCall_alone (provider : VaultTokenProvider) :
    Alone (fun _ => True) VaultCell.state (tokenCall B provider) (token B provider) := by
  have hlook (s : VaultCell C W) (_ : True) : ∃ o s',
      (Async.read fun s => cachedToken B s.state).exec s = some (o, s') ∧
        ((Traced.read (cachedToken B) : M C W _).run s.state).result = .ok o ∧ True ∧
          s'.state = ((Traced.read (cachedToken B) : M C W _).run s.state).world :=
    ⟨_, s, rfl, rfl, trivial, rfl⟩
  cases provider with
  | static token => exact .ofExcept (.ok _)
  | appRole addr roleId secretId =>
    refine .bind hlook fun o => ?_
    cases o with
    | some token => exact .ofExcept (.ok token)
    | none => exact authenticateCall_alone _ _
  | kubernetes addr role jwtPath =>
    refine .bind hlook fun o => ?_
    cases o with
    | some token => exact .ofExcept (.ok token)
    | none =>
      exact .andThen (.call fun s _ => ⟨rfl, trivial, rfl⟩) fun jwt => authenticateCall_alone _ _

theorem getOrBuildClientCall_alone (vaultToken : String) :
    Alone (fun _ => True) VaultCell.state (R.getOrBuildClientCall B vaultToken)
      (R.getOrBuildClient B vaultToken) := by
  refine .bind (fun s _ => ⟨_, s, rfl, rfl, trivial, rfl⟩) fun o => ?_
  cases o with
  | some c => exact .ofExcept (.ok c)
  | none =>
    unfold buildClient
    cases B.settings R.addr vaultToken R.namespaceName with
    | error e => exact .ofExcept (.error _)
    | ok u =>
      cases B.client R.addr vaultToken R.namespaceName with
      | error e => exact .ofExcept (.error _)
      | ok client =>
        intro s _
        refine ⟨(keepClient B vaultToken client s).2, ?_⟩
        simp only [Except.mapError, Traced.ofExcept, pure, Traced.run_bind, Traced.andThen,
          Traced.read]
        change some (Except.ok (keepClient B vaultToken client s).1,
          (keepClient B vaultToken client s).2) = _ ∧ _
        unfold keepClient
        cases s.state.clients.lookup vaultToken with
        | some existing => exact ⟨rfl, trivial, rfl⟩
        | none => exact ⟨rfl, trivial, rfl⟩

theorem lookupTokenCall_alone (client : C) (token : String) :
    Alone (fun _ => True) VaultCell.state (R.lookupTokenCall B client token)
      (R.lookupToken B client token) := by
  unfold lookupTokenCall lookupToken
  refine .call fun s _ => ?_
  dsimp only
  cases B.kv2Read client R.mount (R.pathFor token) s.state.world with
  | mk r w =>
    cases r with
    | ok entry => exact ⟨rfl, trivial, rfl⟩
    | error e => exact ⟨rfl, trivial, rfl⟩

/-- A resolution that nobody disturbs is the function of the resolver. -/
theorem resolveCall_alone (token : String) :
    Alone (fun _ => True) VaultCell.state (R.resolveCall B token) (R.resolve B token) := by
  refine .bind (fun s _ => ⟨_, s, rfl, rfl, trivial, rfl⟩) fun o => ?_
  cases o with
  | some p => exact .ofExcept (.ok p)
  | none =>
    exact .andThen (tokenCall_alone R.provider) fun vaultToken =>
      .andThen (getOrBuildClientCall_alone vaultToken.1) fun client =>
        .andThen (lookupTokenCall_alone client token) fun entry =>
          .bind (fun s _ => ⟨(), _, rfl, rfl, trivial, rfl⟩) fun _ => .ofExcept (.ok _)

end VaultAuthResolver

end Tako.Auth
