import Tako.Auth.Basic
import Tako.Rust.Str
import Tako.Theory.Traced

/-!
# Tokens that are looked up in Vault

`VaultAuthResolver` (`tako-compat/src/auth/vault.rs`) and the providers of the token that it shows to
Vault itself (`vault_token.rs`). All times are in nanoseconds of the monotonic clock.
-/

namespace Tako.Auth

/-! ## Vault -/

structure VaultEntry where
  tenantId : String
  userId : String
  roles : List String := []

/-- The `auth` of a login's answer; `leaseDuration` is in seconds. -/
structure VaultAuthBody where
  clientToken : String
  leaseDuration : Nat := 0

/-- `vaultrs::error::ClientError`, with its text. -/
inductive ClientError where
  | network (e : String)
  | api (code : Nat) (e : String)
  | other (e : String)

def ClientError.display : ClientError → String
  | network e | api _ e | other e => e

/-- What the resolver calls, with the clients `C` of `vaultrs`, in a world `W`. -/
structure VaultBackend (C W : Type) where
  instant : W → Nat
  login : String → Json → W → Reply VaultAuthBody × W
  readToString : String → W → Except String String × W
  /-- Whether less than nine tenths of a lease are over, in `f32`. -/
  withinLease : Nat → Nat → Bool
  /-- The settings of a client from address, token and namespace. -/
  settings : String → String → Option String → Except String Unit
  client : String → String → Option String → Except String C
  kv2Read : C → String → String → W → Except ClientError VaultEntry × W
  /-- The first key in the order of a `HashMap`. -/
  firstKey : List String → Option String
  statusText : Nat → String

/-! ## State and actions -/

structure CachedAuth where
  token : String
  fetchedAt : Nat
  leaseDuration : Nat

/-- The provider's cache, the clients by their Vault tokens, and the principals with the times at
which they were looked up. -/
structure VaultState (C W : Type) where
  world : W
  auth : Option CachedAuth := none
  clients : List (String × C) := []
  cache : List (String × (Principal × Nat)) := []

inductive VaultAct where
  | readJwt (path : String) (r : Except String String)
  | login (url : String) (r : Reply VaultAuthBody)
  | kv2Read (path : String) (r : Except ClientError VaultEntry)

/-- The implementations of `VaultTokenProvider`. -/
inductive VaultTokenProvider where
  | static (token : String)
  | appRole (addr roleId secretId : String)
  | kubernetes (addr role jwtPath : String)

structure VaultAuthResolver where
  addr : String
  provider : VaultTokenProvider
  mount : String := "secret"
  pathPrefix : String := "tako/tokens"
  cacheTtl : Nat := 60000000000
  namespaceName : Option String := none

namespace VaultAuthResolver

abbrev M (C W : Type) := Traced (VaultState C W) VaultAct TakoError

variable {C W : Type} (B : VaultBackend C W)

/-! ## Vault tokens -/

def isFresh (now : Nat) (entry : CachedAuth) : Bool :=
  B.withinLease (now - entry.fetchedAt) entry.leaseDuration

/-- The cached token with what remains of its lease. -/
def cachedToken (s : VaultState C W) : Option (String × Option Nat) :=
  s.auth.bind fun entry =>
    if isFresh B (B.instant s.world) entry then
      some (entry.token, some (entry.leaseDuration - (B.instant s.world - entry.fetchedAt)))
    else none

def vaultLogin (url : String) (body : Json) : M C W VaultAuthBody := do
  let resp ← .call (fun s => ((B.login url body s.world).1.mapError fun e =>
      .transport s!"vault: login `{url}`: {e}", { s with world := (B.login url body s.world).2 }))
    fun s _ => .login url (B.login url body s.world).1
  if ¬resp.isSuccess then
    .throw (.invalid s!"vault: login `{url}` returned {B.statusText resp.status}: {resp.text}")
  else
    .ofExcept (resp.json.mapError fun e => .invalid s!"vault: login response parse: {e.display}")

/-- A login whose lease is kept. -/
def authenticate (url : String) (body : Json) : M C W (String × Option Nat) := do
  let auth ← vaultLogin B url body
  let lease := max auth.leaseDuration 1 * 1000000000
  .modify fun s => { s with auth := some ⟨auth.clientToken, B.instant s.world, lease⟩ }
  pure (auth.clientToken, some lease)

def appRoleToken (addr roleId secretId : String) : M C W (String × Option Nat) := do
  match ← .read (cachedToken B) with
  | some token => pure token
  | none =>
    authenticate B (Str.trimEndMatches addr '/' ++ "/v1/auth/approle/login")
      (.object [("role_id", .string roleId), ("secret_id", .string secretId)])

def kubernetesToken (addr role jwtPath : String) : M C W (String × Option Nat) := do
  match ← .read (cachedToken B) with
  | some token => pure token
  | none => do
    let jwt ← .call (fun s => ((B.readToString jwtPath s.world).1.mapError fun e =>
        .transport s!"vault: kubernetes JWT path `{jwtPath}` unreadable: {e}",
        { s with world := (B.readToString jwtPath s.world).2 }))
      fun s _ => .readJwt jwtPath (B.readToString jwtPath s.world).1
    authenticate B (Str.trimEndMatches addr '/' ++ "/v1/auth/kubernetes/login")
      (.object [("jwt", .string (Str.trim jwt)), ("role", .string role)])

def token : VaultTokenProvider → M C W (String × Option Nat)
  | .static token => pure (token, none)
  | .appRole addr roleId secretId => appRoleToken B addr roleId secretId
  | .kubernetes addr role jwtPath => kubernetesToken B addr role jwtPath

/-! ## Lookups -/

variable (R : VaultAuthResolver)

def clientCacheLimit : Nat := 4

/-- One more client, in the place of another if there are too many. -/
def insertClient (vaultToken : String) (client : C) (clients : List (String × C)) :
    List (String × C) :=
  let kept :=
    if clients.length ≥ clientCacheLimit then
      match B.firstKey (clients.map Prod.fst) with
      | some k => clients.filter (·.1 ≠ k)
      | none => clients
    else clients
  (vaultToken, client) :: kept

/-- The clients are looked at under the read lock, and again under the write lock. -/
def getOrBuildClient (vaultToken : String) : M C W C := do
  match ← .read fun s => s.clients.lookup vaultToken with
  | some c => pure c
  | none => do
    .ofExcept ((B.settings R.addr vaultToken R.namespaceName).mapError fun e =>
      .invalid s!"vault: invalid client settings: {e}")
    let client ← .ofExcept ((B.client R.addr vaultToken R.namespaceName).mapError fun e =>
      .transport s!"vault: client connect: {e}")
    match ← .read fun s => s.clients.lookup vaultToken with
    | some existing => pure existing
    | none => do
      .modify fun s => { s with clients := insertClient B vaultToken client s.clients }
      pure client

def pathFor (token : String) : String :=
  Str.trimEndMatches R.pathPrefix '/' ++ "/" ++ token

/-- The cached principal of a token, unless it is too old. -/
def cachedPrincipal (token : String) (s : VaultState C W) : Option Principal :=
  (s.cache.lookup token).bind fun entry =>
    if B.instant s.world - entry.2 < R.cacheTtl then some entry.1 else none

def lookupToken (client : C) (token : String) : M C W VaultEntry :=
  let path := R.pathFor token
  .call (fun s => ((B.kv2Read client R.mount path s.world).1.mapError fun e =>
      .invalid s!"vault: lookup `{path}` failed: {e.display}",
      { s with world := (B.kv2Read client R.mount path s.world).2 }))
    fun s _ => .kv2Read path (B.kv2Read client R.mount path s.world).1

def resolve (token : String) : M C W Principal := do
  match ← .read (R.cachedPrincipal B token) with
  | some p => pure p
  | none => do
    let vaultToken ← VaultAuthResolver.token B R.provider
    let client ← R.getOrBuildClient B vaultToken.1
    let entry ← R.lookupToken B client token
    let principal : Principal :=
      { tenantId := entry.tenantId, userId := entry.userId, roles := entry.roles }
    .modify fun s =>
      { s with
        cache := (token, (principal, B.instant s.world)) :: s.cache.filter (·.1 ≠ token) }
    pure principal

end VaultAuthResolver

end Tako.Auth
