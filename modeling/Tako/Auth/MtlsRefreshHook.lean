import Tako.Auth.MtlsProvider
import Tako.Auth.OidcRetry
import Tako.Theory.Async

/-!
# The refresh hook

`MtlsRefreshHook::force_refresh` (`tako-compat/src/auth/oidc_mtls_hook.rs`) and the introspections
that call it (`introspect` in `oidc.rs`), as asynchronous programs beside the loop of the provider's
watcher (`run_provider_loop` in `oidc_mtls_provider.rs`). A call puts a trigger into a channel with
room for one, and waits for the loop to reply. Reloads are numbered, and `MtlsClient::current` is
the client that the last of them has installed.
-/

namespace Tako.Auth

open Async
open Interleaving (Config)

/-- In nanoseconds. -/
def refreshTimeout : Nat := 2 * 1000000000

namespace ProviderAct

def isReload : ProviderAct → Bool
  | .fetched _ f => f.result.isOk
  | _ => false

/-- What the reply channel of a hook gives. -/
def replyTo (hook : Nat) : ProviderAct → Option (Result Unit)
  | .reply h r => if h = hook then some r else none
  | _ => none

end ProviderAct

/-- How often the client has been replaced. -/
def reloads (acts : List ProviderAct) : Nat := acts.countP ProviderAct.isReload

/-- A trigger is put into the channel. -/
def ProviderState.queue (s : ProviderState) : ProviderState :=
  { s with hooks := s.hooks ++ [s.drawn], drawn := s.drawn + 1 }

theorem MtlsProviderDeps.step_forceRefresh (D : MtlsProviderDeps) (s : ProviderState) :
    D.step .forceRefresh s = some s.queue := rfl

/-- What an introspection does. `seen` is what the loop had done when the POST took its client. -/
inductive IntrospectAct where
  | post (seen : List ProviderAct) (r : Result (Answer Bool))
  | sent (hook now : Nat)
  | refreshed (r : Result Unit) (now : Nat)

namespace IntrospectAct

/-- The hook whose trigger is put into the channel. -/
def hook : IntrospectAct → Option Nat
  | .sent hook _ => some hook
  | _ => none

end IntrospectAct

/-- What the loop and the introspections share. What these did is kept beside it; nothing depends
on that. -/
structure RefreshCell (ι W : Type) where
  provider : ProviderState := {}
  world : W
  calls : List (ι × IntrospectAct) := []

namespace RefreshCell

variable {ι W : Type}

def inWorld (w : W) (s : RefreshCell ι W) : RefreshCell ι W := { s with world := w }

def withProvider (p : ProviderState) (s : RefreshCell ι W) : RefreshCell ι W :=
  { s with provider := p }

def record (i : ι) (a : IntrospectAct) (s : RefreshCell ι W) : RefreshCell ι W :=
  { s with calls := s.calls ++ [(i, a)] }

/-- The task of the loop is gone, and with it its ends of all channels. -/
def isGone (s : RefreshCell ι W) : Bool := decide (s.provider.phase = .stopped)

/-- What is read from the reply channel of a hook. -/
def replyTo (hook : Nat) (s : RefreshCell ι W) : Option (Result Unit) :=
  s.provider.acts.findSome? (ProviderAct.replyTo hook)

end RefreshCell

/-! ## The hook -/

namespace MtlsRefreshHook

variable {ι W : Type}

def sourceGone : TakoError :=
  .invalid "oidc.mtls_refresh_hook: refresh source dropped (watcher / provider task is gone)"

def replyDropped : TakoError :=
  .invalid "oidc.mtls_refresh_hook: refresh source dropped reply channel"

def timedOut : TakoError := .invalid "oidc.mtls_refresh_hook: refresh timed out after 2s"

/-- A trigger is sent where there is room for it, and fails if the receiver is gone. -/
def trySend (i : ι) (s : RefreshCell ι W) : Option Nat × RefreshCell ι W :=
  if s.isGone then (none, s.record i (.refreshed (.error sourceGone) s.provider.now))
  else
    (some s.provider.drawn,
      (s.withProvider s.provider.queue).record i (.sent s.provider.drawn s.provider.now))

def send (i : ι) : Async (RefreshCell ι W) (Option Nat) :=
  .await (fun s => s.isGone || s.provider.hooks.isEmpty) (fun s => (trySend i s).2) id
    fun s => pure (trySend i s).1

/-- What the wait for a reply ends with: the reply comes first, and then the end of the channel. -/
def received (hook : Nat) (s : RefreshCell ι W) : Result Unit :=
  match s.replyTo hook with
  | some r => r
  | none => if s.isGone then .error replyDropped else .error timedOut

def receive (i : ι) (hook deadline : Nat) : Async (RefreshCell ι W) (Result Unit) :=
  .await
    (fun s => (s.replyTo hook).isSome || s.isGone || decide (deadline ≤ s.provider.now))
    (fun s => s.record i (.refreshed (received hook s) s.provider.now)) id
    fun s => pure (received hook s)

/-- A call of the hook by `i`. -/
def forceRefresh (i : ι) : Async (RefreshCell ι W) (Result Unit) := do
  match ← send i with
  | none => pure (.error sourceGone)
  | some hook =>
    let deadline ← Async.read fun s => s.provider.now + refreshTimeout
    receive i hook deadline

end MtlsRefreshHook

/-! ## Introspections -/

namespace OidcAuthResolver

variable {J : Jsonwebtoken} {κ ι W : Type} (R : OidcAuthResolver κ) (B : OidcBackend J κ W)

/-- The endpoint answers a request that is sent with the client of the `n`th reload, if it is sent
with an mTLS client. -/
abbrev Endpoint (W : Type) := (n : Nat) → IntrospectRequest → W → Reply Bool × W

variable (post : Endpoint W)

/-- The POST with the client that `seen` left. -/
def postOnce (i : ι) (cfg : IntrospectionConfig κ) (form : List (String × String))
    (seen : List ProviderAct) : Async (RefreshCell ι W) (Result (Answer Bool)) :=
  atomically fun s =>
    let answer := post (reloads seen) (introspectRequest cfg form) s.world
    let r := answer.1.mapError fun e =>
      .transport s!"oidc: introspect POST {cfg.introspectUri}: {e}"
    (r, (s.inWorld answer.2).record i (.post seen r))

def introspectSendOnceCall (i : ι) (cfg : IntrospectionConfig κ) (form : List (String × String)) :
    Async (RefreshCell ι W) (Result (Answer Bool)) := do
  let seen ← Async.read fun s => s.provider.acts
  postOnce post i cfg form seen

/-- The POST, and once more after a refresh, whether that works or not. -/
def introspectSendCall (i : ι) (cfg : IntrospectionConfig κ) (form : List (String × String)) :
    Async (RefreshCell ι W) (Result (Answer Bool)) := do
  match ← introspectSendOnceCall post i cfg form with
  | .ok resp => pure (.ok resp)
  | .error e =>
    if R.shouldRetryWithRefresh cfg e then do
      let _ ← MtlsRefreshHook.forceRefresh i
      introspectSendOnceCall post i cfg form
    else pure (.error e)

/-- The client assertion is made of the time and the id of the moment. -/
def assertionCall (cfg : IntrospectionConfig κ) :
    Async (RefreshCell ι W) (Result (Option String)) :=
  Async.read fun s => ((assertion B cfg : M J W (Option String)).run { world := s.world }).result

/-- An mTLS method needs a client. -/
def checkMtlsClient (cfg : IntrospectionConfig κ) : Result Unit :=
  match mtlsMethodName cfg.authMethod with
  | some name =>
    Except.rejectIf (¬cfg.mtlsClient) (.invalid s!"oidc: {name} requires mtls_client to be set")
  | none => .ok ()

/-- An introspection by `i`. -/
def introspectCall (i : ι) (token : String) : Async (RefreshCell ι W) (Result Unit) :=
  match R.introspection with
  | none => pure (.ok ())
  | some cfg =>
    (assertionCall B cfg).andThen fun jwt => Async.andThen (pure (checkMtlsClient cfg)) fun _ =>
      (R.introspectSendCall post i cfg (introspectForm cfg jwt token)).andThen fun resp =>
        pure (checkActive B resp)

/-- The introspections, none of which has begun, and a watcher whose task has just been
spawned. -/
def introspections (tokens : ι → String) (w : W) :
    Config ι (RefreshCell ι W) (Option (Async (RefreshCell ι W) (Result Unit))) :=
  ⟨{ world := w }, fun i => some (R.introspectCall B post i (tokens i))⟩

end OidcAuthResolver

/-- What is nobody's: the loop goes on, its task is aborted, or the world changes. -/
inductive WatcherGoes (D : MtlsProviderDeps) {ι W : Type} : RefreshCell ι W → RefreshCell ι W → Prop
  | moved : m ≠ .forceRefresh → D.step m s.provider = some p →
    WatcherGoes D s (s.withProvider p)
  | aborted : WatcherGoes D s (s.withProvider { s.provider with phase := .stopped })
  | elsewhere (w : W) : WatcherGoes D s (s.inWorld w)

end Tako.Auth
