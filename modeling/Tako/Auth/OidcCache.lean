import Tako.Auth.Oidc
import Tako.Theory.Async

/-!
# The key set that concurrent resolutions share

`OidcAuthResolver::jwks` (`tako-compat/src/auth/oidc.rs`) and the validation around it, as
asynchronous programs: any number of resolutions share the cached key set and its read-write lock,
and each of them may be dropped where it waits. Alone a resolution is the function of
`Tako.Auth.Oidc` (`validateCall_alone`).
-/

namespace Tako.Auth

open Async
open Interleaving (Config)

/-- A key set as it was put into the cache. -/
structure StoredJwks (J : Jsonwebtoken) (ι : Type) where
  jwks : List J.Jwk
  fetchedAt : Nat
  caller : ι
  force : Bool

/-- What the calls share: the cache and its lock. The calls whose requests are under way and the
key sets in the order in which they were stored are kept beside it; nothing depends on them. -/
structure JwksCell (J : Jsonwebtoken) (ι W : Type) where
  state : OidcState J W
  lock : RwLock ι := {}
  inFlight : Finset ι := ∅
  stored : List (StoredJwks J ι) := []

namespace JwksCell

variable {J : Jsonwebtoken} {ι W : Type}

def mapLock (f : RwLock ι → RwLock ι) (s : JwksCell J ι W) : JwksCell J ι W :=
  { s with lock := f s.lock }

def send [DecidableEq ι] (i : ι) (s : JwksCell J ι W) : JwksCell J ι W :=
  { s with inFlight := insert i s.inFlight }

def hangUp [DecidableEq ι] (i : ι) (s : JwksCell J ι W) : JwksCell J ι W :=
  { s with inFlight := s.inFlight.erase i }

/-- The world goes on. -/
def inWorld (w : W) (s : JwksCell J ι W) : JwksCell J ι W :=
  { s with state := { s.state with world := w } }

/-- The key set is cached, with the time. -/
def store (now : Nat) (i : ι) (force : Bool) (jwks : List J.Jwk) (s : JwksCell J ι W) :
    JwksCell J ι W :=
  { s with
    state := { s.state with cache := some ⟨jwks, now⟩ }
    stored := s.stored ++ [⟨jwks, now, i, force⟩] }

end JwksCell

namespace OidcAuthResolver

variable {J : Jsonwebtoken} {κ ι W : Type} (R : OidcAuthResolver κ) (B : OidcBackend J κ W)

/-! ## The programs -/

section

variable [DecidableEq ι]

/-- The request, until its answer has come. -/
def getJwks (i : ι) : Async (JwksCell J ι W) (Result (Answer (List J.Jwk))) :=
  acquiring (fun _ => true) (.send i) (.hangUp i) <| atomically fun s =>
    ((B.getJwks R.jwksUri s.state.world).1.mapError fun e =>
      .transport s!"oidc: jwks GET {R.jwksUri} failed: {e}",
      s.inWorld (B.getJwks R.jwksUri s.state.world).2)

/-- What an answer means. -/
def readJwks (resp : Answer (List J.Jwk)) : Result (List J.Jwk) :=
  if resp.isStatusError then
    .error (.transport s!"oidc: jwks {R.jwksUri}: {B.statusError resp.status}")
  else
    resp.json.mapError fun e => .invalid s!"oidc: malformed JWKS: {e.display}"

/-- The fetch, under the write lock. -/
def fetchJwksCall (i : ι) (force : Bool) : Async (JwksCell J ι W) (Result (List J.Jwk)) :=
  (R.getJwks B i).andThen fun resp => (Async.done (R.readJwks B resp)).andThen fun jwks => do
    modify fun s => s.store (B.instant s.state.world) i force jwks
    pure (.ok jwks)

/-- The cached key set, unless it is too old or not asked for. -/
def lookAt (force : Bool) : Async (JwksCell J ι W) (Option (List J.Jwk)) :=
  Async.read fun s => if force then none else R.fresh B s.state

/-- Under the read lock, and not if `force` is set. -/
def jwksCached (i : ι) (force : Bool) : Async (JwksCell J ι W) (Option (List J.Jwk)) :=
  if force then pure none
  else
    acquiring (fun s => s.lock.readable) (.mapLock (.lockRead i)) (.mapLock (.unlockRead i))
      (R.lookAt B force)

/-- Under the write lock: the cache is looked at once more, and then fetched. -/
def jwksLocked (i : ι) (force : Bool) : Async (JwksCell J ι W) (Result (List J.Jwk)) :=
  acquiring (fun s => s.lock.writable) (.mapLock (.lockWrite i)) (.mapLock .unlockWrite) do
    match ← R.lookAt B force with
    | some jwks => pure (.ok jwks)
    | none => R.fetchJwksCall B i force

/-- A call of `jwks` by `i`. -/
def jwksCall (i : ι) (force : Bool) : Async (JwksCell J ι W) (Result (List J.Jwk)) := do
  match ← R.jwksCached B i force with
  | some jwks => pure (.ok jwks)
  | none => R.jwksLocked B i force

def validateAt (token : String) (jwks : List J.Jwk) : Async (JwksCell J ι W) (Result Principal) :=
  Async.read fun s => R.validateAgainst (B.unixNow s.state.world) token jwks

/-- The resolution of a token by `i`, up to its introspection. -/
def validateCall (i : ι) (token : String) : Async (JwksCell J ι W) (Result Principal) :=
  (R.jwksCall B i false).andThen fun cached => do
    match ← R.validateAt B token cached with
    | .ok p => pure (.ok p)
    | .error e =>
      if retries e then (R.jwksCall B i true).andThen (R.validateAt B token)
      else pure (.error e)

/-! ## Alone -/

/-- The lock is as it is, and no request is under way. -/
def Idle (lock : RwLock ι) (s : JwksCell J ι W) : Prop := s.lock = lock ∧ s.inFlight = ∅

variable {R B} {i : ι}

theorem getJwks_alone (lock : RwLock ι) : Alone (Idle lock) JwksCell.state (R.getJwks B i)
    (ask (fun w => ((B.getJwks R.jwksUri w).1.mapError fun e =>
      .transport s!"oidc: jwks GET {R.jwksUri} failed: {e}", (B.getJwks R.jwksUri w).2))
      .getJwks) := by
  refine .acquiring (J := fun s => s.lock = lock ∧ s.inFlight = {i}) (.call fun s hs => ?_)
    (fun s hs => ⟨rfl, ⟨hs.1, ?_⟩, rfl⟩) fun s hs => ⟨⟨hs.1, ?_⟩, rfl⟩
  · exact ⟨rfl, hs, rfl⟩
  · rw [JwksCell.send, hs.2, insert_empty_eq]
  · rw [JwksCell.hangUp, hs.2, Finset.erase_singleton]

theorem fetchJwksCall_alone (lock : RwLock ι) (force : Bool) :
    Alone (Idle lock) JwksCell.state (R.fetchJwksCall B i force) (fetchJwks R B) := by
  refine .andThen (getJwks_alone lock) fun resp => ?_
  unfold readJwks
  split
  · exact .ofExcept (.error _)
  · exact .andThen (.ofExcept _) fun jwks =>
      .bind (fun s hs => ⟨(), _, rfl, rfl, hs, rfl⟩) fun _ => .ofExcept (.ok jwks)

theorem jwksCached_exec (force : Bool) {s : JwksCell J ι W} (hs : Idle {} s) :
    (R.jwksCached B i force).exec s = some (if force then none else R.fresh B s.state, s) := by
  obtain ⟨state, lock, inFlight, stored⟩ := s
  obtain ⟨rfl, rfl⟩ := hs
  cases force with
  | true => rfl
  | false =>
    have herase : (insert i (∅ : Finset ι)).erase i = ∅ :=
      Finset.erase_insert (Finset.notMem_empty i)
    rw [jwksCached, if_neg Bool.false_ne_true, exec_acquiring rfl, lookAt, exec_read,
      Option.map_some]
    simp only [JwksCell.mapLock, RwLock.lockRead, RwLock.unlockRead, herase]

/-- A call that nobody disturbs is the function of the resolver. -/
theorem jwksCall_alone (force : Bool) :
    Alone (Idle {}) JwksCell.state (R.jwksCall B i force) (R.jwks B force) := by
  refine .bind (fun s hs => ⟨_, s, jwksCached_exec force hs, rfl, hs, rfl⟩) fun o => ?_
  cases o with
  | some jwks => exact .ofExcept (.ok jwks)
  | none =>
    refine .acquiring (J := Idle { writer := some i }) (.bind
      (fun s hs => ⟨_, s, rfl, rfl, hs, rfl⟩) fun o => ?_) (fun s hs => ?_) fun s hs => ?_
    · cases o with
      | some jwks => exact .ofExcept (.ok jwks)
      | none => exact fetchJwksCall_alone _ force
    · obtain ⟨hlock, hidle⟩ := hs
      exact ⟨by rw [hlock]; rfl, ⟨by rw [JwksCell.mapLock, hlock]; rfl, hidle⟩, rfl⟩
    · exact ⟨⟨by rw [JwksCell.mapLock, hs.1]; rfl, hs.2⟩, rfl⟩

/-- A resolution that nobody disturbs, up to its introspection. -/
theorem validateCall_alone (token : String) :
    Alone (Idle {}) JwksCell.state (R.validateCall B i token) (R.validate B token) := by
  have hnow (s : JwksCell J ι W) (hs : Idle {} s) (jwks : List J.Jwk) : ∃ r s',
      (R.validateAt B token jwks).exec s = some (r, s') ∧
        ((R.validateNow B token jwks).run s.state).result = .ok r ∧ Idle {} s' ∧
        s'.state = ((R.validateNow B token jwks).run s.state).world :=
    ⟨_, s, rfl, rfl, hs, rfl⟩
  refine .andThen (jwksCall_alone false) fun cached =>
    .bind (fun s hs => hnow s hs cached) fun r => ?_
  cases r with
  | ok p => exact .ofExcept (.ok p)
  | error e =>
    dsimp only
    split
    · refine .andThen (jwksCall_alone true) fun latest s hs => ?_
      obtain ⟨r, s', hx, hy, hs', hview⟩ := hnow s hs latest
      rw [Traced.run_bind_ok _ hy, Traced.run_ofExcept]
      exact ⟨s', hx, hs', hview⟩
    · exact .ofExcept (.error e)

end

end OidcAuthResolver

end Tako.Auth
