import Tako.Auth.OidcCache
import Tako.Auth.OidcSoundness

/-!
# Concurrent resolutions of an OIDC issuer's tokens

Whatever the resolutions do beside one another, and wherever they are dropped: there is one request
to the issuer at a time, nobody fetches without `force` what is still fresh, and a token is accepted
with what was the newest key set at a time during its resolution (`validate_concurrent`). The
invariant is `Coherent`; a call relies on it and on its own hold of the lock (`Rely`).
-/

namespace Tako.Auth

open Async
open Interleaving (Config)

namespace OidcAuthResolver

variable {J : Jsonwebtoken} {κ ι W : Type} (R : OidcAuthResolver κ) (B : OidcBackend J κ W)

/-! ## What the calls keep -/

/-- The key set is an answer of the issuer. -/
def Issued (jwks : List J.Jwk) : Prop :=
  ∃ w a, (B.getJwks R.jwksUri w).1 = .ok a ∧ a.isStatusError = false ∧ a.json = .ok jwks

/-- What the lock, the requests, the cache and the stored key sets have to do with one another. -/
structure Coherent (s : JwksCell J ι W) : Prop where
  exclusive : s.lock.Exclusive
  alone : ∀ i ∈ s.inFlight, s.lock.writer = some i
  newest : s.state.cache = s.stored.getLast?.map fun e => ⟨e.jwks, e.fetchedAt⟩
  past : ∀ e ∈ s.stored, e.fetchedAt ≤ B.instant s.state.world
  spaced : s.stored.Pairwise fun e e' => e.fetchedAt ≤ e'.fetchedAt ∧
    (e'.force = false → e.fetchedAt + R.refreshInterval ≤ e'.fetchedAt)
  genuine : ∀ e ∈ s.stored, R.Issued B e.jwks

/-- A later state, whoever has made the steps to it. -/
structure Later (s s' : JwksCell J ι W) : Prop where
  coherent : R.Coherent B s → R.Coherent B s'
  clock : B.instant s.state.world ≤ B.instant s'.state.world
  stored : ∃ later, s'.stored = s.stored ++ later ∧
    ∀ e ∈ later, B.instant s.state.world ≤ e.fetchedAt

/-- What the others leave alone. -/
structure Keeps (i : ι) (s s' : JwksCell J ι W) : Prop where
  writer : s'.lock.writer = some i ↔ s.lock.writer = some i
  inFlight : i ∈ s'.inFlight ↔ i ∈ s.inFlight
  stored : s.lock.writer = some i → s'.stored = s.stored

def Rely (i : ι) (s s' : JwksCell J ι W) : Prop := R.Later B s s' ∧ Keeps i s s'

def Guarantee (i : ι) (s s' : JwksCell J ι W) : Prop :=
  R.Later B s s' ∧ ∀ j, j ≠ i → Keeps j s s'

/-- Time passes. -/
def Passes (s s' : JwksCell J ι W) : Prop :=
  ∃ w, B.instant s.state.world ≤ B.instant w ∧ s' = s.inWorld w

variable {R B}

theorem Later.refl (s : JwksCell J ι W) : R.Later B s s :=
  ⟨id, Nat.le_refl _, [], (List.append_nil _).symm, nofun⟩

theorem Later.trans {s t u : JwksCell J ι W} (h : R.Later B s t) (h' : R.Later B t u) :
    R.Later B s u := by
  obtain ⟨a, ha, hale⟩ := h.stored
  obtain ⟨b, hb, hble⟩ := h'.stored
  refine ⟨h'.coherent ∘ h.coherent, h.clock.trans h'.clock, a ++ b, ?_, fun e he => ?_⟩
  · rw [hb, ha, List.append_assoc]
  · rcases List.mem_append.1 he with he | he
    · exact hale e he
    · exact h.clock.trans (hble e he)

theorem Keeps.refl (i : ι) (s : JwksCell J ι W) : Keeps i s s := ⟨.rfl, .rfl, fun _ => rfl⟩

theorem Keeps.trans {i : ι} {s t u : JwksCell J ι W} (h : Keeps i s t) (h' : Keeps i t u) :
    Keeps i s u where
  writer := h'.writer.trans h.writer
  inFlight := h'.inFlight.trans h.inFlight
  stored hi := (h'.stored (h.writer.2 hi)).trans (h.stored hi)

theorem Guarantee.refl (i : ι) (s : JwksCell J ι W) : R.Guarantee B i s s :=
  ⟨.refl s, fun j _ => .refl j s⟩

theorem Guarantee.trans {i : ι} {s t u : JwksCell J ι W} (h : R.Guarantee B i s t)
    (h' : R.Guarantee B i t u) : R.Guarantee B i s u :=
  ⟨h.1.trans h'.1, fun j hj => (h.2 j hj).trans (h'.2 j hj)⟩

/-! ### The steps -/

section

variable {i : ι} {s : JwksCell J ι W}

theorem inWorld_later {w : W} (h : B.instant s.state.world ≤ B.instant w) :
    R.Later B s (s.inWorld w) where
  coherent hs := { hs with past := fun e he => (hs.past e he).trans h }
  clock := h
  stored := ⟨[], (List.append_nil _).symm, nofun⟩

/-- A step that changes only who holds the lock and who has sent a request. -/
theorem later_of_lock {lock : RwLock ι} {inFlight : Finset ι}
    (h : R.Coherent B s → lock.Exclusive ∧ ∀ j ∈ inFlight, lock.writer = some j) :
    R.Later B s { s with lock, inFlight } where
  coherent hs := { hs with exclusive := (h hs).1, alone := (h hs).2 }
  clock := Nat.le_refl _
  stored := ⟨[], (List.append_nil _).symm, nofun⟩

section

variable [DecidableEq ι]

theorem lockRead_guarantee (h : s.lock.readable = true) :
    R.Guarantee B i s (s.mapLock (.lockRead i)) := by
  have hnone : s.lock.writer = none := Option.isNone_iff_eq_none.1 h
  refine ⟨later_of_lock fun hs => ⟨fun hw => absurd hnone hw, hs.alone⟩, fun j _ => ?_⟩
  exact ⟨.rfl, .rfl, fun _ => rfl⟩

theorem unlockRead_guarantee : R.Guarantee B i s (s.mapLock (.unlockRead i)) := by
  refine ⟨later_of_lock fun hs => ⟨fun hw => ?_, hs.alone⟩, fun j _ => ⟨.rfl, .rfl, fun _ => rfl⟩⟩
  change s.lock.readers.erase i = ∅
  rw [hs.exclusive hw, Finset.erase_empty]

theorem lockWrite_guarantee (h : s.lock.writable = true) :
    R.Guarantee B i s (s.mapLock (.lockWrite i)) := by
  obtain ⟨hnone, hreaders⟩ := Bool.and_eq_true_iff.1 h
  have hnone : s.lock.writer = none := Option.isNone_iff_eq_none.1 hnone
  refine ⟨later_of_lock fun hs => ⟨fun _ => of_decide_eq_true hreaders, fun j hj => ?_⟩,
    fun j hj => ⟨?_, .rfl, fun _ => rfl⟩⟩
  · cases hnone.symm.trans (hs.alone j hj)
  · change some i = some j ↔ s.lock.writer = some j
    rw [hnone]
    simp [hj.symm]

end

/-- Whoever holds the write lock, with no request under way, lets it go. -/
theorem unlockWrite_guarantee (h : s.lock.writer = some i) (hi : i ∉ s.inFlight) :
    R.Guarantee B i s (s.mapLock .unlockWrite) := by
  refine ⟨later_of_lock fun hs => ⟨fun hw => absurd rfl hw, fun j hj => ?_⟩,
    fun j hj => ⟨?_, .rfl, fun _ => ?_⟩⟩
  · obtain rfl : i = j := Option.some.inj (h.symm.trans (hs.alone j hj))
    exact absurd hj hi
  · change none = some j ↔ s.lock.writer = some j
    rw [h]
    simp [hj.symm]
  · rfl

theorem send_guarantee [DecidableEq ι] (h : s.lock.writer = some i) :
    R.Guarantee B i s (s.send i) := by
  refine ⟨later_of_lock fun hs => ⟨hs.exclusive, fun j hj => ?_⟩,
    fun j hj => ⟨.rfl, ?_, fun _ => rfl⟩⟩
  · rcases Finset.mem_insert.1 hj with rfl | hj
    · exact h
    · exact hs.alone j hj
  · exact Finset.mem_insert.trans (or_iff_right hj)

theorem hangUp_guarantee [DecidableEq ι] : R.Guarantee B i s (s.hangUp i) :=
  ⟨later_of_lock fun hs =>
    ⟨hs.exclusive, fun j hj => hs.alone j (Finset.mem_of_mem_erase hj)⟩,
    fun _ hj => ⟨.rfl, Finset.mem_erase.trans (and_iff_right hj), fun _ => rfl⟩⟩

theorem inWorld_guarantee {w : W} (h : B.instant s.state.world ≤ B.instant w) :
    R.Guarantee B i s (s.inWorld w) :=
  ⟨inWorld_later h, fun _ _ => ⟨.rfl, .rfl, fun _ => rfl⟩⟩

/-- The cached key set is too old, if there is one. -/
def Stale (R : OidcAuthResolver κ) (B : OidcBackend J κ W) (s : JwksCell J ι W) : Prop :=
  ∀ e ∈ s.stored, e.fetchedAt + R.refreshInterval ≤ B.instant s.state.world

theorem store_guarantee (h : s.lock.writer = some i) {force : Bool}
    (hstale : force = false → Stale R B s) {jwks : List J.Jwk} (hissued : R.Issued B jwks) :
    R.Guarantee B i s (s.store (B.instant s.state.world) i force jwks) := by
  refine ⟨⟨fun hs => ⟨hs.exclusive, hs.alone, ?_, fun e he => ?_, ?_, fun e he => ?_⟩,
    Nat.le_refl _, _, rfl, ?_⟩, fun _ hj => ⟨.rfl, .rfl, fun hw => ?_⟩⟩
  · simp [JwksCell.store]
  · rcases List.mem_append.1 he with he | he
    · exact hs.past e he
    · rw [List.mem_singleton.1 he]
      exact Nat.le_refl _
  · refine List.pairwise_append.2 ⟨hs.spaced, List.pairwise_singleton _ _, fun e he e' he' => ?_⟩
    rw [List.mem_singleton.1 he']
    exact ⟨hs.past e he, fun hforce => hstale hforce e he⟩
  · rcases List.mem_append.1 he with he | he
    · exact hs.genuine e he
    · rw [List.mem_singleton.1 he]
      exact hissued
  · intro e he
    rw [List.mem_singleton.1 he]
  · exact absurd (Option.some.inj (hw.symm.trans h)) hj

end

/-! ### The programs -/

/-- The key set was stored, and no newer one was at the time `t`. -/
structure Newest (B : OidcBackend J κ W) (s : JwksCell J ι W) (e : StoredJwks J ι) (t : Nat) :
    Prop where
  past : t ≤ B.instant s.state.world
  fetched : e.fetchedAt ≤ t
  newest : ∃ before after, s.stored = before ++ e :: after ∧ ∀ e' ∈ after, t ≤ e'.fetchedAt

theorem Newest.later {s s' : JwksCell J ι W} {e : StoredJwks J ι} {t : Nat}
    (h : Newest B s e t) (hs : R.Later B s s') : Newest B s' e t := by
  obtain ⟨before, after, heq, hafter⟩ := h.newest
  obtain ⟨later, heq', hlater⟩ := hs.stored
  refine ⟨h.past.trans hs.clock, h.fetched, before, after ++ later, ?_, fun e' he' => ?_⟩
  · rw [heq', heq, List.append_assoc, List.cons_append]
  · rcases List.mem_append.1 he' with he' | he'
    · exact hafter e' he'
    · exact h.past.trans (hlater e' he')

/-- What is cached is the newest key set. -/
theorem Coherent.newest_now {s : JwksCell J ι W} (h : R.Coherent B s) {c : CachedJwks J}
    (hc : s.state.cache = some c) : ∃ e, Newest B s e (B.instant s.state.world) ∧
      c = ⟨e.jwks, e.fetchedAt⟩ ∧ ∀ e' ∈ s.stored, e'.fetchedAt ≤ e.fetchedAt := by
  obtain ⟨e, he, heq⟩ := Option.map_eq_some_iff.1 (h.newest.symm.trans hc)
  obtain ⟨before, hstored⟩ := List.getLast?_eq_some_iff.1 he
  have hmem : e ∈ s.stored := hstored ▸ List.mem_concat_self
  refine ⟨e, ⟨Nat.le_refl _, h.past e hmem, before, [], hstored, nofun⟩, heq.symm,
    fun e' he' => ?_⟩
  have hspaced := h.spaced
  rw [hstored] at he' hspaced
  rcases List.mem_append.1 he' with he' | he'
  · exact ((List.pairwise_append.1 hspaced).2.2 e' he' e List.mem_cons_self).1
  · rw [List.mem_singleton.1 he']

/-- The key set was the newest at a time from `t₀` on, and it had been fetched less than a refresh
interval ago, or by the call itself just then. -/
def Given (R : OidcAuthResolver κ) (B : OidcBackend J κ W) (i : ι) (force : Bool) (t₀ : Nat)
    (jwks : List J.Jwk) (s : JwksCell J ι W) : Prop :=
  ∃ e t, Newest B s e t ∧ e.jwks = jwks ∧ t₀ ≤ t ∧
    ((e.caller = i ∧ e.fetchedAt = t) ∨ (force = false ∧ t < e.fetchedAt + R.refreshInterval))

theorem Given.later {i : ι} {force : Bool} {t₀ : Nat} {jwks : List J.Jwk}
    {s s' : JwksCell J ι W} (h : Given R B i force t₀ jwks s) (hs : R.Later B s s') :
    Given R B i force t₀ jwks s' := by
  obtain ⟨e, t, hnewest, hrest⟩ := h
  exact ⟨e, t, hnewest.later hs, hrest⟩

/-- A call that began at `t₀` or later. -/
structure Begun (R : OidcAuthResolver κ) (B : OidcBackend J κ W) (t₀ : Nat)
    (s : JwksCell J ι W) : Prop where
  coherent : R.Coherent B s
  clock : t₀ ≤ B.instant s.state.world

theorem Begun.later {t₀ : Nat} {s s' : JwksCell J ι W} (h : Begun R B t₀ s)
    (hs : R.Later B s s') : Begun R B t₀ s' :=
  ⟨hs.coherent h.coherent, h.clock.trans hs.clock⟩

theorem Stale.rely {i : ι} {s s' : JwksCell J ι W} (h : Stale R B s)
    (hw : s.lock.writer = some i) (hs : R.Rely B i s s') : Stale R B s' := by
  intro e he
  rw [hs.2.stored hw] at he
  exact (h e he).trans hs.1.clock

/-- A call that holds the write lock and, without `force`, has found the cache too old. -/
structure Fetching (R : OidcAuthResolver κ) (B : OidcBackend J κ W) (i : ι) (force : Bool)
    (t₀ : Nat) (s : JwksCell J ι W) : Prop extends Begun R B t₀ s where
  writer : s.lock.writer = some i
  stale : force = false → Stale R B s

theorem Fetching.step {i : ι} {force : Bool} {t₀ : Nat} {s s' : JwksCell J ι W}
    (h : Fetching R B i force t₀ s) (hs : R.Later B s s') (hw : s'.lock.writer = some i)
    (hstored : s'.stored = s.stored) : Fetching R B i force t₀ s' :=
  { h.toBegun.later hs with
    writer := hw
    stale := fun hforce e he => (h.stale hforce e (hstored ▸ he)).trans hs.clock }

theorem Fetching.rely {i : ι} {force : Bool} {t₀ : Nat} {s s' : JwksCell J ι W}
    (h : Fetching R B i force t₀ s) (hs : R.Rely B i s s') : Fetching R B i force t₀ s' :=
  h.step hs.1 (hs.2.writer.2 h.writer) (hs.2.stored h.writer)

/-- A look at the cache. -/
theorem fresh_given {t₀ : Nat} {jwks : List J.Jwk} {s : JwksCell J ι W} (h : Begun R B t₀ s) (i : ι)
    (hfresh : R.fresh B s.state = some jwks) : Given R B i false t₀ jwks s := by
  obtain ⟨c, hc, hif⟩ := Option.bind_eq_some_iff.1 hfresh
  obtain ⟨e, hnewest, rfl, -⟩ := h.coherent.newest_now hc
  obtain ⟨hage, heq⟩ := Option.ite_none_right_eq_some.1 hif
  have hlt : B.instant s.state.world < e.fetchedAt + R.refreshInterval := by
    change B.instant s.state.world - e.fetchedAt < R.refreshInterval at hage
    omega
  exact ⟨e, _, hnewest, Option.some.inj heq, h.clock, .inr ⟨rfl, hlt⟩⟩

theorem fresh_stale {s : JwksCell J ι W} (h : R.Coherent B s)
    (hfresh : R.fresh B s.state = none) : Stale R B s := by
  intro e he
  cases hc : s.state.cache with
  | none =>
    have hnone := h.newest.symm.trans hc
    rw [Option.map_eq_none_iff, List.getLast?_eq_none_iff] at hnone
    simp [hnone] at he
  | some c =>
    obtain ⟨last, hnewest, rfl, hlast⟩ := h.newest_now hc
    have hage := Option.bind_eq_none_iff.1 hfresh _ hc
    have hold : ¬B.instant s.state.world - last.fetchedAt < R.refreshInterval := by
      intro hlt
      simp [hlt] at hage
    have hpast := hnewest.fetched
    have := hlast e he
    omega

variable [DecidableEq ι] {i : ι} {t₀ : Nat} {s : JwksCell J ι W}

/-- The clock does not go back while the issuer answers. -/
def Steady (R : OidcAuthResolver κ) (B : OidcBackend J κ W) : Prop :=
  ∀ w, B.instant w ≤ B.instant (B.getJwks R.jwksUri w).2

/-- A drop of a call that holds the write lock, and whose request is under way no more. -/
def DropsHeld (R : OidcAuthResolver κ) (B : OidcBackend J κ W) (i : ι) (s s' : JwksCell J ι W) :
    Prop :=
  R.Guarantee B i s s' ∧ s'.lock.writer = some i ∧ i ∉ s'.inFlight

omit [DecidableEq ι] in
theorem readJwks_issued {w : W} {a : Answer (List J.Jwk)} {jwks : List J.Jwk}
    (h : ((B.getJwks R.jwksUri w).1.mapError fun e =>
      TakoError.transport s!"oidc: jwks GET {R.jwksUri} failed: {e}") = .ok a)
    (hread : R.readJwks B a = .ok jwks) : R.Issued B jwks := by
  have hreply := Except.mapError_eq_ok.1 h
  unfold readJwks at hread
  split at hread
  · cases hread
  · next hstatus => exact ⟨w, a, hreply, by simpa using hstatus, Except.mapError_eq_ok.1 hread⟩

theorem getJwks_safe (hB : Steady R B) {force : Bool} (hs : Fetching R B i force t₀ s)
    (hi : i ∉ s.inFlight) :
    (R.getJwks B i).Safe (R.Rely B i) (R.Guarantee B i) (DropsHeld R B i) (fun r s' =>
      Fetching R B i force t₀ s' ∧ i ∉ s'.inFlight ∧
        ∀ a jwks, r = .ok a → R.readJwks B a = .ok jwks → R.Issued B jwks) s := by
  refine .acquiring fun u hu => ?_
  have hfetching := hs.rely hu
  have hidle : i ∉ u.inFlight := fun h => hi (hu.2.inFlight.1 h)
  refine ⟨⟨.refl i u, hfetching.writer, hidle⟩, fun _ =>
    ⟨send_guarantee hfetching.writer, .holding (E := fun v v' => R.Guarantee B i v v' ∧
      v'.lock.writer = some i) (P := fun r v => Fetching R B i force t₀ v ∧
        ∀ a jwks, r = .ok a → R.readJwks B a = .ok jwks → R.Issued B jwks) (.atomically ?_) ?_ ?_⟩⟩
  · -- the answer comes
    intro v hv
    have hv' : Fetching R B i force t₀ v :=
      (hfetching.step (send_guarantee hfetching.writer).1 hfetching.writer rfl).rely hv
    have hworld := inWorld_guarantee (R := R) (i := i) (hB v.state.world)
    refine ⟨⟨.refl i v, hv'.writer⟩, hworld, fun x hx => ⟨?_, fun a jwks => readJwks_issued⟩⟩
    exact (hv'.step hworld.1 hv'.writer rfl).rely hx
  · intro v v' hv
    exact ⟨hv.1.trans hangUp_guarantee, hv.2, Finset.notMem_erase i _⟩
  · intro r v hv
    refine ⟨⟨hangUp_guarantee, hv.1.writer, Finset.notMem_erase i _⟩, hangUp_guarantee,
      fun x hx => ⟨?_, fun h => ?_, hv.2⟩⟩
    · exact (hv.1.step (hangUp_guarantee (i := i)).1 hv.1.writer rfl).rely hx
    · exact Finset.notMem_erase i _ (hx.2.inFlight.1 h)

/-- What a call returns that has ended at a state. -/
def Returns (R : OidcAuthResolver κ) (B : OidcBackend J κ W) (i : ι) (force : Bool) (t₀ : Nat)
    (r : Result (List J.Jwk)) (s : JwksCell J ι W) : Prop :=
  Begun R B t₀ s ∧ ∀ jwks, r = .ok jwks → Given R B i force t₀ jwks s

omit [DecidableEq ι] in
theorem Returns.later {force : Bool} {r : Result (List J.Jwk)} {s' : JwksCell J ι W}
    (h : Returns R B i force t₀ r s) (hs : R.Later B s s') : Returns R B i force t₀ r s' :=
  ⟨h.1.later hs, fun jwks hr => (h.2 jwks hr).later hs⟩

/-- What it returns, while it still holds the lock. -/
def ReturnsHeld (R : OidcAuthResolver κ) (B : OidcBackend J κ W) (i : ι) (force : Bool) (t₀ : Nat)
    (r : Result (List J.Jwk)) (s : JwksCell J ι W) : Prop :=
  Returns R B i force t₀ r s ∧ s.lock.writer = some i ∧ i ∉ s.inFlight

omit [DecidableEq ι] in
theorem ReturnsHeld.rely {force : Bool} {r : Result (List J.Jwk)} {s' : JwksCell J ι W}
    (h : ReturnsHeld R B i force t₀ r s) (hs : R.Rely B i s s') :
    ReturnsHeld R B i force t₀ r s' :=
  ⟨h.1.later hs.1, hs.2.writer.2 h.2.1, fun hi => h.2.2 (hs.2.inFlight.1 hi)⟩

omit [DecidableEq ι] in
/-- A key set that has just been stored is the newest. -/
theorem store_given {force : Bool} {jwks : List J.Jwk} (h : Begun R B t₀ s) :
    Given R B i force t₀ jwks (s.store (B.instant s.state.world) i force jwks) :=
  ⟨⟨jwks, B.instant s.state.world, i, force⟩, B.instant s.state.world,
    ⟨Nat.le_refl _, Nat.le_refl _, s.stored, [], rfl, nofun⟩, rfl, h.clock, .inl ⟨rfl, rfl⟩⟩

theorem fetchJwksCall_safe (hB : Steady R B) {force : Bool} (hs : Fetching R B i force t₀ s)
    (hi : i ∉ s.inFlight) :
    (R.fetchJwksCall B i force).Safe (R.Rely B i) (R.Guarantee B i) (DropsHeld R B i)
      (ReturnsHeld R B i force t₀) s := by
  have hrefl (s : JwksCell J ι W) : R.Rely B i s s := ⟨.refl s, .refl i s⟩
  have herror {u v : JwksCell J ι W} (e : TakoError) (hu : Fetching R B i force t₀ u)
      (hidle : i ∉ u.inFlight) (hv : R.Rely B i u v) :
      ReturnsHeld R B i force t₀ (.error e) v :=
    ReturnsHeld.rely ⟨⟨hu.toBegun, nofun⟩, hu.writer, hidle⟩ hv
  refine .andThen hrefl (getJwks_safe hB hs hi) (fun resp u hu => ?_)
    fun e u v hu hv => herror e hu.1 hu.2.1 hv
  obtain ⟨hfetching, hidle, hissued⟩ := hu
  refine .andThen hrefl (P := fun r v => Fetching R B i force t₀ v ∧ i ∉ v.inFlight ∧
    ∀ jwks, r = .ok jwks → R.Issued B jwks) (.pure fun v hv => ?_) (fun jwks v hv => ?_)
    fun e v x hv hx => herror e hv.1 hv.2.1 hx
  · exact ⟨hfetching.rely hv, fun h => hidle (hv.2.inFlight.1 h), fun jwks => hissued resp jwks rfl⟩
  · obtain ⟨hfetching, hidle, hissued⟩ := hv
    refine .bind hrefl (P := fun _ => ReturnsHeld R B i force t₀ (.ok jwks))
      (.atomically fun x hx => ?_) fun _ x hx => .pure fun y hy => hx.rely hy
    have hx' := hfetching.rely hx
    have hidle' : i ∉ x.inFlight := fun h => hidle (hx.2.inFlight.1 h)
    have hstore := store_guarantee hx'.writer hx'.stale (hissued jwks rfl)
    refine ⟨⟨.refl i x, hx'.writer, hidle'⟩, hstore, fun y hy => ReturnsHeld.rely ?_ hy⟩
    refine ⟨⟨hx'.toBegun.later hstore.1, fun jwks' heq => ?_⟩, hx'.writer, hidle'⟩
    obtain rfl := Except.ok.inj heq
    exact store_given hx'.toBegun

omit [DecidableEq ι] in
/-- A look at the cache, by a call with or without the write lock. -/
theorem lookAt_safe {D : JwksCell J ι W → JwksCell J ι W → Prop} {force : Bool}
    (hs : Begun R B t₀ s) (hD : ∀ s', R.Rely B i s s' → D s' s') :
    (R.lookAt B force).Safe (R.Rely B i) (R.Guarantee B i) D (fun o s' =>
      Begun R B t₀ s' ∧ Keeps i s s' ∧ (∀ jwks, o = some jwks → Given R B i force t₀ jwks s') ∧
        (s.lock.writer = some i → o = none → force = false → Stale R B s')) s := by
  refine .read fun u hu => ⟨hD u hu, .refl i u, fun v hv => ?_⟩
  have hu' := hs.later hu.1
  refine ⟨hu'.later hv.1, hu.2.trans hv.2, fun jwks hjwks => ?_, fun hw hnone hforce => ?_⟩
  · cases force with
    | true => cases hjwks
    | false => exact (fresh_given hu' i hjwks).later hv.1
  · subst hforce
    have hstale : Stale R B u := fresh_stale hu'.coherent hnone
    exact hstale.rely (hu.2.writer.2 hw) hv

theorem jwksLocked_safe (hB : Steady R B) {force : Bool} (hs : Begun R B t₀ s) :
    (R.jwksLocked B i force).Safe (R.Rely B i) (R.Guarantee B i) (R.Guarantee B i)
      (Returns R B i force t₀) s := by
  refine .acquiring fun u hu => ⟨.refl i u, fun hready => ?_⟩
  have hlock := lockWrite_guarantee (R := R) (B := B) (i := i) hready
  have hidle : i ∉ u.inFlight := fun hi => by
    have hnone := Option.isNone_iff_eq_none.1 (Bool.and_eq_true_iff.1 hready).1
    cases hnone.symm.trans ((hs.later hu.1).coherent.alone i hi)
  refine ⟨hlock, .holding (E := DropsHeld R B i) (P := ReturnsHeld R B i force t₀) ?_ ?_ ?_⟩
  · refine .bind (fun s => ⟨.refl s, .refl i s⟩) (lookAt_safe ((hs.later hu.1).later hlock.1)
      fun v hv => ⟨.refl i v, hv.2.writer.2 rfl, fun hi => hidle (hv.2.inFlight.1 hi)⟩)
      fun o v hv => ?_
    obtain ⟨hbegun, hkeeps, hgiven, hstale⟩ := hv
    have hwriter : v.lock.writer = some i := hkeeps.writer.2 rfl
    have hidle' : i ∉ v.inFlight := fun hi => hidle (hkeeps.inFlight.1 hi)
    cases o with
    | some jwks =>
      refine .pure fun x hx => ReturnsHeld.rely ⟨⟨hbegun, fun jwks' heq => ?_⟩, hwriter, hidle'⟩ hx
      obtain rfl := Except.ok.inj heq
      exact hgiven _ rfl
    | none =>
      exact fetchJwksCall_safe hB { hbegun with writer := hwriter, stale := hstale rfl rfl } hidle'
  · intro v v' hv
    exact hv.1.trans (unlockWrite_guarantee hv.2.1 hv.2.2)
  · intro r v hv
    have hunlock := unlockWrite_guarantee (R := R) (B := B) hv.2.1 hv.2.2
    exact ⟨hunlock, hunlock, fun x hx => (hv.1.later hunlock.1).later hx.1⟩

theorem jwksCached_safe {force : Bool} (hs : Begun R B t₀ s) :
    (R.jwksCached B i force).Safe (R.Rely B i) (R.Guarantee B i) (R.Guarantee B i) (fun o s' =>
      Begun R B t₀ s' ∧ ∀ jwks, o = some jwks → Given R B i force t₀ jwks s') s := by
  unfold jwksCached
  split
  · exact .pure fun u hu => ⟨hs.later hu.1, nofun⟩
  · refine .acquiring fun u hu => ⟨.refl i u, fun hready => ?_⟩
    have hlock := lockRead_guarantee (R := R) (B := B) (i := i) hready
    refine ⟨hlock, .holding (E := R.Guarantee B i)
      (lookAt_safe ((hs.later hu.1).later hlock.1) fun v _ => .refl i v)
      (fun hv => hv.trans unlockRead_guarantee) fun o v hv => ?_⟩
    refine ⟨unlockRead_guarantee, unlockRead_guarantee, fun x hx => ?_⟩
    have hlater := (unlockRead_guarantee (R := R) (B := B) (i := i) (s := v)).1.trans hx.1
    exact ⟨hv.1.later hlater, fun jwks hjwks => (hv.2.2.1 jwks hjwks).later hlater⟩

/-- A call beside others. -/
theorem jwksCall_safe (hB : Steady R B) {force : Bool} (hs : Begun R B t₀ s) :
    (R.jwksCall B i force).Safe (R.Rely B i) (R.Guarantee B i) (R.Guarantee B i)
      (Returns R B i force t₀) s := by
  refine .bind (fun s => ⟨.refl s, .refl i s⟩) (jwksCached_safe hs) fun o u hu => ?_
  cases o with
  | some jwks =>
    refine .pure fun v hv => Returns.later ⟨hu.1, fun jwks' heq => ?_⟩ hv.1
    obtain rfl := Except.ok.inj heq
    exact hu.2 _ rfl
  | none => exact jwksLocked_safe hB hu.1

/-- A token that is accepted at a state: a key set that was given, by which the token is valid. -/
def Accepts (R : OidcAuthResolver κ) (B : OidcBackend J κ W) (i : ι) (token : String) (t₀ : Nat)
    (r : Result Principal) (s : JwksCell J ι W) : Prop :=
  ∀ p, r = .ok p → ∃ jwks force now, Given R B i force t₀ jwks s ∧
    R.validateAgainst now token jwks = .ok p

omit [DecidableEq ι] in
theorem validateAt_safe {token : String} {force : Bool} {jwks : List J.Jwk}
    (hs : Returns R B i force t₀ (.ok jwks) s) :
    (R.validateAt B token jwks).Safe (R.Rely B i) (R.Guarantee B i) (R.Guarantee B i)
      (fun r s' => Begun R B t₀ s' ∧ Accepts R B i token t₀ r s') s := by
  refine .read fun u hu => ⟨.refl i u, .refl i u, fun v hv => ?_⟩
  have hlater := hu.1.trans hv.1
  exact ⟨hs.1.later hlater, fun p hp => ⟨jwks, force, _, (hs.2 jwks rfl).later hlater, hp⟩⟩

theorem validateCall_safe (hB : Steady R B) (token : String) (hs : Begun R B t₀ s) :
    (R.validateCall B i token).Safe (R.Rely B i) (R.Guarantee B i) (R.Guarantee B i)
      (Accepts R B i token t₀) s := by
  have hrefl (s : JwksCell J ι W) : R.Rely B i s s := ⟨.refl s, .refl i s⟩
  refine .andThen hrefl (jwksCall_safe hB hs) (fun cached u hu => ?_) fun _ _ _ _ _ => nofun
  refine .bind hrefl (validateAt_safe hu) fun r v hv => ?_
  cases r with
  | ok p =>
    refine .pure fun x hx p' hp => ?_
    obtain ⟨jwks, force, now, hgiven, hvalid⟩ := hv.2 p' hp
    exact ⟨jwks, force, now, hgiven.later hx.1, hvalid⟩
  | error e =>
    dsimp only
    split
    · exact .andThen hrefl (jwksCall_safe hB hv.1)
        (fun latest x hx => Safe.weaken (validateAt_safe hx) fun _ _ h => h.2)
        fun _ _ _ _ _ => nofun
    · exact .pure fun x _ => nofun

/-! ## Any number of resolutions -/

/-- The resolutions, none of which has begun, at an empty cache. -/
def resolutions (R : OidcAuthResolver κ) (B : OidcBackend J κ W) (tokens : ι → String) (w : W) :
    Config ι (JwksCell J ι W) (Option (Async (JwksCell J ι W) (Result Principal))) :=
  ⟨{ state := { world := w } }, fun i => some (R.validateCall B i (tokens i))⟩

omit [DecidableEq ι] in
theorem passes_rely (hs : Passes B s s') (i : ι) : R.Rely B i s s' := by
  obtain ⟨w, hw, rfl⟩ := hs
  exact ⟨inWorld_later hw, .rfl, .rfl, fun _ => rfl⟩

omit [DecidableEq ι] in
theorem interference :
    Interference (Passes B) (fun i : ι => R.Rely B i) (R.Guarantee B) (R.Later B) where
  rely_refl i s := ⟨.refl s, .refl i s⟩
  rely_trans i _ _ _ h h' := ⟨h.1.trans h'.1, h.2.trans h'.2⟩
  rely_of_guarantee hne h := ⟨h.1, h.2 _ hne⟩
  rely_of_env i _ _ h := passes_rely h i
  refl := .refl
  trans := Later.trans
  of_guarantee _ _ _ h := h.1
  of_env h := by
    obtain ⟨w, hw, rfl⟩ := h
    exact inWorld_later hw

/-- Every resolution is safe at first, and so it is for what it accepts from any time on. -/
theorem resolutions_safe (hB : Steady R B) (tokens : ι → String) (w : W) :
    AllSafe (R.Rely B) (R.Guarantee B) (fun i => Accepts R B i (tokens i) (B.instant w))
      (resolutions R B tokens w) := by
  intro i x hx
  obtain rfl := Option.some.inj hx
  refine validateCall_safe hB (tokens i) ⟨⟨fun h => absurd rfl h, ?_, rfl, ?_, .nil, ?_⟩, le_rfl⟩
  all_goals exact nofun

theorem resolutions_coherent (hB : Steady R B) {tokens : ι → String} {w : W}
    {c : Config ι (JwksCell J ι W) (Option (Async (JwksCell J ι W) (Result Principal)))}
    (h : Run (Passes B) (resolutions R B tokens w) c) : R.Coherent B c.shared := by
  refine (Run.safe interference h (resolutions_safe hB tokens w)).2.coherent
    ⟨fun h => absurd rfl h, ?_, rfl, ?_, .nil, ?_⟩
  all_goals exact nofun

/-- Any number of tokens are resolved at the same time, and resolutions may be dropped. At any time
at most one request for the key set is under way; what was fetched without `force` was fetched a
refresh interval after all that had been stored before; every key set comes from the issuer. A token
that is then resolved is accepted only if it is valid by a key set that was the newest at some time
during the resolution: fetched less than a refresh interval before, or by the resolution itself. -/
theorem validate_concurrent (hB : Steady R B) (tokens : ι → String) (w : W)
    {c : Config ι (JwksCell J ι W) (Option (Async (JwksCell J ι W) (Result Principal)))}
    (h : Run (Passes B) (resolutions R B tokens w) c) :
    (∀ i ∈ c.shared.inFlight, ∀ j ∈ c.shared.inFlight, i = j) ∧
      (c.shared.stored.Pairwise fun e e' =>
        e'.force = false → e.fetchedAt + R.refreshInterval ≤ e'.fetchedAt) ∧
      (∀ e ∈ c.shared.stored, R.Issued B e.jwks) ∧
      ∀ i, c.locals i = some (R.validateCall B i (tokens i)) → ∀ c', Run (Passes B) c c' →
        ∀ p, c'.locals i = some (.done (.ok p)) → ∃ jwks force now,
          Given R B i force (B.instant c.shared.state.world) jwks c'.shared ∧
            R.validateAgainst now (tokens i) jwks = .ok p := by
  have hcoherent := resolutions_coherent hB h
  refine ⟨fun i hi j hj => ?_, hcoherent.spaced.imp fun h => h.2, hcoherent.genuine,
    fun i hi c' h' p hp => ?_⟩
  · exact Option.some.inj ((hcoherent.alone i hi).symm.trans (hcoherent.alone j hj))
  · have hsafe : AllSafe (R.Rely B) (R.Guarantee B) (fun j r s => j = i →
        Accepts R B j (tokens j) (B.instant c.shared.state.world) r s) c := by
      intro j x hx
      rcases eq_or_ne j i with rfl | hne
      · obtain rfl := Option.some.inj (hi.symm.trans hx)
        exact (validateCall_safe hB (tokens j) ⟨hcoherent, le_rfl⟩).weaken fun _ _ h _ => h
      · exact ((Run.safe interference h (resolutions_safe hB tokens w)).1 j x hx).weaken
          fun _ _ _ h => absurd h hne
    exact (Run.safe interference h' hsafe).1.result interference hp rfl p rfl

def alice : Principal := { tenantId := "acme", userId := "alice" }

/-- One resolution after another: the second begins when the first has ended. -/
theorem validate_concurrent_alice :
    ∃ c c', Run (Passes sampleIssuer) (resolutions sampleResolver sampleIssuer
        (fun _ : Nat => "single") 900) c ∧ Run (Passes sampleIssuer) c c' ∧
      c'.locals 1 = some (.done (.ok alice)) ∧ ∃ jwks force now,
        Given sampleResolver sampleIssuer 1 force 900000000000 jwks c'.shared ∧
          sampleResolver.validateAgainst (J := Sample.crate sampleTable) now "single" jwks =
            .ok alice := by
  have hB : Steady sampleResolver sampleIssuer := fun _ => le_rfl
  let after : OidcState (Sample.crate sampleTable) Nat :=
    { world := 900, cache := some ⟨[{ kid := some "k1", key := rsaKey }], 900000000000⟩ }
  have hafter : ((sampleResolver.validate sampleIssuer "single").run { world := 900 }).world =
      after := rfl
  have hfresh : sampleResolver.fresh sampleIssuer after =
      some [{ kid := some "k1", key := rsaKey }] := by
    simp [fresh, after, sampleBackend, sampleResolver]
  have hjwks : (sampleResolver.jwks sampleIssuer false).run after =
      ⟨.ok [{ kid := some "k1", key := rsaKey }], after, []⟩ := by
    rw [jwks, Traced.run_read_bind, if_neg Bool.false_ne_true, hfresh]
    rfl
  have hresult : ((sampleResolver.validate sampleIssuer "single").run after).result =
      .ok alice := by
    rw [validate, Traced.run_bind, hjwks]
    rfl
  obtain ⟨s, hfirst, hidle, hs⟩ := validateCall_alone (R := sampleResolver) (B := sampleIssuer)
    (i := 0) "single" { state := { world := 900 } } ⟨rfl, rfl⟩
  have hs : s.state = after := hs.trans hafter
  obtain ⟨s', hsecond, -⟩ := validateCall_alone (R := sampleResolver) (B := sampleIssuer) (i := 1)
    "single" s hidle
  rw [hs, hresult] at hsecond
  obtain ⟨c, hrun, rfl, hwaiting⟩ : ∃ c, Run (Passes sampleIssuer)
      (resolutions sampleResolver sampleIssuer (fun _ : Nat => "single") 900) c ∧
      c.shared = s ∧ c.locals 1 = some (sampleResolver.validateCall sampleIssuer 1 "single") :=
    ⟨_, Run.exec (i := 0) rfl hfirst, rfl, rfl⟩
  have hnext : Run (Passes sampleIssuer) c _ := Run.exec hwaiting hsecond
  have hdone : Function.update c.locals 1 (some (.done (.ok alice))) 1 =
      some (.done (.ok alice)) := Function.update_self ..
  have haccepted := (validate_concurrent hB _ 900 hrun).2.2.2 1 hwaiting _ hnext alice hdone
  have hclock : sampleIssuer.instant c.shared.state.world = 900000000000 := by
    rw [hs]
    simp [sampleBackend, after]
  rw [hclock] at haccepted
  exact ⟨c, _, hrun, hnext, hdone, haccepted⟩

end OidcAuthResolver

end Tako.Auth
