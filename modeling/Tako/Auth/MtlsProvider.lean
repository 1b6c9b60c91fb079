import Mathlib.Data.List.Chain
import Tako.Core.Error
import Tako.Theory.Machine

/-!
# The watcher of an mTLS identity provider

`run_provider_loop` (`tako-compat/src/auth/oidc_mtls_provider.rs`). The loop fetches an identity and
sleeps until it is time for the next one; a hook may trigger a fetch before. Each round of the loop
begins with a fetch, also the one after a triggered fetch: a trigger makes two of them.
-/

namespace Tako.Auth

/-! ## Fetches -/

structure MtlsIdentity where
  certPem : List UInt8
  keyPem : List UInt8

/-- What a fetch calls; times are in nanoseconds. -/
structure MtlsProviderDeps where
  reloadMtlsIdentity : MtlsIdentity → Result Unit
  /-- Since the Unix epoch. -/
  parseNotAfter : List UInt8 → Option Nat
  /-- `REFRESH_FRACTION` of a duration in `f64`, if that is finite and positive. -/
  scaled : Nat → Option Nat
  debugDuration : Nat → String

def defaultRefreshInterval : Nat := 3600 * 1000000000

def maxRefreshInterval : Nat := 86400 * 1000000000

def errorBackoff : Nat := 60 * 1000000000

/-- What a fetch came to, when it ended, and after which time the next one is due. -/
structure FetchEnd where
  ended : Nat
  interval : Nat
  result : Result Unit

namespace MtlsProviderDeps

variable (D : MtlsProviderDeps)

def nextRefreshInterval (systemNow : Nat) (certPem : List UInt8) : Nat :=
  match D.parseNotAfter certPem with
  | none => defaultRefreshInterval
  | some notAfter =>
    if notAfter < systemNow then errorBackoff
    else
      max errorBackoff
        (min ((D.scaled (notAfter - systemNow)).getD defaultRefreshInterval) maxRefreshInterval)

/-- The interval to the next fetch, and the result. -/
def fetchAndReload (systemNow : Nat) : Result MtlsIdentity → Nat × Result Unit
  | .ok identity =>
    match D.reloadMtlsIdentity identity with
    | .ok () => (D.nextRefreshInterval systemNow identity.certPem, .ok ())
    | .error e => (errorBackoff, .error e)
  | .error e => (errorBackoff, .error (.invalid (e.display D.debugDuration)))

theorem nextRefreshInterval_bounds (systemNow : Nat) (certPem : List UInt8) :
    errorBackoff ≤ D.nextRefreshInterval systemNow certPem ∧
      D.nextRefreshInterval systemNow certPem ≤ maxRefreshInterval := by
  have hbackoff : errorBackoff ≤ maxRefreshInterval := by decide
  unfold nextRefreshInterval
  split
  · exact ⟨by decide, by decide⟩
  · split
    · exact ⟨Nat.le_refl _, hbackoff⟩
    · exact ⟨Nat.le_max_left _ _, Nat.max_le.2 ⟨hbackoff, Nat.min_le_right _ _⟩⟩

theorem fetchAndReload_bounds (systemNow : Nat) (fetched : Result MtlsIdentity) :
    errorBackoff ≤ (D.fetchAndReload systemNow fetched).1 ∧
      (D.fetchAndReload systemNow fetched).1 ≤ maxRefreshInterval := by
  have hbackoff : errorBackoff ≤ maxRefreshInterval := by decide
  cases fetched with
  | error e => exact ⟨Nat.le_refl _, hbackoff⟩
  | ok identity =>
    unfold fetchAndReload
    dsimp only
    split
    · exact D.nextRefreshInterval_bounds systemNow identity.certPem
    · exact ⟨Nat.le_refl _, hbackoff⟩

end MtlsProviderDeps

/-! ## The loop -/

/-- Where the loop is: in the fetch at its head, in its `select!`, in a fetch for the hook that
waits on a channel, or at its end. -/
inductive ProviderPhase where
  | head
  | select (deadline : Nat)
  | triggered (hook : Nat)
  | stopped
  deriving DecidableEq

/-- A fetch is made for a hook, or at the head of the loop. -/
inductive ProviderAct where
  | fetched (hook : Option Nat) (f : FetchEnd)
  | triggered (hook : Nat)
  | reply (hook : Nat) (r : Result Unit)
  | slept (now : Nat)

/-- `hooks` are the reply channels of the triggers that are not taken yet, and `drawn` is how many
there were. -/
structure ProviderState where
  now : Nat := 0
  shutdown : Bool := false
  hooks : List Nat := []
  drawn : Nat := 0
  phase : ProviderPhase := .head
  acts : List ProviderAct := []

/-- A fetch ends with what the provider answers, at a time of the system clock. -/
inductive ProviderMove where
  | tick (d : Nat)
  | forceRefresh
  | shutdown
  | fetched (systemNow : Nat) (fetched : Result MtlsIdentity)
  | loop

namespace MtlsProviderDeps

variable (D : MtlsProviderDeps)

/-- What the `select!` takes: a shutdown, before a trigger, before the deadline. -/
def select (s : ProviderState) (deadline : Nat) : Option ProviderState :=
  if s.shutdown then some { s with phase := .stopped }
  else
    match s.hooks with
    | hook :: hooks =>
      some { s with hooks, phase := .triggered hook, acts := s.acts ++ [.triggered hook] }
    | [] =>
      if deadline ≤ s.now then some { s with phase := .head, acts := s.acts ++ [.slept s.now] }
      else none

def step : ProviderMove → ProviderState → Option ProviderState
  | .tick d, s => some { s with now := s.now + d }
  | .forceRefresh, s => some { s with hooks := s.hooks ++ [s.drawn], drawn := s.drawn + 1 }
  | .shutdown, s => some { s with shutdown := true }
  | .fetched systemNow fetched, s =>
    let next := D.fetchAndReload systemNow fetched
    let f : FetchEnd := ⟨s.now, next.1, next.2⟩
    match s.phase with
    | .head =>
      some { s with phase := .select (s.now + next.1), acts := s.acts ++ [.fetched none f] }
    | .triggered hook =>
      some
        { s with
          phase := .head
          acts := s.acts ++ [.fetched (some hook) f, .reply hook next.2] }
    | _ => none
  | .loop, s =>
    match s.phase with
    | .select deadline => select s deadline
    | _ => none

/-! ## The schedule -/

end MtlsProviderDeps

namespace ProviderAct

def isFetch : ProviderAct → Bool
  | .fetched _ _ => true
  | _ => false

def isSleep : ProviderAct → Bool
  | .slept _ => true
  | _ => false

/-- The hook that a trigger comes from. -/
def trigger : ProviderAct → Option Nat
  | .triggered hook => some hook
  | _ => none

/-- The hook that is replied to. -/
def replied : ProviderAct → Option Nat
  | .reply hook _ => some hook
  | _ => none

end ProviderAct

/-- What may follow an act: after a sleep the fetch at the head of the loop, and then a sleep that
lasts for its interval, or a trigger, the fetch for it, and the reply with the result of that
fetch; after a reply another trigger or the next sleep. -/
inductive Due : ProviderAct → ProviderAct → Prop
  | fetched : Due (.slept t) (.fetched none f)
  | slept : f.ended + f.interval ≤ t → Due (.fetched none f) (.slept t)
  | triggered : Due (.fetched none f) (.triggered hook)
  | served : Due (.triggered hook) (.fetched (some hook) f)
  | reply : Due (.fetched (some hook) f) (.reply hook f.result)
  | retriggered : Due (.reply hook r) (.triggered hook')
  | rested : Due (.reply hook r) (.slept t)

namespace ProviderPhase

def isFetching : ProviderPhase → Bool
  | .head | .triggered _ => true
  | _ => false

/-- The hook whose fetch runs. -/
def waiting : ProviderPhase → List Nat
  | .triggered hook => [hook]
  | _ => []

end ProviderPhase

/-- The schedule is kept so far: one fetch at the start, for each trigger and after each sleep, each
trigger has its reply, what happens is due, a sleep after a reply lasts for the interval of the
fetch that was replied to, and the intervals are in their bounds. -/
structure Scheduled (s : ProviderState) : Prop where
  counts : s.acts.countP ProviderAct.isFetch + s.phase.isFetching.toNat =
    1 + (s.acts.filterMap ProviderAct.trigger).length + s.acts.countP ProviderAct.isSleep
  replied : s.acts.filterMap ProviderAct.trigger =
    s.acts.filterMap ProviderAct.replied ++ s.phase.waiting
  order : s.acts.IsChain Due
  rested : ∀ hook f r t, [.fetched (some hook) f, .reply hook r, .slept t] <:+: s.acts →
    f.ended + f.interval ≤ t
  bounds : ∀ hook f, .fetched hook f ∈ s.acts →
    errorBackoff ≤ f.interval ∧ f.interval ≤ maxRefreshInterval

/-- The fetch that ends is none that was made for a hook. -/
def Untriggered (s : ProviderState) : ProviderMove → Prop
  | .fetched _ _ => ∀ hook, s.phase ≠ .triggered hook
  | _ => True

/-! ## What the loop keeps -/

/-- What follows an act in the loop: also a fetch at its head after a reply. -/
def Next (a b : ProviderAct) : Prop := Due a b ∨ ∃ hook r f, a = .reply hook r ∧ b = .fetched none f

/-- Which acts the loop may be at after the act that was last. -/
inductive Fits : ProviderPhase → Option ProviderAct → Prop
  | start : Fits .head none
  | slept : Fits .head (some (.slept t))
  | again : Fits .head (some (.reply hook r))
  | select : Fits (.select (f.ended + f.interval)) (some (.fetched none f))
  | triggered : Fits (.triggered hook) (some (.triggered hook))
  | stopped : Fits .stopped a

structure Kept (s : ProviderState) : Prop where
  counts : s.acts.countP ProviderAct.isFetch + s.phase.isFetching.toNat =
    1 + (s.acts.filterMap ProviderAct.trigger).length + s.acts.countP ProviderAct.isSleep +
      (s.acts.filterMap ProviderAct.replied).length
  replied : s.acts.filterMap ProviderAct.trigger =
    s.acts.filterMap ProviderAct.replied ++ s.phase.waiting
  order : s.acts.IsChain Next
  last : Fits s.phase s.acts.getLast?
  bounds : ∀ hook f, .fetched hook f ∈ s.acts →
    errorBackoff ≤ f.interval ∧ f.interval ≤ maxRefreshInterval

theorem Kept.start : Kept {} where
  counts := rfl
  replied := rfl
  order := .nil
  last := .start
  bounds := nofun

/-- The schedule is kept as long as there was no reply. -/
theorem Kept.scheduled_iff {s : ProviderState} (h : Kept s) :
    Scheduled s ↔ s.acts.filterMap ProviderAct.replied = [] := by
  constructor
  · intro hs
    have hcounts := hs.counts
    rw [h.counts] at hcounts
    exact List.eq_nil_of_length_eq_zero (by omega)
  · intro hnone
    have hnot (hook : Nat) (r : Result Unit) : .reply hook r ∉ s.acts := fun hmem => by
      have hreplied : hook ∈ s.acts.filterMap ProviderAct.replied :=
        List.mem_filterMap.2 ⟨_, hmem, rfl⟩
      rw [hnone] at hreplied
      cases hreplied
    refine ⟨?_, h.replied, h.order.imp_of_mem_imp fun a b ha _ hab => ?_,
      fun hook f r t hrest => ?_, h.bounds⟩
    · have hcounts := h.counts
      rw [hnone] at hcounts
      exact hcounts
    · refine hab.resolve_right ?_
      rintro ⟨hook, r, f, rfl, -⟩
      exact hnot hook r ha
    · exact absurd (hrest.subset (List.mem_cons_of_mem _ List.mem_cons_self)) (hnot hook r)

/-! ## Moves -/

/-- What a move does: the phase that it leads to, and its acts. -/
inductive Effect (s : ProviderState) :
    ProviderMove → ProviderPhase → List ProviderAct → Prop
  | idle : Untriggered s m → Effect s m s.phase []
  | stopped : s.phase = .select deadline → Effect s .loop .stopped []
  | triggered : s.phase = .select deadline → Effect s .loop (.triggered hook) [.triggered hook]
  | slept : s.phase = .select deadline → deadline ≤ t → Effect s .loop .head [.slept t]
  | fetched : s.phase = .head → errorBackoff ≤ f.interval ∧ f.interval ≤ maxRefreshInterval →
    Effect s (.fetched systemNow r) (.select (f.ended + f.interval)) [.fetched none f]
  | served : s.phase = .triggered hook →
    errorBackoff ≤ f.interval ∧ f.interval ≤ maxRefreshInterval →
    Effect s (.fetched systemNow r) .head [.fetched (some hook) f, .reply hook f.result]

namespace Effect

variable {s : ProviderState} {m : ProviderMove} {p : ProviderPhase} {acts : List ProviderAct}

theorem counts (e : Effect s m p acts) (h : Kept s) :
    (s.acts ++ acts).countP ProviderAct.isFetch + p.isFetching.toNat =
      1 + ((s.acts ++ acts).filterMap ProviderAct.trigger).length +
        (s.acts ++ acts).countP ProviderAct.isSleep +
        ((s.acts ++ acts).filterMap ProviderAct.replied).length := by
  have hcounts := h.counts
  simp only [List.countP_append, List.filterMap_append, List.length_append]
  cases e with
  | idle => exact hcounts
  | stopped hphase =>
    rw [hphase] at hcounts
    exact hcounts
  | triggered hphase =>
    rw [hphase] at hcounts
    change _ + 0 + 1 = 1 + (_ + 1) + (_ + 0) + (_ + 0)
    change _ + 0 = _ at hcounts
    omega
  | slept hphase =>
    rw [hphase] at hcounts
    change _ + 0 + 1 = 1 + (_ + 0) + (_ + 1) + (_ + 0)
    change _ + 0 = _ at hcounts
    omega
  | fetched hphase =>
    rw [hphase] at hcounts
    exact hcounts
  | served hphase =>
    rw [hphase] at hcounts
    change _ + 1 + 1 = 1 + (_ + 0) + (_ + 0) + (_ + 1)
    change _ + 1 = _ at hcounts
    omega

theorem replied (e : Effect s m p acts) (h : Kept s) :
    (s.acts ++ acts).filterMap ProviderAct.trigger =
      (s.acts ++ acts).filterMap ProviderAct.replied ++ p.waiting := by
  rw [List.filterMap_append, List.filterMap_append, h.replied]
  cases e with
  | idle => simp
  | stopped hphase | triggered hphase | slept hphase | fetched hphase | served hphase =>
    simp [hphase, List.filterMap_cons, ProviderPhase.waiting, ProviderAct.trigger,
      ProviderAct.replied]

theorem last (e : Effect s m p acts) (h : Fits s.phase s.acts.getLast?) :
    Fits p (s.acts ++ acts).getLast? := by
  cases e with
  | idle =>
    rw [List.append_nil]
    exact h
  | stopped => exact .stopped
  | triggered | slept | fetched =>
    rw [List.getLast?_concat]
    constructor
  | served =>
    rw [List.getLast?_append_of_ne_nil _ (List.cons_ne_nil _ _)]
    exact .again

/-- Each act may follow the one before it. -/
theorem order (e : Effect s m p acts) (h : Kept s) : (s.acts ++ acts).IsChain Next := by
  have hlast := h.last
  refine h.order.append ?_ fun b hb a ha => ?_
  · cases e with
    | idle | stopped => exact .nil
    | triggered | slept | fetched => exact .singleton _
    | served => exact .cons_cons (.inl .reply) (.singleton _)
  · rw [Option.mem_def.1 hb] at hlast
    cases e with
    | idle | stopped => cases ha
    | triggered hphase =>
      cases ha
      rw [hphase] at hlast
      cases hlast
      exact .inl .triggered
    | slept hphase hdue =>
      cases ha
      rw [hphase] at hlast
      cases hlast
      exact .inl (.slept hdue)
    | fetched hphase =>
      cases ha
      rw [hphase] at hlast
      cases hlast with
      | slept => exact .inl .fetched
      | again => exact .inr ⟨_, _, _, rfl, rfl⟩
    | served hphase =>
      cases ha
      rw [hphase] at hlast
      cases hlast
      exact .inl .served

theorem bounds (e : Effect s m p acts) (h : Kept s) {hook : Option Nat} {f : FetchEnd}
    (hf : .fetched hook f ∈ s.acts ++ acts) :
    errorBackoff ≤ f.interval ∧ f.interval ≤ maxRefreshInterval := by
  rcases List.mem_append.1 hf with hf | hf
  · exact h.bounds hook f hf
  cases e with
  | idle | stopped => cases hf
  | triggered | slept => cases List.mem_singleton.1 hf
  | fetched hphase hbounds =>
    cases List.mem_singleton.1 hf
    exact hbounds
  | served hphase hbounds =>
    rcases List.mem_cons.1 hf with hf | hf
    · cases hf
      exact hbounds
    · cases List.mem_singleton.1 hf

/-- A reply is made exactly by the end of a fetch for a hook. -/
theorem replied_nil_iff (e : Effect s m p acts) :
    acts.filterMap ProviderAct.replied = [] ↔ Untriggered s m := by
  cases e with
  | idle hm => exact iff_of_true rfl hm
  | stopped | triggered | slept => exact iff_of_true rfl trivial
  | fetched hphase =>
    refine iff_of_true rfl fun hook heq => ?_
    cases hphase.symm.trans heq
  | served hphase => exact iff_of_false nofun fun hnot => hnot _ hphase

end Effect

namespace MtlsProviderDeps

variable {D : MtlsProviderDeps} {s s' : ProviderState}

theorem step_effect {m : ProviderMove} (hstep : D.step m s = some s') :
    ∃ acts, s'.acts = s.acts ++ acts ∧ Effect s m s'.phase acts := by
  cases m with
  | tick d | forceRefresh | shutdown =>
    cases hstep
    exact ⟨[], (List.append_nil _).symm, .idle trivial⟩
  | fetched systemNow fetched =>
    have hbounds := D.fetchAndReload_bounds systemNow fetched
    simp only [step] at hstep
    split at hstep
    next hphase =>
      cases hstep
      exact ⟨_, rfl, .fetched (f := ⟨_, _, _⟩) hphase hbounds⟩
    next hook hphase =>
      cases hstep
      exact ⟨_, rfl, .served (f := ⟨_, _, _⟩) hphase hbounds⟩
    next => cases hstep
  | loop =>
    simp only [step] at hstep
    split at hstep
    next deadline hphase =>
      unfold select at hstep
      split at hstep
      · cases hstep
        exact ⟨[], (List.append_nil _).symm, .stopped hphase⟩
      split at hstep
      · cases hstep
        exact ⟨_, rfl, .triggered hphase⟩
      · split at hstep
        next hdue =>
          cases hstep
          exact ⟨_, rfl, .slept hphase hdue⟩
        next => cases hstep
    next => cases hstep

theorem step_kept {m : ProviderMove} (h : Kept s) (hstep : D.step m s = some s') : Kept s' := by
  obtain ⟨acts, hacts, e⟩ := step_effect hstep
  constructor
  · rw [hacts]
    exact e.counts h
  · rw [hacts]
    exact e.replied h
  · rw [hacts]
    exact e.order h
  · rw [hacts]
    exact e.last h.last
  · rw [hacts]
    exact fun hook f hf => e.bounds h hf

/-- A move makes a reply exactly if it ends a fetch for a hook. -/
theorem replied_step {m : ProviderMove} (hstep : D.step m s = some s')
    (hnone : s.acts.filterMap ProviderAct.replied = []) :
    s'.acts.filterMap ProviderAct.replied = [] ↔ Untriggered s m := by
  obtain ⟨acts, hacts, e⟩ := step_effect hstep
  rw [hacts, List.filterMap_append, hnone, List.nil_append]
  exact e.replied_nil_iff

/-- A run keeps the schedule exactly if it ends no fetch for a hook. -/
theorem provider_scheduled_iff (D : MtlsProviderDeps) {moves : List ProviderMove}
    {s : ProviderState} (hrun : Machine.play D.step moves {} = some s) :
    Machine.Visits D.step Scheduled moves {} ↔ Machine.Along D.step Untriggered moves {} := by
  refine Machine.visits_iff (I := Kept) step_kept (fun hI hs hstep => ?_) hrun .start
    (Kept.start.scheduled_iff.2 rfl)
  rw [(step_kept hI hstep).scheduled_iff]
  exact replied_step hstep (hI.scheduled_iff.1 hs)

/-! ## A trigger -/

/-- A provider whose certificates are valid for an hour. -/
def sampleDeps : MtlsProviderDeps where
  reloadMtlsIdentity _ := .ok ()
  parseNotAfter _ := some (3600 * 1000000000)
  scaled remaining := if 0 < remaining then some (remaining * 4 / 5) else none
  debugDuration n := toString n

def sampleFetch : ProviderMove := .fetched 0 (.ok { certPem := [1], keyPem := [1] })

/-- The identity is fetched at the start and again for a hook, and then once more. -/
theorem trigger_fetches_twice :
    ∃ s, Machine.play sampleDeps.step
        [sampleFetch, .tick 1, .forceRefresh, .loop, sampleFetch, sampleFetch] {} = some s ∧
      s.acts.countP ProviderAct.isFetch = 3 ∧
      s.acts.filterMap ProviderAct.trigger = [0] ∧ s.acts.countP ProviderAct.isSleep = 0 ∧
      ¬Scheduled s := by
  refine ⟨_, rfl, rfl, rfl, rfl, fun hs => ?_⟩
  have hcounts := hs.counts
  exact absurd hcounts (by decide)

/-- After forty-eight minutes it is time for the next fetch. -/
theorem sleep_scheduled :
    Machine.Visits sampleDeps.step Scheduled
      [sampleFetch, .tick 2880000000000, .loop, sampleFetch] {} := by
  refine (provider_scheduled_iff sampleDeps (s := _) rfl).2 ?_
  refine ⟨nofun, fun _ h => ?_⟩
  cases h
  refine ⟨trivial, fun _ h => ?_⟩
  cases h
  refine ⟨trivial, fun _ h => ?_⟩
  cases h
  exact ⟨nofun, fun _ _ => trivial⟩

end MtlsProviderDeps

end Tako.Auth
