import Mathlib.Data.Rat.Floor
import Tako.Core.Error
import Tako.Theory.Cascade
import Tako.Theory.FloatRounding

/-!
# `with_retry`

The retry loop with its growing delays (`tako-runtime/src/retry.rs`). Numbers are exact rationals.
The next delay is computed in whole milliseconds, so a delay can shrink, down to nothing, and the
first one is not held to `max_backoff` (`withRetry_lawful_iff`).
-/

namespace Tako.Runtime

/-! ## Durations -/

/-- `std::time::Duration`: a `u64` of seconds, and nanoseconds. -/
@[ext] structure Duration where
  nanos : Nat
  lt : nanos < 18446744073709551616000000000
  deriving DecidableEq

namespace Duration

/-- `as_millis`, which has the whole ones. -/
def asMillis (d : Duration) : Nat := d.nanos / 1000000

def fromMillis (ms : UInt64) : Duration where
  nanos := ms.toNat * 1000000
  lt := by
    have := ms.toNat_lt
    omega

/-- `Ord::min`. -/
def min (d d' : Duration) : Duration := if d.nanos ≤ d'.nanos then d else d'

/-- A rational to the nearest integer, the even one of two. -/
def roundNanos (x : Rat) : Nat := FloatRounding.nearest x.den x.num.toNat / x.den

/-- `mul_f64` panics for a negative product and for one that does not fit. -/
def mulF64 (d : Duration) (x : Rat) : Option Duration :=
  if d.nanos * x < 0 then none
  else if h : roundNanos (d.nanos * x) < 18446744073709551616000000000 then some ⟨_, h⟩
  else none

end Duration

theorem nanos_min (d d' : Duration) : (d.min d').nanos = min d.nanos d'.nanos := by
  rw [Duration.min]
  split
  · next h => exact (Nat.min_eq_left h).symm
  · next h => exact (Nat.min_eq_right (Nat.le_of_not_le h)).symm

/-- `as u64`, which saturates. -/
def toU64 (x : Rat) : UInt64 := UInt64.ofNat (min ⌊x⌋₊ 18446744073709551615)

/-! ## The loop -/

structure RetryConfig where
  maxAttempts : UInt32 := 3
  initialBackoff : Duration := .fromMillis 200
  maxBackoff : Duration := .fromMillis 20000
  multiplier : Rat := 2
  /-- The part of the delay that is at most added to it. -/
  jitter : Rat := 1 / 5

/-- What `gen_range(0.0..=1.0)` may draw. -/
structure Draw where
  value : Rat
  nonneg : 0 ≤ value
  le_one : value ≤ 1

/-- An attempt with its result, or a sleep: the delay, and what it is with jitter. -/
inductive RetryEvent (α : Type) where
  | attempt (index : Nat) (result : Result α)
  | sleep (delay slept : Duration)

/-- A run has no result where it panics. -/
structure RetryRun (α : Type) where
  events : List (RetryEvent α)
  result : Option (Result α)

/-- The result ends the loop: no error, or none that is transient. -/
def isFinal {α : Type} : Result α → Bool
  | .ok _ => true
  | .error e => !e.isTransient

namespace RetryConfig

variable {α : Type} (config : RetryConfig)

/-- `gen_range(0.0..=self.jitter)` panics if the range is empty. -/
def genRange (draw : Draw) : Option Rat :=
  if config.jitter < 0 then none else some (draw.value * config.jitter)

/-- The delay with jitter. -/
def jittered (delay : Duration) (draw : Draw) : Option Duration := do
  let x ← config.genRange draw
  delay.mulF64 (1 + x)

def nextDelay (delay : Duration) : Duration :=
  (Duration.fromMillis (toU64 (delay.asMillis * config.multiplier))).min config.maxBackoff

/-- The loop with a number of attempts to go. -/
def retryLoop (f : Nat → Result α) (draw : Nat → Draw) :
    Nat → Nat → Duration → Option TakoError → RetryRun α
  | 0, _, _, lastErr =>
    ⟨[], some (.error (lastErr.getD (.invalid "retry loop exited without an error")))⟩
  | n + 1, attempt, delay, _ =>
    match f attempt with
    | .ok v => ⟨[.attempt attempt (.ok v)], some (.ok v)⟩
    | .error e =>
      if e.isTransient then
        if config.maxAttempts.toNat ≤ attempt + 1 then
          ⟨[.attempt attempt (.error e)], some (.error e)⟩
        else
          match config.jittered delay (draw attempt) with
          | none => ⟨[.attempt attempt (.error e)], none⟩
          | some slept =>
            let rest := retryLoop f draw n (attempt + 1) (config.nextDelay delay) (some e)
            ⟨.attempt attempt (.error e) :: .sleep delay slept :: rest.events, rest.result⟩
      else ⟨[.attempt attempt (.error e)], some (.error e)⟩

/-- `with_retry`, with what the attempts return and what is drawn after them. -/
def withRetry (f : Nat → Result α) (draw : Nat → Draw) : RetryRun α :=
  config.retryLoop f draw config.maxAttempts.toNat 0 config.initialBackoff none

end RetryConfig

/-- Positive delays that do not shrink and are at most the maximum. -/
def RetryConfig.DelaysLaw (config : RetryConfig) (delays : List Duration) : Prop :=
  (∀ d ∈ delays, 0 < d.nanos) ∧ (∀ d ∈ delays, d.nanos ≤ config.maxBackoff.nanos) ∧
    delays.Pairwise (·.nanos ≤ ·.nanos)

namespace RetryRun

variable {α : Type}

def attempts (run : RetryRun α) : List (Nat × Result α) :=
  run.events.filterMap fun
    | .attempt i r => some (i, r)
    | .sleep _ _ => none

/-- The delays without jitter. -/
def delays (run : RetryRun α) : List Duration :=
  run.events.filterMap fun
    | .attempt _ _ => none
    | .sleep delay _ => some delay

/-- An attempt and the sleep after it, before the rest of a run. -/
theorem attempts_cons_cons (i : Nat) (r : Result α) (delay slept : Duration) (rest : RetryRun α) :
    attempts ⟨.attempt i r :: .sleep delay slept :: rest.events, rest.result⟩ =
      (i, r) :: rest.attempts := by
  simp [attempts]

theorem delays_cons_cons (i : Nat) (r : Result α) (delay slept : Duration) (rest : RetryRun α) :
    delays ⟨.attempt i r :: .sleep delay slept :: rest.events, rest.result⟩ =
      delay :: rest.delays := by
  simp [delays]

/-- What the loop is to do. -/
structure Lawful (config : RetryConfig) (f : Nat → Result α) (run : RetryRun α) : Prop where
  attempts_prefix : run.attempts <+: (List.range config.maxAttempts.toNat).map fun i => (i, f i)
  /-- Nothing is attempted after a final result. -/
  not_final : ∀ a ∈ run.attempts.dropLast, isFinal a.2 = false
  result : run.result = run.attempts.getLast?.map (·.2)
  delays : config.DelaysLaw run.delays

end RetryRun

/-! ## Its runs -/

namespace RetryConfig

variable {α : Type} {config : RetryConfig} {f : Nat → Result α} {draw : Nat → Draw} {n i : Nat}
  {j : Nat} {d : Duration} {lastErr : Option TakoError}

/-- A final result ends the loop, and so does the last attempt. -/
theorem retryLoop_end (h : isFinal (f i) = true ∨ config.maxAttempts.toNat ≤ i + 1) :
    config.retryLoop f draw (n + 1) i d lastErr = ⟨[.attempt i (f i)], some (f i)⟩ := by
  rw [retryLoop]
  cases hf : f i with
  | ok v => rfl
  | error e =>
    rw [hf, isFinal] at h
    cases he : e.isTransient with
    | false => simp only [he, if_neg Bool.false_ne_true]
    | true =>
      have hlast : config.maxAttempts.toNat ≤ i + 1 := by
        refine h.resolve_left fun hfinal => ?_
        rw [he] at hfinal
        cases hfinal
      simp only [he, if_true, if_pos hlast]

theorem exists_transient {r : Result α} (h : isFinal r = false) :
    ∃ e, r = .error e ∧ e.isTransient = true := by
  cases r with
  | ok v => cases h
  | error e => exact ⟨e, rfl, by simpa [isFinal] using h⟩

/-- A sleep, and the rest of the loop after it. -/
theorem retryLoop_sleep {slept : Duration} (h : isFinal (f i) = false)
    (hi : i + 1 < config.maxAttempts.toNat)
    (hslept : config.jittered d (draw i) = some slept) :
    config.retryLoop f draw (n + 2) i d lastErr =
      ⟨.attempt i (f i) :: .sleep d slept ::
        (config.retryLoop f draw (n + 1) (i + 1) (config.nextDelay d) none).events,
        (config.retryLoop f draw (n + 1) (i + 1) (config.nextDelay d) none).result⟩ := by
  obtain ⟨e, hf, he⟩ := exists_transient h
  rw [retryLoop, hf]
  simp only [he, if_true, if_neg (Nat.not_le.mpr hi), hslept]
  rw [retryLoop, retryLoop]

theorem retryLoop_panic (h : isFinal (f i) = false) (hi : i + 1 < config.maxAttempts.toNat)
    (hslept : config.jittered d (draw i) = none) :
    config.retryLoop f draw (n + 1) i d lastErr = ⟨[.attempt i (f i)], none⟩ := by
  obtain ⟨e, hf, he⟩ := exists_transient h
  rw [retryLoop, hf]
  simp only [he, if_true, if_neg (Nat.not_le.mpr hi), hslept]

/-- The attempts that are left, with the results that they would have. -/
def left (f : Nat → Result α) (i n : Nat) : List (Nat × Result α) :=
  (List.range' i n).map fun j => (j, f j)

/-- The number of sleeps between the attempts: one after each transient error, save the last
attempt's. -/
def sleeps (f : Nat → Result α) (i n : Nat) : Nat :=
  min ((left f i n).findIdx (isFinal ·.2)) (n - 1)

theorem left_succ (f : Nat → Result α) (i n : Nat) :
    left f i (n + 1) = (i, f i) :: left f (i + 1) n := by
  rw [left, List.range'_succ, List.map_cons, left]

/-- Those of them that take place if no sleep panics. -/
def tried (f : Nat → Result α) (i n : Nat) : List (Nat × Result α) :=
  Cascade.upTo (isFinal ·.2) (left f i n)

theorem sleeps_of_final (h : isFinal (f i) = true) : sleeps f i (n + 1) = 0 := by
  rw [sleeps, left_succ, List.findIdx_cons, h, cond_true]
  exact Nat.zero_min _

theorem sleeps_of_not_final (h : isFinal (f i) = false) :
    sleeps f i (n + 2) = sleeps f (i + 1) (n + 1) + 1 := by
  rw [sleeps, sleeps, left_succ, List.findIdx_cons, h, cond_false]
  exact Nat.succ_min_succ _ _

theorem tried_of_final (h : isFinal (f i) = true) : tried f i (n + 1) = [(i, f i)] := by
  rw [tried, left_succ]
  exact Cascade.upTo_of_pos h

theorem tried_of_not_final (h : isFinal (f i) = false) :
    tried f i (n + 1) = (i, f i) :: tried f (i + 1) n := by
  rw [tried, left_succ]
  exact Cascade.upTo_of_neg h

theorem tried_succ (f : Nat → Result α) (i n : Nat) :
    ∃ rest, tried f i (n + 1) = (i, f i) :: rest := by
  rw [tried, left_succ, Cascade.upTo]
  exact ⟨_, rfl⟩

theorem tried_one (f : Nat → Result α) (i : Nat) : tried f i 1 = [(i, f i)] := by
  cases h : isFinal (f i) with
  | true => exact tried_of_final h
  | false => exact tried_of_not_final h

theorem map_range_iterate {β : Type} (g : β → β) (b : β) (n : Nat) :
    (List.range (n + 1)).map (fun j => g^[j] b) = b :: (List.range n).map fun j => g^[j] (g b) := by
  rw [List.range_succ_eq_map, List.map_cons, List.map_map]
  rfl

/-- Unless it panics, the loop tries up to the first final result, and sleeps for the iterates of
the next delay. -/
theorem retryLoop_run (hn : i + (n + 1) = config.maxAttempts.toNat)
    (h : ∀ j < sleeps f i (n + 1), config.jittered (config.nextDelay^[j] d) (draw (i + j)) ≠ none) :
    (config.retryLoop f draw (n + 1) i d none).attempts = tried f i (n + 1) ∧
      (config.retryLoop f draw (n + 1) i d none).result =
        (tried f i (n + 1)).getLast?.map (·.2) ∧
      (config.retryLoop f draw (n + 1) i d none).delays =
        (List.range (sleeps f i (n + 1))).map fun j => config.nextDelay^[j] d := by
  induction n generalizing i d with
  | zero =>
    have hsleeps : sleeps f i 1 = 0 := Nat.min_zero _
    rw [retryLoop_end (.inr (Nat.le_of_eq hn.symm)), tried_one, hsleeps]
    exact ⟨rfl, rfl, rfl⟩
  | succ n ih =>
    cases hf : isFinal (f i) with
    | true =>
      rw [retryLoop_end (.inl hf), tried_of_final hf, sleeps_of_final hf]
      exact ⟨rfl, rfl, rfl⟩
    | false =>
      rw [sleeps_of_not_final hf] at h ⊢
      have hfirst : config.jittered d (draw i) ≠ none := h 0 (Nat.succ_pos _)
      obtain ⟨slept, hslept⟩ := Option.ne_none_iff_exists'.mp hfirst
      obtain ⟨hattempts, hresult, hdelays⟩ := ih (i := i + 1) (d := config.nextDelay d)
        (by omega) fun j hj => by
          rw [← Function.iterate_succ_apply, Nat.add_right_comm, Nat.add_assoc]
          exact h (j + 1) (Nat.succ_lt_succ hj)
      rw [retryLoop_sleep hf (by omega) hslept, tried_of_not_final hf]
      refine ⟨?_, ?_, ?_⟩
      · rw [RetryRun.attempts_cons_cons, hattempts]
      · obtain ⟨rest, hrest⟩ := tried_succ f (i + 1) n
        rw [hrest, List.getLast?_cons_cons, ← hrest]
        exact hresult
      · rw [RetryRun.delays_cons_cons, hdelays, map_range_iterate]

/-- A sleep that panics leaves the loop without a result. -/
theorem retryLoop_eq_none (hn : i + (n + 1) = config.maxAttempts.toNat)
    (hj : j < sleeps f i (n + 1))
    (h : config.jittered (config.nextDelay^[j] d) (draw (i + j)) = none) :
    (config.retryLoop f draw (n + 1) i d none).result = none := by
  induction n generalizing i d j with
  | zero => exact absurd hj (Nat.not_lt_zero j ∘ (Nat.min_zero _ ▸ ·))
  | succ n ih =>
    cases hf : isFinal (f i) with
    | true =>
      rw [sleeps_of_final hf] at hj
      cases hj
    | false =>
      have hi : i + 1 < config.maxAttempts.toNat := by omega
      cases hslept : config.jittered d (draw i) with
      | none => rw [retryLoop_panic hf hi hslept]
      | some slept =>
        rw [retryLoop_sleep hf hi hslept]
        cases j with
        | zero =>
          rw [show config.jittered d (draw i) = none from h] at hslept
          cases hslept
        | succ j =>
          rw [sleeps_of_not_final hf] at hj
          refine ih (by omega) (Nat.lt_of_succ_lt_succ hj) ?_
          rw [← Function.iterate_succ_apply, Nat.add_right_comm, Nat.add_assoc]
          exact h

/-! ## The delays -/

/-- A step in whole milliseconds does not shorten the delay. -/
def Fits (config : RetryConfig) (d : Duration) : Prop :=
  d.nanos ≤ (toU64 (d.asMillis * config.multiplier)).toNat * 1000000

instance (config : RetryConfig) (d : Duration) : Decidable (config.Fits d) :=
  inferInstanceAs (Decidable (_ ≤ _))

/-- The milliseconds after some steps that are not held to the maximum. -/
def grown (config : RetryConfig) : Nat → Nat
  | 0 => config.initialBackoff.asMillis
  | k + 1 => (toU64 (config.grown k * config.multiplier)).toNat

/-- The delay that has grown in this way. -/
def grownDelay (config : RetryConfig) : Nat → Duration
  | 0 => config.initialBackoff
  | k + 1 => (Duration.fromMillis (toU64 (config.grown k * config.multiplier))).min
      config.maxBackoff

/-- The delays before the sleeps do not shrink, none is over the maximum, and none of them
overflows with its jitter. -/
def Keeps (config : RetryConfig) (draw : Nat → Draw) (sleeps : Nat) : Prop :=
  sleeps = 0 ∨
    config.initialBackoff.nanos ≤ config.maxBackoff.nanos ∧
    (sleeps = 1 ∨ config.Fits config.initialBackoff ∧
      (config.Fits config.maxBackoff ∨
        config.grown (sleeps - 2) * 1000000 < config.maxBackoff.nanos)) ∧
    ∀ j < sleeps, config.jittered (config.grownDelay j) (draw j) ≠ none

theorem toNat_toU64 (x : Rat) : (toU64 x).toNat = min ⌊x⌋₊ 18446744073709551615 := by
  rw [toU64, UInt64.toNat_ofNat_of_lt']
  exact Nat.lt_of_le_of_lt (Nat.min_le_right _ _) (by decide)

theorem le_toU64 {q : Nat} {m : Rat} (hm : 1 ≤ m) (hq : q ≤ 18446744073709551615) :
    q ≤ (toU64 (q * m)).toNat := by
  rw [toNat_toU64]
  refine Nat.le_min.mpr ⟨Nat.le_floor ?_, hq⟩
  exact le_mul_of_one_le_right (Nat.cast_nonneg q) hm

theorem toU64_le (x : Rat) : (toU64 x).toNat ≤ 18446744073709551615 := by
  rw [toNat_toU64]
  exact Nat.min_le_right _ _

theorem nextDelay_nanos (config : RetryConfig) (d : Duration) :
    (config.nextDelay d).nanos =
      min ((toU64 (d.asMillis * config.multiplier)).toNat * 1000000)
        config.maxBackoff.nanos :=
  nanos_min _ _

theorem le_nextDelay_iff (hd : d.nanos ≤ config.maxBackoff.nanos) :
    d.nanos ≤ (config.nextDelay d).nanos ↔ config.Fits d := by
  rw [nextDelay_nanos, Fits]
  exact ⟨fun h => (Nat.le_min.mp h).1, fun h => Nat.le_min.mpr ⟨h, hd⟩⟩

theorem nextDelay_le (config : RetryConfig) (d : Duration) :
    (config.nextDelay d).nanos ≤ config.maxBackoff.nanos := by
  rw [nextDelay_nanos]
  exact Nat.min_le_right _ _

theorem grown_le (hfits : config.Fits config.initialBackoff) (k : Nat) :
    config.grown k ≤ 18446744073709551615 := by
  cases k with
  | zero =>
    have hle := toU64_le (config.initialBackoff.asMillis * config.multiplier)
    rw [Fits] at hfits
    rw [grown]
    unfold Duration.asMillis at hle hfits ⊢
    omega
  | succ k => exact toU64_le _

section

variable (hm : 1 ≤ config.multiplier)

include hm

/-- Whole milliseconds fit. -/
theorem fits_of_asMillis (h : d.nanos = d.asMillis * 1000000)
    (hd : d.asMillis ≤ 18446744073709551615) : config.Fits d := by
  rw [Fits, h]
  exact Nat.mul_le_mul_right _ (le_toU64 hm hd)

theorem grown_mono (hfits : config.Fits config.initialBackoff) {j k : Nat} (h : j ≤ k) :
    config.grown j ≤ config.grown k :=
  monotone_nat_of_le_succ (fun k => le_toU64 hm (grown_le hfits k)) h

/-- Below the maximum a delay is the one that has grown freely; at the maximum it stays if that
fits. -/
theorem grownDelay_step (hfits : config.Fits config.initialBackoff)
    (hcap : config.Fits config.maxBackoff ∨ config.grown j * 1000000 < config.maxBackoff.nanos) :
    config.Fits (config.grownDelay j) ∧
      config.nextDelay (config.grownDelay j) = config.grownDelay (j + 1) := by
  cases j with
  | zero => exact ⟨hfits, rfl⟩
  | succ j =>
    have hnanos : (config.grownDelay (j + 1)).nanos =
        min (config.grown (j + 1) * 1000000) config.maxBackoff.nanos := nanos_min _ _
    rcases Nat.le_total (config.grown (j + 1) * 1000000) config.maxBackoff.nanos with hle | hle
    · rw [Nat.min_eq_left hle] at hnanos
      have hmillis : (config.grownDelay (j + 1)).asMillis = config.grown (j + 1) := by
        rw [Duration.asMillis, hnanos]
        exact Nat.mul_div_cancel _ (by decide)
      refine ⟨fits_of_asMillis hm (by rw [hmillis, hnanos]) ?_, ?_⟩
      · rw [hmillis]
        exact grown_le hfits _
      · rw [nextDelay, hmillis]
        rfl
    · have hmax : config.grownDelay (j + 1) = config.maxBackoff :=
        Duration.ext (hnanos.trans (Nat.min_eq_right hle))
      have hfitsMax : config.Fits config.maxBackoff :=
        hcap.resolve_right (Nat.not_lt.mpr hle)
      have hgrown := grown_mono hm hfits (Nat.le_succ (j + 1))
      rw [hmax]
      refine ⟨hfitsMax, Duration.ext ?_⟩
      rw [nextDelay_nanos, Nat.min_eq_right hfitsMax]
      refine ((nanos_min _ _).trans (Nat.min_eq_right ?_)).symm
      exact hle.trans (Nat.mul_le_mul_right _ hgrown)

/-- The delays of the loop in closed form. -/
theorem iterate_nextDelay (hfits : config.Fits config.initialBackoff)
    (hcap : ∀ i < j, config.Fits config.maxBackoff ∨
      config.grown i * 1000000 < config.maxBackoff.nanos) :
    config.nextDelay^[j] config.initialBackoff = config.grownDelay j := by
  induction j with
  | zero => rfl
  | succ j ih =>
    rw [Function.iterate_succ_apply', ih fun i hi => hcap i (Nat.lt_succ_of_lt hi)]
    exact (grownDelay_step hm hfits (hcap j (Nat.lt_succ_self j))).2

/-- Delays that never shrink before the cap. -/
theorem grown_lt (hmax : ¬config.Fits config.maxBackoff)
    (hle : config.initialBackoff.nanos ≤ config.maxBackoff.nanos)
    (h : ∀ i ≤ j, config.Fits (config.nextDelay^[i] config.initialBackoff)) :
    config.grown j * 1000000 < config.maxBackoff.nanos := by
  have hfits : config.Fits config.initialBackoff := h 0 (Nat.zero_le _)
  induction j with
  | zero =>
    have hne : config.initialBackoff ≠ config.maxBackoff := fun heq => hmax (heq ▸ hfits)
    have hlt : config.initialBackoff.nanos < config.maxBackoff.nanos :=
      Nat.lt_of_le_of_ne hle fun heq => hne (Duration.ext heq)
    exact Nat.lt_of_le_of_lt (Nat.div_mul_le_self _ _) hlt
  | succ j ih =>
    have hj := fun i (hi : i ≤ j) => h i (Nat.le_succ_of_le hi)
    have hgrown := fun i (hi : i < j + 1) => Nat.lt_of_le_of_lt
      (Nat.mul_le_mul_right 1000000 (grown_mono hm hfits (Nat.le_of_lt_succ hi))) (ih hj)
    have hlast := h (j + 1) (Nat.le_refl _)
    rw [iterate_nextDelay hm hfits fun i hi => .inr (hgrown i hi)] at hlast
    refine Nat.lt_of_not_le fun hge => hmax ?_
    have heq : config.grownDelay (j + 1) = config.maxBackoff :=
      Duration.ext ((nanos_min _ _).trans (Nat.min_eq_right hge))
    exact heq ▸ hlast

/-- Where some number of delays fit, by the first one, the maximum and the growth. -/
theorem forall_fits_iff (hle : config.initialBackoff.nanos ≤ config.maxBackoff.nanos) (t : Nat) :
    (∀ j < t, config.Fits (config.nextDelay^[j] config.initialBackoff)) ↔
      t = 0 ∨ config.Fits config.initialBackoff ∧
        (config.Fits config.maxBackoff ∨
          config.grown (t - 1) * 1000000 < config.maxBackoff.nanos) := by
  cases t with
  | zero => simp
  | succ t =>
    rw [Nat.add_sub_cancel]
    refine ⟨fun h => .inr ⟨h 0 (Nat.succ_pos t), ?_⟩, fun h j hj => ?_⟩
    · by_cases hmax : config.Fits config.maxBackoff
      · exact .inl hmax
      · exact .inr (grown_lt hm hmax hle fun i hi => h i (Nat.lt_succ_of_le hi))
    · obtain ⟨hfits, hcap⟩ := h.resolve_left (Nat.succ_ne_zero t)
      have hcaps (i : Nat) (hi : i ≤ t) : config.Fits config.maxBackoff ∨
          config.grown i * 1000000 < config.maxBackoff.nanos :=
        hcap.imp_right (Nat.lt_of_le_of_lt (Nat.mul_le_mul_right _ (grown_mono hm hfits hi)))
      have hjt := Nat.le_of_lt_succ hj
      rw [iterate_nextDelay hm hfits fun i hi => hcaps i (hi.le.trans hjt)]
      exact (grownDelay_step hm hfits (hcaps j hjt)).1

theorem iterate_eq_grownDelay (hle : config.initialBackoff.nanos ≤ config.maxBackoff.nanos)
    {t : Nat} (h : ∀ j < t, config.Fits (config.nextDelay^[j] config.initialBackoff)) {j : Nat}
    (hj : j ≤ t) : config.nextDelay^[j] config.initialBackoff = config.grownDelay j := by
  cases j with
  | zero => rfl
  | succ j =>
    refine iterate_nextDelay hm (h 0 (Nat.zero_lt_of_lt hj)) fun i hi => ?_
    by_cases hmax : config.Fits config.maxBackoff
    · exact .inl hmax
    · exact .inr (grown_lt hm hmax hle fun i' hi' => h i' (by omega))

end

theorem iterate_le_max (hle : config.initialBackoff.nanos ≤ config.maxBackoff.nanos) (j : Nat) :
    (config.nextDelay^[j] config.initialBackoff).nanos ≤ config.maxBackoff.nanos := by
  cases j with
  | zero => exact hle
  | succ j =>
    rw [Function.iterate_succ_apply']
    exact nextDelay_le config _

theorem iterate_mono (hle : config.initialBackoff.nanos ≤ config.maxBackoff.nanos) {t : Nat}
    (h : ∀ j < t, config.Fits (config.nextDelay^[j] config.initialBackoff)) {j k : Nat}
    (hjk : j ≤ k) (hk : k ≤ t) :
    (config.nextDelay^[j] config.initialBackoff).nanos ≤
      (config.nextDelay^[k] config.initialBackoff).nanos := by
  induction hjk with
  | refl => exact Nat.le_refl _
  | @step k _ ih =>
    rw [Function.iterate_succ_apply']
    exact (ih (Nat.le_of_succ_le hk)).trans
      ((le_nextDelay_iff (iterate_le_max hle k)).mpr (h k hk))

/-- The delays that the loop sleeps for when it sleeps so often. -/
def delaysOf (config : RetryConfig) (sleeps : Nat) : List Duration :=
  (List.range sleeps).map fun j => config.nextDelay^[j] config.initialBackoff

theorem delaysOf_law_iff (hpos : 0 < config.initialBackoff.nanos) (t : Nat) :
    config.DelaysLaw (config.delaysOf (t + 1)) ↔
      config.initialBackoff.nanos ≤ config.maxBackoff.nanos ∧
        ∀ j < t, config.Fits (config.nextDelay^[j] config.initialBackoff) := by
  constructor
  · rintro ⟨-, hmax, hsorted⟩
    have hle : config.initialBackoff.nanos ≤ config.maxBackoff.nanos :=
      hmax _ (List.mem_map.mpr ⟨0, List.mem_range.mpr (Nat.succ_pos t), rfl⟩)
    refine ⟨hle, fun j hj => (le_nextDelay_iff (iterate_le_max hle j)).mp ?_⟩
    rw [← Function.iterate_succ_apply' config.nextDelay]
    have hpair := List.pairwise_iff_getElem.mp hsorted j (j + 1)
      (by simp [delaysOf]; omega) (by simp [delaysOf]; omega) (Nat.lt_succ_self j)
    simpa only [delaysOf, List.getElem_map, List.getElem_range] using hpair
  · rintro ⟨hle, hfits⟩
    refine ⟨fun d hd => ?_, fun d hd => ?_, ?_⟩
    · obtain ⟨j, hj, rfl⟩ := List.mem_map.mp hd
      have hjt := Nat.le_of_lt_succ (List.mem_range.mp hj)
      exact hpos.trans_le (iterate_mono hle hfits (Nat.zero_le j) hjt)
    · obtain ⟨j, -, rfl⟩ := List.mem_map.mp hd
      exact iterate_le_max hle j
    · refine List.pairwise_map.mpr (List.pairwise_lt_range.imp_of_mem fun _ hk hjk => ?_)
      exact iterate_mono hle hfits hjk.le (Nat.le_of_lt_succ (List.mem_range.mp hk))

theorem tried_prefix (f : Nat → Result α) (i n : Nat) : tried f i n <+: left f i n := by
  rw [tried, Cascade.upTo_eq_take]
  exact List.take_prefix _ _

/-- The conditions of a loop that sleeps, by its own delays. -/
theorem keeps_succ_iff (hm : 1 ≤ config.multiplier) (draw : Nat → Draw) (t : Nat) :
    config.Keeps draw (t + 1) ↔
      (config.initialBackoff.nanos ≤ config.maxBackoff.nanos ∧
        ∀ j < t, config.Fits (config.nextDelay^[j] config.initialBackoff)) ∧
      ∀ j < t + 1,
        config.jittered (config.nextDelay^[j] config.initialBackoff) (draw j) ≠ none := by
  have hfits := fun hle => forall_fits_iff hm (t := t) hle
  have hsame (hle : config.initialBackoff.nanos ≤ config.maxBackoff.nanos)
      (h : ∀ j < t, config.Fits (config.nextDelay^[j] config.initialBackoff)) :
      (∀ j < t + 1,
        config.jittered (config.nextDelay^[j] config.initialBackoff) (draw j) ≠ none) ↔
      ∀ j < t + 1, config.jittered (config.grownDelay j) (draw j) ≠ none :=
    forall₂_congr fun j hj => by
      rw [iterate_eq_grownDelay hm hle h (Nat.le_of_lt_succ hj)]
  have hzero : t + 1 = 1 ↔ t = 0 := by omega
  have hpred : t + 1 - 2 = t - 1 := by omega
  rw [Keeps, hzero, hpred]
  constructor
  · intro h
    obtain ⟨hle, hgrow, hjitter⟩ := h.resolve_left (Nat.succ_ne_zero t)
    have hall := (hfits hle).mpr hgrow
    exact ⟨⟨hle, hall⟩, (hsame hle hall).mpr hjitter⟩
  · rintro ⟨⟨hle, hall⟩, hjitter⟩
    exact .inr ⟨hle, (hfits hle).mp hall, (hsame hle hall).mp hjitter⟩

theorem attempts_ne_nil (config : RetryConfig) (f : Nat → Result α) (draw : Nat → Draw)
    (n : Nat) (hn : 0 + (n + 1) = config.maxAttempts.toNat) (d : Duration) :
    (config.retryLoop f draw (n + 1) 0 d none).attempts ≠ [] := by
  cases hf : isFinal (f 0) with
  | true =>
    rw [retryLoop_end (.inl hf)]
    exact List.cons_ne_nil _ _
  | false =>
    cases n with
    | zero =>
      rw [retryLoop_end (.inr (Nat.le_of_eq hn.symm))]
      exact List.cons_ne_nil _ _
    | succ n =>
      have hi : 0 + 1 < config.maxAttempts.toNat := by omega
      cases hslept : config.jittered d (draw 0) with
      | none =>
        rw [retryLoop_panic hf hi hslept]
        exact List.cons_ne_nil _ _
      | some slept =>
        rw [retryLoop_sleep hf hi hslept]
        exact List.cons_ne_nil _ _

/-- A loop that does not panic. -/
theorem retryLoop_lawful_iff (hn : 0 + (n + 1) = config.maxAttempts.toNat)
    (h : ∀ j < sleeps f 0 (n + 1),
      config.jittered (config.nextDelay^[j] config.initialBackoff) (draw (0 + j)) ≠ none) :
    (config.retryLoop f draw (n + 1) 0 config.initialBackoff none).Lawful config f ↔
      config.DelaysLaw (config.delaysOf (sleeps f 0 (n + 1))) := by
  obtain ⟨hattempts, hresult, hdelays⟩ := retryLoop_run hn h
  constructor
  · intro hlaw
    have hlawful := hlaw.delays
    rwa [hdelays] at hlawful
  · intro hlaw
    refine ⟨?_, fun a ha => ?_, by rw [hresult, hattempts], by rwa [hdelays]⟩
    · rw [hattempts, ← hn, Nat.zero_add, List.range_eq_range']
      exact tried_prefix f 0 (n + 1)
    · rw [hattempts] at ha
      exact Cascade.eq_false_of_mem_dropLast_upTo (p := fun a : Nat × Result α => isFinal a.2) ha

/-- The loop does what it is to do exactly if its sleeps keep their delays. -/
theorem withRetry_lawful_iff (config : RetryConfig) (f : Nat → Result α) (draw : Nat → Draw)
    (hattempts : 1 ≤ config.maxAttempts.toNat) (hinitial : 0 < config.initialBackoff.nanos)
    (hmultiplier : 1 ≤ config.multiplier) :
    (config.withRetry f draw).Lawful config f ↔
      config.Keeps draw (sleeps f 0 config.maxAttempts.toNat) := by
  obtain ⟨n, hn⟩ := Nat.exists_eq_add_of_le' hattempts
  have hstart : 0 + (n + 1) = config.maxAttempts.toNat := (Nat.zero_add _).trans hn.symm
  rw [withRetry, hn]
  by_cases h : ∀ j < sleeps f 0 (n + 1),
    config.jittered (config.nextDelay^[j] config.initialBackoff) (draw (0 + j)) ≠ none
  · rw [retryLoop_lawful_iff hstart h]
    simp only [Nat.zero_add] at h
    cases hs : sleeps f 0 (n + 1) with
    | zero => exact iff_of_true ⟨by simp [delaysOf], by simp [delaysOf], .nil⟩ (.inl rfl)
    | succ t =>
      rw [hs] at h
      rw [keeps_succ_iff hmultiplier, delaysOf_law_iff hinitial]
      exact (and_iff_left h).symm
  · push Not at h
    obtain ⟨j, hj, hnone⟩ := h
    refine iff_of_false (fun hlaw => ?_) fun hkeeps => ?_
    · have hresult := hlaw.result
      rw [retryLoop_eq_none hstart hj hnone] at hresult
      exact attempts_ne_nil config f draw n hstart _
        (List.getLast?_eq_none_iff.mp (Option.map_eq_none_iff.mp hresult.symm))
    · obtain ⟨t, ht⟩ := Nat.exists_eq_add_of_lt (Nat.zero_lt_of_lt hj)
      rw [Nat.zero_add] at ht
      rw [ht] at hj hkeeps
      rw [Nat.zero_add] at hnone
      exact ((keeps_succ_iff hmultiplier draw t).mp hkeeps).2 j hj hnone

/-! ## Two loops -/

/-- The lowest draw. -/
def lowest : Draw := ⟨0, le_rfl, zero_le_one⟩

/-- An operation that never succeeds. -/
def outage (_ : Nat) : Result Unit := .error .circuitOpen

theorem withRetry_default :
    (withRetry {} outage fun _ => lowest).Lawful {} outage :=
  (withRetry_lawful_iff {} outage (fun _ => lowest) (by decide) (by decide) (by decide +kernel)).mpr
    (.inr ⟨by decide, .inr ⟨by decide +kernel, .inl (by decide +kernel)⟩, by decide +kernel⟩)

/-- The default delays with a first one of 500 µs. -/
def subMillisecond : RetryConfig := { initialBackoff := ⟨500000, by decide⟩ }

/-- The delay after the first is none. -/
theorem withRetry_subMillisecond :
    ¬∀ (config : RetryConfig) (f : Nat → Result Unit) (draw : Nat → Draw),
      1 ≤ config.maxAttempts.toNat → 0 < config.initialBackoff.nanos →
      0 < config.maxBackoff.nanos → 1 ≤ config.multiplier →
      (config.withRetry f draw).Lawful config f := by
  intro h
  have hlaw := h subMillisecond outage (fun _ => lowest) (by decide) (by decide) (by decide)
    (by decide +kernel)
  have hmem : ⟨0, by decide⟩ ∈ (subMillisecond.withRetry outage fun _ => lowest).delays := by
    decide +kernel
  exact absurd (hlaw.delays.1 _ hmem) (Nat.lt_irrefl 0)

end RetryConfig

end Tako.Runtime
