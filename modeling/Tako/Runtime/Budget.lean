import Mathlib.Algebra.Order.Ring.Rat
import Mathlib.Tactic.Linarith
import Mathlib.Tactic.Ring
import Tako.Theory.Interleaving
import Tako.Theory.Result
import Tako.Core.Chat
import Tako.Core.Error

/-!
# Budgets

`BudgetTracker` over the in-memory backend (`tako-runtime/src/budget.rs`), amounts taken as exact
rationals, and the tasks that share one tracker: each checks an estimate, calls its provider and
records the cost. The check and the record are separate critical sections, and the check reads its
own tenant's spend only. The daily caps hold in the runs in which no check has missed a spend by the
time its call is recorded (`Reaches.withinCaps`).
-/

namespace Tako.Runtime

open Except Interleaving

/-! ## The backend -/

/-- Cumulative spend of one tenant. -/
structure TenantUsage where
  usdToday : Rat := 0
  tokensToday : UInt64 := 0
  deriving DecidableEq, Repr

/-- The map from tenants to their usage. -/
abbrev InMemoryBudgetBackend := List (String × TenantUsage)

namespace InMemoryBudgetBackend

def currentUsage (b : InMemoryBudgetBackend) (tenant : String) : TenantUsage :=
  (b.lookup tenant).getD {}

def record (tenant : String) (usd : Rat) (tokens : UInt64) :
    InMemoryBudgetBackend → InMemoryBudgetBackend
  | [] => [(tenant, ⟨0 + usd, saturatingAdd64 0 tokens⟩)]
  | (t, u) :: b =>
    if tenant = t then (t, ⟨u.usdToday + usd, saturatingAdd64 u.tokensToday tokens⟩) :: b
    else (t, u) :: record tenant usd tokens b

/-- What one tenant has spent. -/
def spent (b : InMemoryBudgetBackend) (tenant : String) : Rat := (b.currentUsage tenant).usdToday

/-- What all tenants have spent. -/
def total (b : InMemoryBudgetBackend) : Rat := (b.map fun e => e.2.usdToday).sum

@[simp] theorem total_nil : total [] = 0 := rfl

@[simp] theorem total_cons (e : String × TenantUsage) (b : InMemoryBudgetBackend) :
    total (e :: b) = e.2.usdToday + b.total := rfl

@[simp] theorem spent_nil (t : String) : spent [] t = 0 := rfl

@[simp] theorem spent_cons (t' : String) (u : TenantUsage) (b : InMemoryBudgetBackend)
    (t : String) : spent ((t', u) :: b) t = if t = t' then u.usdToday else b.spent t := by
  unfold spent currentUsage
  rw [List.lookup_cons]
  rcases eq_or_ne t t' with rfl | h
  · simp
  · rw [beq_false_of_ne h, if_neg h]

theorem total_record (b : InMemoryBudgetBackend) :
    (record tenant usd tokens b).total = b.total + usd := by
  induction b with
  | nil => simp [record]
  | cons e b ih =>
    obtain ⟨t, u⟩ := e
    by_cases ht : tenant = t
    · simp only [record, if_pos ht, total_cons]
      ring
    · simp only [record, if_neg ht, total_cons, ih]
      ring

/-- A record adds to its own tenant's spend and leaves the others' alone. -/
theorem spent_record (b : InMemoryBudgetBackend) (t : String) :
    (record tenant usd tokens b).spent t = b.spent t + if t = tenant then usd else 0 := by
  induction b with
  | nil => simp [record]
  | cons e b ih =>
    obtain ⟨t', u⟩ := e
    by_cases ht : tenant = t'
    · subst ht
      by_cases h : t = tenant <;> simp [record, h]
    · by_cases h : t = t'
      · have hne : t' ≠ tenant := Ne.symm ht
        simp [record, ht, h, hne]
      · simp [record, ht, h, ih]

end InMemoryBudgetBackend

/-! ## The tracker -/

/-- The guard `if let Some(max) = cap && amount > max { return Err(e) }`. -/
def rejectAbove [LT α] [DecidableLT α] (cap : Option α) (amount : α) (e : α → TakoError) :
    Result Unit :=
  match cap with
  | some max => rejectIf (max < amount) (e max)
  | none => .ok ()

@[simp] theorem rejectAbove_eq_ok [LT α] [DecidableLT α] {cap : Option α} {amount : α}
    {e : α → TakoError} {u : Unit} :
    rejectAbove cap amount e = .ok u ↔ ∀ max ∈ cap, ¬max < amount := by
  cases cap <;> simp [rejectAbove]

/-- `BudgetTracker::pre_check` on what the backend answers for a tenant. `fixed k` prints an `f64`
with `k` decimals. -/
def preCheck (fixed : Nat → Rat → String) (budget : Budget)
    (currentUsage : String → Result TenantUsage) (principal : Principal) (estimatedUsd : Rat)
    (estimatedTokens : UInt32) : Result Unit := do
  rejectAbove budget.maxUsdPerRequest estimatedUsd fun max => .budgetExhausted
    s!"request estimated at ${fixed 4 estimatedUsd} exceeds per-request cap ${fixed 4 max}"
  rejectAbove budget.maxTokensPerRequest estimatedTokens fun max => .budgetExhausted
    s!"request estimated at {estimatedTokens} tokens exceeds per-request cap {max}"
  let cur ← currentUsage principal.tenantId
  rejectAbove budget.maxUsdPerDay (cur.usdToday + estimatedUsd) fun max => .budgetExhausted
    s!"tenant `{principal.tenantId}` would exceed daily cap ${fixed 2 max}"
  rejectAbove (budget.maxUsdPerTenantPerDay.lookup principal.tenantId)
    (cur.usdToday + estimatedUsd) fun max => .budgetExhausted
    s!"tenant `{principal.tenantId}` would exceed tenant-specific daily cap ${fixed 2 max}"

/-- A passed check leaves room for the estimate under each daily cap, beside the spend it read. -/
theorem preCheck_eq_ok {b : InMemoryBudgetBackend} {p : Principal}
    (h : preCheck fixed budget (fun t => .ok (b.currentUsage t)) p est tokens = .ok u) :
    (∀ max ∈ budget.maxUsdPerDay, b.spent p.tenantId + est ≤ max) ∧
      ∀ max ∈ budget.maxUsdPerTenantPerDay.lookup p.tenantId, b.spent p.tenantId + est ≤ max := by
  simp only [preCheck, bind_eq_ok, rejectAbove_eq_ok, Except.ok.injEq] at h
  obtain ⟨_, -, _, -, cur, rfl, _, hday, htenant⟩ := h
  exact ⟨fun max hm => not_lt.1 (hday max hm), fun max hm => not_lt.1 (htenant max hm)⟩

/-! ## Tasks that share a tracker -/

/-- Where a task stands. Between its check and its record it calls its provider; `seen` is the
spend of its tenant that the check read. -/
inductive Task where
  | ready
  | calling (est seen : Rat)
  deriving DecidableEq

inductive Action where
  | check
  | fail
  | record
  deriving DecidableEq

section

variable (fixed : Nat → Rat → String) (budget : Budget) (principal : ι → Principal)

/-- The steps of the task of `principal i`. A call may fail, and is not recorded then. -/
inductive TaskStep : Action → ι → InMemoryBudgetBackend → Task → InMemoryBudgetBackend → Task → Prop
  | refused : preCheck fixed budget (fun t => .ok (b.currentUsage t)) (principal i) est tokens =
      .error e → TaskStep .check i b .ready b .ready
  | checked : preCheck fixed budget (fun t => .ok (b.currentUsage t)) (principal i) est tokens =
      .ok () → TaskStep .check i b .ready b (.calling est (b.spent (principal i).tenantId))
  | failed : TaskStep .fail i b (.calling est seen) b .ready
  | recorded : cost ≤ est → TaskStep .record i b (.calling est seen)
      (b.record (principal i).tenantId cost tokens) .ready

/-- All tasks before their first check, on an empty backend. -/
def start : Config ι InMemoryBudgetBackend Task := ⟨[], fun _ => .ready⟩

/-- What the check has read is still all that has been spent, by the tenant if it has a cap, and by
all tenants if the day has one. -/
def UpToDate (b : InMemoryBudgetBackend) (t : String) : Task → Prop
  | .ready => True
  | .calling _ seen =>
    (budget.maxUsdPerDay.isSome → b.total ≤ seen) ∧
      ((budget.maxUsdPerTenantPerDay.lookup t).isSome → b.spent t ≤ seen)

/-- A run of any tasks in any order, whose records meet `P` in the state they find. -/
def Reaches [DecidableEq ι] (P : InMemoryBudgetBackend → String → Task → Prop)
    (c : Config ι InMemoryBudgetBackend Task) : Prop :=
  Run (fun i b s b' s' => ∃ a, TaskStep fixed budget principal a i b s b' s' ∧
    (a = .record → P b (principal i).tenantId s)) start c

end

/-- No daily cap is exceeded. -/
def WithinCaps (budget : Budget) (b : InMemoryBudgetBackend) : Prop :=
  (∀ max ∈ budget.maxUsdPerDay, b.total ≤ max) ∧
    ∀ t, ∀ max ∈ budget.maxUsdPerTenantPerDay.lookup t, b.spent t ≤ max

/-- The estimate of a call fits under the daily caps, beside the spend that its check has read. -/
def HasRoom (budget : Budget) (t : String) : Task → Prop
  | .ready => True
  | .calling est seen =>
    (∀ max ∈ budget.maxUsdPerDay, seen + est ≤ max) ∧
      ∀ max ∈ budget.maxUsdPerTenantPerDay.lookup t, seen + est ≤ max

theorem WithinCaps.record (h : WithinCaps budget b) (hroom : HasRoom budget t (.calling est seen))
    (hseen : UpToDate budget b t (.calling est seen)) (hcost : cost ≤ est) :
    WithinCaps budget (b.record t cost tokens) := by
  refine ⟨fun max hm => ?_, fun t' max hm => ?_⟩
  · have hday := hroom.1 max hm
    have htotal := hseen.1 (Option.isSome_of_mem hm)
    rw [InMemoryBudgetBackend.total_record]
    linarith
  · rw [InMemoryBudgetBackend.spent_record]
    split
    · next heq =>
      subst heq
      have htenant := hroom.2 max hm
      have hspent := hseen.2 (Option.isSome_of_mem hm)
      linarith
    · rw [add_zero]
      exact h.2 t' max hm

/-- A check is up to date if its tenant has not recorded since, and nobody else has spent. -/
theorem upToDate_of_fresh {b b' : InMemoryBudgetBackend} (hfresh : b'.spent t = b.spent t)
    (halone : b'.total = b'.spent t) :
    UpToDate budget b' t (.calling est (b.spent t)) :=
  ⟨fun _ => (halone.trans hfresh).le, fun _ => hfresh.le⟩

/-- No cap is negative. -/
def NonnegCaps (budget : Budget) : Prop :=
  (∀ max ∈ budget.maxUsdPerDay, 0 ≤ max) ∧ ∀ e ∈ budget.maxUsdPerTenantPerDay, 0 ≤ e.2

theorem NonnegCaps.start (h : NonnegCaps budget) : WithinCaps budget (start (ι := ι)).shared := by
  refine ⟨h.1, fun t max hm => ?_⟩
  obtain ⟨_, _, heq, -⟩ := List.lookup_eq_some_iff.1 hm
  exact h.2 (t, max) (by simp [heq])

/-- A step keeps the estimates under the caps, and so the spend if the checks are up to date. -/
theorem TaskStep.keepsCaps {principal : ι → Principal} {a : Action} {i : ι}
    (hw : WithinCaps budget b) (hroom : HasRoom budget (principal i).tenantId s)
    (hstep : TaskStep fixed budget principal a i b s b' s')
    (hseen : a = .record → UpToDate budget b (principal i).tenantId s) :
    WithinCaps budget b' ∧ HasRoom budget (principal i).tenantId s' := by
  cases hstep with
  | refused => exact ⟨hw, trivial⟩
  | failed => exact ⟨hw, trivial⟩
  | checked hcheck => exact ⟨hw, preCheck_eq_ok hcheck⟩
  | recorded hcost => exact ⟨hw.record hroom (hseen rfl) hcost, trivial⟩

section

variable [DecidableEq ι] {principal : ι → Principal} {c : Config ι InMemoryBudgetBackend Task}
  {P : InMemoryBudgetBackend → String → Task → Prop}

theorem Reaches.check (h : Reaches fixed budget principal P c) (est : Rat) (tokens : UInt32)
    (i : ι) (hr : c.locals i = .ready)
    (hp : preCheck fixed budget (fun t => .ok (c.shared.currentUsage t)) (principal i) est tokens =
      .ok ()) :
    Reaches fixed budget principal P ⟨c.shared,
      Function.update c.locals i (.calling est (c.shared.spent (principal i).tenantId))⟩ :=
  h.tail (.task i ⟨.check, hr ▸ .checked hp, fun ha => absurd ha (by decide)⟩)

theorem Reaches.record (h : Reaches fixed budget principal P c) (i : ι) (tokens : UInt64)
    (hr : c.locals i = .calling est seen)
    (hP : P c.shared (principal i).tenantId (.calling est seen)) :
    Reaches fixed budget principal P ⟨c.shared.record (principal i).tenantId est tokens,
      Function.update c.locals i .ready⟩ :=
  h.tail (.task i ⟨.record, hr ▸ .recorded le_rfl, fun _ => hr ▸ hP⟩)

/-- The daily caps hold in every state of a run whose records are of calls with checks that are up
to date. -/
theorem Reaches.withinCaps (hcaps : NonnegCaps budget)
    (h : Reaches fixed budget principal (UpToDate budget) c) : WithinCaps budget c.shared := by
  let I (c : Config ι InMemoryBudgetBackend Task) : Prop :=
    WithinCaps budget c.shared ∧ ∀ i, HasRoom budget (principal i).tenantId (c.locals i)
  have hrun : I c := by
    refine Run.invariant h ?_ ⟨hcaps.start, fun _ => trivial⟩
    rintro c i b' s' ⟨hw, hroom⟩ ⟨a, hstep, hseen⟩
    obtain ⟨hw', hroom'⟩ := hstep.keepsCaps hw (hroom i) hseen
    exact ⟨hw', forall_update (P := fun i => HasRoom budget (principal i).tenantId) hroom hroom'⟩
  exact hrun.1

end

/-! ## Sample runs -/

def acme : Principal := { tenantId := "acme", userId := "u" }
def beta : Principal := { tenantId := "beta", userId := "u" }

def noText : Nat → Rat → String := fun _ _ => ""

def tenPerTenant : Budget := { maxUsdPerTenantPerDay := [("acme", 10)] }
def tenPerDay : Budget := { maxUsdPerDay := some 10 }

theorem nonnegCaps_tenPerDay : NonnegCaps tenPerDay := by
  simp [NonnegCaps, tenPerDay]

theorem nonnegCaps_tenPerTenant : NonnegCaps tenPerTenant := by
  simp [NonnegCaps, tenPerTenant]

/-- Two calls of one tenant that both check before either records. -/
theorem overlapping_calls : ∃ c : Config Bool InMemoryBudgetBackend Task,
    Reaches noText tenPerTenant (fun _ => acme) (fun _ _ _ => True) c ∧
      c.shared.spent "acme" = 12 := by
  have h0 : Reaches noText tenPerTenant (fun _ : Bool => acme) (fun _ _ _ => True) start := .refl
  have h1 := h0.check 6 0 false rfl (eq_ok_unit_iff.2 (by decide +kernel))
  have h2 := h1.check 6 0 true rfl (eq_ok_unit_iff.2 (by decide +kernel))
  have h3 := h2.record false 0 rfl trivial
  have h4 := h3.record true 0 rfl trivial
  exact ⟨_, h4, by decide +kernel⟩

/-- Calls of two tenants, one after the other. -/
theorem two_tenants : ∃ c : Config Bool InMemoryBudgetBackend Task,
    Reaches noText tenPerDay (fun i => if i then acme else beta) (fun _ _ _ => True) c ∧
      c.shared.total = 12 := by
  have h0 : Reaches noText tenPerDay (fun i : Bool => if i then acme else beta)
    (fun _ _ _ => True) start := .refl
  have h1 := h0.check 6 0 false rfl (eq_ok_unit_iff.2 (by decide +kernel))
  have h2 := h1.record false 0 rfl trivial
  have h3 := h2.check 6 0 true rfl (eq_ok_unit_iff.2 (by decide +kernel))
  have h4 := h3.record true 0 rfl trivial
  exact ⟨_, h4, by decide +kernel⟩

/-- Two tenants exceed the day's cap, and overlapping calls their tenant's. -/
theorem caps_exceeded :
    (¬∀ (fixed : Nat → Rat → String) (budget : Budget) (principal : Bool → Principal)
      (c : Config Bool InMemoryBudgetBackend Task), NonnegCaps budget →
      Reaches fixed budget principal (fun _ _ _ => True) c →
      ∀ max ∈ budget.maxUsdPerDay, c.shared.total ≤ max) ∧
    ¬∀ (fixed : Nat → Rat → String) (budget : Budget) (principal : Bool → Principal)
      (c : Config Bool InMemoryBudgetBackend Task), NonnegCaps budget →
      Reaches fixed budget principal (fun _ _ _ => True) c →
      ∀ t, ∀ max ∈ budget.maxUsdPerTenantPerDay.lookup t, c.shared.spent t ≤ max := by
  constructor
  · intro hcap
    obtain ⟨c, hc, htotal⟩ := two_tenants
    have h := hcap _ _ _ c nonnegCaps_tenPerDay hc 10 rfl
    rw [htotal] at h
    exact absurd h (by decide)
  · intro hcap
    obtain ⟨c, hc, hspent⟩ := overlapping_calls
    have h := hcap _ _ _ c nonnegCaps_tenPerTenant hc "acme" 10 rfl
    rw [hspent] at h
    exact absurd h (by decide)

/-- One call of a tenant after another, and no other tenant. -/
theorem withinCaps_in_turn : ∃ c : Config Bool InMemoryBudgetBackend Task,
    c.shared.total = 10 ∧ WithinCaps tenPerDay c.shared := by
  have h0 : Reaches noText tenPerDay (fun _ : Bool => acme) (UpToDate tenPerDay) start := .refl
  have h1 := h0.check 6 0 false rfl (eq_ok_unit_iff.2 (by decide +kernel))
  have h2 := h1.record false 0 rfl (upToDate_of_fresh rfl rfl)
  have h3 := h2.check 4 0 true rfl (eq_ok_unit_iff.2 (by decide +kernel))
  have h4 := h3.record true 0 rfl (upToDate_of_fresh rfl (by decide +kernel))
  exact ⟨_, by decide +kernel, h4.withinCaps nonnegCaps_tenPerDay⟩

end Tako.Runtime
