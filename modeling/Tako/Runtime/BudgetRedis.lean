import Tako.Runtime.Budget
import Tako.Theory.Service

/-!
# The Redis budget backend

`RedisBudgetBackend` (`tako-runtime/src/budget_redis.rs`) over a server that answers every call. Its
`RECORD_LUA` script runs atomically, but what it has done stays where a later command fails. The
server counts in signed 64 bits and the in-memory backend saturates in 64 bits without a sign, so
the two agree as long as every tenant's tokens stay below 2^63 (`budgetLaw_iff`).
-/

namespace Tako.Runtime

open Except Service

/-! ## The server -/

namespace Redis

/-- A hash, and the time at which its key expires. Times are in milliseconds since the epoch. -/
structure Entry where
  fields : String → Option Rat
  deadline : Option Nat

/-- What a key holds. -/
abbrev Slot := Option Entry

abbrev Db := String → Slot

/-- A key that has expired is missing. -/
def live (now : Nat) (slot : Slot) : Slot := slot.filter fun e => e.deadline.all (now < ·)

/-- `HGET`. -/
def hget (now : Nat) (field : String) (slot : Slot) : Option Rat :=
  (live now slot).bind (·.fields field)

/-- `HSET`, which keeps the deadline. -/
def hset (now : Nat) (field : String) (value : Rat) (slot : Slot) : Slot :=
  some {
    fields := Function.update (hget now · slot) field (some value)
    deadline := (live now slot).bind (·.deadline) }

/-- `HINCRBYFLOAT` on a number, with exact sums. -/
def hincrbyfloat (now : Nat) (field : String) (amount : Rat) (slot : Slot) : Slot :=
  hset now field ((hget now field slot).getD 0 + amount) slot

/-- A signed 64-bit integer. -/
def IsI64 (x : Rat) : Prop :=
  x.den = 1 ∧ -9223372036854775808 ≤ x.num ∧ x.num < 9223372036854775808

instance (x : Rat) : Decidable (IsI64 x) := inferInstanceAs (Decidable (_ ∧ _))

/-- The number that `HINCRBY` stores. -/
def increment (held : Rat) (amount : Nat) : Except String Rat := do
  rejectIf (9223372036854775808 ≤ amount) "ERR value is not an integer or out of range"
  rejectIf (¬IsI64 held) "ERR hash value is not an integer"
  rejectIf (9223372036854775808 ≤ held.num + amount) "ERR increment or decrement would overflow"
  .ok (held + amount)

def hincrby (now : Nat) (field : String) (amount : Nat) (slot : Slot) : Except String Slot :=
  (increment ((hget now field slot).getD 0) amount).map (hset now field · slot)

/-- The deadline that `EXPIRE` sets. -/
def expiry (now seconds : Nat) : Except String Nat := do
  rejectIf (9223372036854775808 ≤ seconds) "ERR value is not an integer or out of range"
  rejectIf (9223372036854775808 ≤ seconds * 1000 + now)
    "ERR invalid expire time in 'expire' command"
  .ok (seconds * 1000 + now)

/-- `EXPIRE`; a deadline that has passed removes the key. -/
def expire (now seconds : Nat) (slot : Slot) : Except String Slot :=
  (expiry now seconds).map fun deadline =>
    if deadline ≤ now then none
    else (live now slot).map fun e => { e with deadline := some deadline }

end Redis

/-! ## The backend -/

/-- `RECORD_LUA`: its reply, and what its key holds afterwards. -/
def recordLua (now : Nat) (usd : Rat) (tokens ttl : Nat) (slot : Redis.Slot) :
    Except String Unit × Redis.Slot :=
  let slot := Redis.hincrbyfloat now "usd" usd slot
  match Redis.hincrby now "tokens" tokens slot with
  | .error e => (.error e, slot)
  | .ok slot =>
    match Redis.expire now ttl slot with
    | .error e => (.error e, slot)
    | .ok slot => (.ok (), slot)

structure RedisBudgetBackend where
  keyPrefix : String := "tako:budget"
  ttlSecs : UInt64 := 172800

/-- `str::parse::<u64>` on the text of a number. -/
def parseTokens (x : Rat) : Option UInt64 :=
  if x.den = 1 ∧ 0 ≤ x.num ∧ x.num < 18446744073709551616 then some (UInt64.ofNat x.num.toNat)
  else none

namespace RedisBudgetBackend

-- The printer of the date of a day since the epoch.
variable (formatDay : Nat → String)

def formatDayKey (keyPrefix tenantId : String) (day : Nat) : String :=
  s!"{keyPrefix}:{tenantId}:{formatDay day}"

/-- The key of the current day. -/
def dayKey (B : RedisBudgetBackend) (now : Nat) (tenantId : String) : String :=
  formatDayKey formatDay B.keyPrefix tenantId (now / 86400000)

/-- What the fields of a key say. -/
def usageOf (now : Nat) (slot : Redis.Slot) : TenantUsage where
  usdToday := (Redis.hget now "usd" slot).getD 0
  tokensToday := ((Redis.hget now "tokens" slot).bind parseTokens).getD 0

def currentUsage (B : RedisBudgetBackend) (now : Nat) (tenantId : String) (db : Redis.Db) :
    Result TenantUsage :=
  .ok (usageOf now (db (B.dayKey formatDay now tenantId)))

def record (B : RedisBudgetBackend) (now : Nat) (tenantId : String) (usd : Rat) (tokens : UInt64)
    (db : Redis.Db) : Result Unit × Redis.Db :=
  let key := B.dayKey formatDay now tenantId
  let r := recordLua now usd tokens.toNat B.ttlSecs.toNat (db key)
  (r.1.mapError fun e => .transport s!"redis eval: {e}", Function.update db key r.2)

end RedisBudgetBackend

/-! ## Calls -/

inductive BudgetCall where
  | currentUsage (tenant : String)
  | record (tenant : String) (usd : Rat) (tokens : UInt64)

inductive BudgetAnswer where
  | usage (u : Result TenantUsage)
  | recorded (r : Result Unit)

def BudgetCall.tenant : BudgetCall → String
  | .currentUsage tenant | .record tenant _ _ => tenant

/-- A call at a time. -/
def RedisBudgetBackend.serve (formatDay : Nat → String) (B : RedisBudgetBackend) :
    Nat × BudgetCall → Redis.Db → BudgetAnswer × Redis.Db
  | (now, .currentUsage tenant), db => (.usage (B.currentUsage formatDay now tenant db), db)
  | (now, .record tenant usd tokens), db =>
    (.recorded (B.record formatDay now tenant usd tokens db).1,
      (B.record formatDay now tenant usd tokens db).2)

def InMemoryBudgetBackend.serve :
    Nat × BudgetCall → InMemoryBudgetBackend → BudgetAnswer × InMemoryBudgetBackend
  | (_, .currentUsage tenant), b => (.usage (.ok (b.currentUsage tenant)), b)
  | (_, .record tenant usd tokens), b => (.recorded (.ok ()), b.record tenant usd tokens)

/-! ## What a key holds -/

namespace Redis

variable {now limit : Nat} {field : String} {slot : Slot} {u : TenantUsage}

theorem live_of_all {e : Entry} (h : e.deadline.all (now < ·) = true) :
    live now (some e) = some e := Option.filter_some_pos h

theorem all_of_live {e : Entry} (h : live now slot = some e) :
    e.deadline.all (now < ·) = true := (Option.filter_eq_some_iff.mp h).2

/-- A field that is set does not wake an expired key. -/
theorem live_hset (now : Nat) (field : String) (value : Rat) (slot : Slot) :
    live now (hset now field value slot) = hset now field value slot := by
  refine live_of_all ?_
  change ((live now slot).bind (·.deadline)).all (now < ·) = true
  cases h : live now slot with
  | none => rfl
  | some e =>
    have hall := all_of_live h
    exact hall

theorem hget_hset_self (now : Nat) (field : String) (value : Rat) (slot : Slot) :
    hget now field (hset now field value slot) = some value := by
  rw [hget, live_hset]
  change Function.update (hget now · slot) field (some value) field = some value
  exact Function.update_self ..

theorem hget_hset_of_ne {field' : String} (h : field' ≠ field) (now : Nat) (value : Rat)
    (slot : Slot) : hget now field' (hset now field value slot) = hget now field' slot := by
  rw [hget, live_hset]
  change Function.update (hget now · slot) field (some value) field' = hget now field' slot
  exact Function.update_of_ne h ..

/-- A key with the usage, up to some time at least. -/
structure Holds (limit : Nat) (u : TenantUsage) (slot : Slot) : Prop where
  usd : (slot.bind (·.fields "usd")).getD 0 = u.usdToday
  tokens : (slot.bind (·.fields "tokens")).getD 0 = (u.tokensToday.toNat : Rat)
  lt : u.tokensToday.toNat < 9223372036854775808
  deadline : ∀ e ∈ slot, ∀ d ∈ e.deadline, limit ≤ d

theorem Holds.live (h : Holds limit u slot) (hnow : now < limit) : live now slot = slot := by
  cases slot with
  | none => rfl
  | some e =>
    refine live_of_all ?_
    cases hd : e.deadline with
    | none => rfl
    | some d => exact decide_eq_true (hnow.trans_le (h.deadline e rfl d hd))

theorem Holds.hget_usd (h : Holds limit u slot) (hnow : now < limit) :
    (hget now "usd" slot).getD 0 = u.usdToday := by
  rw [hget, h.live hnow, h.usd]

theorem Holds.hget_tokens (h : Holds limit u slot) (hnow : now < limit) :
    (hget now "tokens" slot).getD 0 = (u.tokensToday.toNat : Rat) := by
  rw [hget, h.live hnow, h.tokens]

theorem increment_of_lt {held amount : Nat} (h : held + amount < 9223372036854775808) :
    increment held amount = .ok (held + amount) := by
  have hamount : ¬9223372036854775808 ≤ amount := by omega
  have hheld : IsI64 (held : Rat) := by
    refine ⟨Rat.den_natCast _, ?_, ?_⟩ <;> rw [Rat.num_natCast] <;> omega
  have hsum : ¬(9223372036854775808 : Int) ≤ (held : Rat).num + amount := by
    rw [Rat.num_natCast]
    omega
  simp only [increment, rejectIf, if_neg hamount, if_neg (not_not_intro hheld), if_neg hsum]
  rfl

theorem increment_of_le {held amount : Nat} (h : 9223372036854775808 ≤ held + amount) :
    ∃ e, increment held amount = .error e := by
  cases hr : increment held amount with
  | error e => exact ⟨e, rfl⟩
  | ok x =>
    simp only [increment, bind_eq_ok, rejectIf_eq_ok] at hr
    obtain ⟨_, -, _, -, _, hsum, -⟩ := hr
    rw [Rat.num_natCast] at hsum
    omega

theorem expiry_of_lt {seconds : Nat} (h : seconds * 1000 + now < 9223372036854775808) :
    expiry now seconds = .ok (seconds * 1000 + now) := by
  have hseconds : ¬9223372036854775808 ≤ seconds := by omega
  simp only [expiry, rejectIf, if_neg hseconds, if_neg (Nat.not_le.mpr h)]
  rfl

theorem expiry_of_le {seconds : Nat} (h : 9223372036854775808 ≤ seconds * 1000 + now) :
    ∃ e, expiry now seconds = .error e := by
  cases hr : expiry now seconds with
  | error e => exact ⟨e, rfl⟩
  | ok x =>
    simp only [expiry, bind_eq_ok, rejectIf_eq_ok] at hr
    obtain ⟨_, -, _, hlt, -⟩ := hr
    exact absurd h hlt

end Redis

/-! ## A record -/

open Redis

variable {now limit ttl : Nat} {slot : Slot} {u : TenantUsage} {usd : Rat} {tokens : UInt64}

/-- The usage after a record. -/
def TenantUsage.add (u : TenantUsage) (usd : Rat) (tokens : UInt64) : TenantUsage :=
  ⟨u.usdToday + usd, saturatingAdd64 u.tokensToday tokens⟩

theorem toNat_saturatingAdd64 {a b : UInt64} (h : a.toNat + b.toNat < 9223372036854775808) :
    (saturatingAdd64 a b).toNat = a.toNat + b.toNat := by
  have hlt : a.toNat + b.toNat < UInt64.size := h.trans (by decide)
  rw [saturatingAdd64, if_pos hlt, UInt64.toNat_add]
  exact Nat.mod_eq_of_lt hlt

/-- What the fields are once both are counted up. -/
theorem hincrby_hincrbyfloat (h : Holds limit u slot) (hnow : now < limit)
    (hroom : u.tokensToday.toNat + tokens.toNat < 9223372036854775808) :
    hincrby now "tokens" tokens.toNat (hincrbyfloat now "usd" usd slot) =
      .ok (hset now "tokens" (u.tokensToday.toNat + tokens.toNat)
        (hincrbyfloat now "usd" usd slot)) := by
  rw [hincrby, hincrbyfloat, hget_hset_of_ne (by decide), h.hget_tokens hnow,
    increment_of_lt hroom]
  rfl

/-- A record with room for its tokens, and with a deadline that fits. -/
theorem recordLua_ok (usd : Rat) (h : Holds limit u slot) (hnow : now < limit)
    (hroom : u.tokensToday.toNat + tokens.toNat < 9223372036854775808)
    (hexpiry : ttl * 1000 + now < 9223372036854775808) (httl : limit ≤ ttl * 1000 + now) :
    ∃ slot', recordLua now usd tokens.toNat ttl slot = (.ok (), slot') ∧
      Holds limit (u.add usd tokens) slot' := by
  have hlater : ¬ttl * 1000 + now ≤ now := Nat.not_le.mpr (hnow.trans_le httl)
  refine ⟨some ⟨Function.update (hget now · (hincrbyfloat now "usd" usd slot)) "tokens"
    (some (u.tokensToday.toNat + tokens.toNat)), some (ttl * 1000 + now)⟩, ?_, ?_⟩
  · rw [recordLua, hincrby_hincrbyfloat h hnow hroom]
    dsimp only
    rw [expire, expiry_of_lt hexpiry, Except.map]
    dsimp only
    rw [if_neg hlater, live_hset]
    rfl
  · have hadd := toNat_saturatingAdd64 hroom
    refine ⟨?_, ?_, ?_, ?_⟩
    · change (Function.update (hget now · (hincrbyfloat now "usd" usd slot)) "tokens"
        (some (u.tokensToday.toNat + tokens.toNat)) "usd").getD 0 = u.usdToday + usd
      rw [Function.update_of_ne (by decide), hincrbyfloat, hget_hset_self, Option.getD_some,
        h.hget_usd hnow]
    · change (Function.update (hget now · (hincrbyfloat now "usd" usd slot)) "tokens"
        (some (u.tokensToday.toNat + tokens.toNat)) "tokens").getD 0 =
          ((saturatingAdd64 u.tokensToday tokens).toNat : Rat)
      rw [Function.update_self, Option.getD_some, hadd, Nat.cast_add]
    · rw [TenantUsage.add, hadd]
      exact hroom
    · rintro _ ⟨⟩ _ ⟨⟩
      exact httl

/-- Any other one fails. -/
theorem recordLua_error (usd : Rat) (h : Holds limit u slot) (hnow : now < limit)
    (hfail : ¬(u.tokensToday.toNat + tokens.toNat < 9223372036854775808 ∧
      ttl * 1000 + now < 9223372036854775808)) :
    ∃ e slot', recordLua now usd tokens.toNat ttl slot = (.error e, slot') := by
  by_cases hroom : u.tokensToday.toNat + tokens.toNat < 9223372036854775808
  · obtain ⟨e, he⟩ := expiry_of_le (Nat.not_lt.mp fun hexpiry => hfail ⟨hroom, hexpiry⟩)
    rw [recordLua, hincrby_hincrbyfloat h hnow hroom]
    dsimp only
    rw [expire, he]
    exact ⟨e, _, rfl⟩
  · obtain ⟨e, he⟩ := increment_of_le (Nat.not_lt.mp hroom)
    rw [recordLua, hincrby, hincrbyfloat, hget_hset_of_ne (by decide), h.hget_tokens hnow, he]
    exact ⟨e, _, rfl⟩

/-! ## The two backends -/

theorem parseTokens_natCast {n : Nat} (h : n < 18446744073709551616) :
    parseTokens (n : Rat) = some (UInt64.ofNat n) := by
  have hcond : (n : Rat).den = 1 ∧ 0 ≤ (n : Rat).num ∧ (n : Rat).num < 18446744073709551616 := by
    rw [Rat.den_natCast, Rat.num_natCast]
    omega
  rw [parseTokens, if_pos hcond, Rat.num_natCast, Int.toNat_natCast]

theorem Redis.Holds.usageOf (h : Holds limit u slot) (hnow : now < limit) :
    RedisBudgetBackend.usageOf now slot = u := by
  have htokens := h.hget_tokens hnow
  have hparsed : ((hget now "tokens" slot).bind parseTokens).getD 0 = u.tokensToday := by
    cases hslot : hget now "tokens" slot with
    | none =>
      rw [hslot, Option.getD_none] at htokens
      have hzero : u.tokensToday.toNat = 0 := Rat.natCast_inj.mp htokens.symm
      exact (UInt64.toNat_inj.mp hzero).symm
    | some x =>
      rw [hslot, Option.getD_some] at htokens
      rw [htokens, Option.bind_some, parseTokens_natCast u.tokensToday.toNat_lt, Option.getD_some,
        UInt64.ofNat_toNat]
  rw [RedisBudgetBackend.usageOf, h.hget_usd hnow, hparsed]

namespace InMemoryBudgetBackend

theorem currentUsage_cons (t' : String) (u : TenantUsage) (b : InMemoryBudgetBackend)
    (t : String) : currentUsage ((t', u) :: b) t = if t = t' then u else b.currentUsage t := by
  rw [currentUsage, List.lookup_cons]
  by_cases h : t = t'
  · rw [if_pos h, beq_iff_eq.mpr h]
    rfl
  · rw [if_neg h, beq_false_of_ne h]
    rfl

/-- A record adds to its own tenant's usage and leaves the others' alone. -/
theorem currentUsage_record (b : InMemoryBudgetBackend) (tenant : String) (usd : Rat)
    (tokens : UInt64) (t : String) :
    (b.record tenant usd tokens).currentUsage t =
      if t = tenant then (b.currentUsage t).add usd tokens else b.currentUsage t := by
  induction b with
  | nil => rw [record, currentUsage_cons]; rfl
  | cons e b ih =>
    obtain ⟨t', u⟩ := e
    rw [record]
    split
    · next ht =>
      subst ht
      rw [currentUsage_cons, currentUsage_cons]
      split <;> rfl
    · next ht =>
      rw [currentUsage_cons, currentUsage_cons, ih]
      by_cases h : t = t'
      · have hne : t ≠ tenant := fun h' => ht (h'.symm.trans h)
        rw [if_pos h, if_pos h, if_neg hne]
      · rw [if_neg h, if_neg h]

end InMemoryBudgetBackend

section

variable {formatDay : Nat → String} {B : RedisBudgetBackend} {day : Nat}

theorem formatDayKey_inj {t t' : String} :
    RedisBudgetBackend.formatDayKey formatDay B.keyPrefix t day =
      RedisBudgetBackend.formatDayKey formatDay B.keyPrefix t' day ↔ t = t' := by
  simp [RedisBudgetBackend.formatDayKey, ← String.toList_inj, toString]

/-- The database holds what the in-memory backend has, for all tenants and up to the end of the
day. -/
def Agrees (formatDay : Nat → String) (B : RedisBudgetBackend) (day : Nat) (db : Redis.Db)
    (b : InMemoryBudgetBackend) : Prop :=
  ∀ tenant, Holds ((day + 1) * 86400000) (b.currentUsage tenant)
    (db (RedisBudgetBackend.formatDayKey formatDay B.keyPrefix tenant day))

/-- The call finds room for its tokens, and its key's deadline fits. -/
def Fits (B : RedisBudgetBackend) : Nat × BudgetCall → InMemoryBudgetBackend → Prop
  | (_, .currentUsage _), _ => True
  | (now, .record tenant _ tokens), b =>
    (b.currentUsage tenant).tokensToday.toNat + tokens.toNat < 9223372036854775808 ∧
      B.ttlSecs.toNat * 1000 + now < 9223372036854775808

variable {db : Redis.Db} {b : InMemoryBudgetBackend}

theorem serve_answer_iff {c : Nat × BudgetCall} (hday : c.1 / 86400000 = day)
    (httl : 86400 ≤ B.ttlSecs.toNat) (h : Agrees formatDay B day db b) :
    (B.serve formatDay c db).1 = (InMemoryBudgetBackend.serve c b).1 ↔ Fits B c b := by
  obtain ⟨now, call⟩ := c
  subst hday
  have hnow : now < (now / 86400000 + 1) * 86400000 := by omega
  cases call with
  | currentUsage tenant =>
    refine iff_of_true ?_ trivial
    have husage := (h tenant).usageOf hnow
    exact congrArg (fun u => BudgetAnswer.usage (.ok u)) husage
  | record tenant usd tokens =>
    by_cases hfits : Fits B (now, .record tenant usd tokens) b
    · refine iff_of_true ?_ hfits
      obtain ⟨slot', hrecord, -⟩ := recordLua_ok usd (h tenant) hnow hfits.1 hfits.2
        (by omega)
      change BudgetAnswer.recorded _ = .recorded _
      rw [RedisBudgetBackend.record, RedisBudgetBackend.dayKey, hrecord]
      rfl
    · refine iff_of_false (fun heq => ?_) hfits
      obtain ⟨e, slot', hrecord⟩ := recordLua_error usd (h tenant) hnow hfits
      change BudgetAnswer.recorded _ = .recorded _ at heq
      rw [RedisBudgetBackend.record, RedisBudgetBackend.dayKey, hrecord] at heq
      cases heq

theorem serve_agrees {c : Nat × BudgetCall} (hday : c.1 / 86400000 = day)
    (httl : 86400 ≤ B.ttlSecs.toNat) (h : Agrees formatDay B day db b) (hfits : Fits B c b) :
    Agrees formatDay B day (B.serve formatDay c db).2 (InMemoryBudgetBackend.serve c b).2 := by
  obtain ⟨now, call⟩ := c
  subst hday
  have hnow : now < (now / 86400000 + 1) * 86400000 := by omega
  cases call with
  | currentUsage tenant => exact h
  | record tenant usd tokens =>
    intro t
    obtain ⟨slot', hrecord, hholds⟩ := recordLua_ok usd (h tenant) hnow hfits.1 hfits.2
      (by omega)
    change Holds _ ((b.record tenant usd tokens).currentUsage t)
      ((B.record formatDay now tenant usd tokens db).2 _)
    rw [RedisBudgetBackend.record, RedisBudgetBackend.dayKey, hrecord,
      InMemoryBudgetBackend.currentUsage_record]
    dsimp only
    by_cases ht : t = tenant
    · rw [if_pos ht, ht, Function.update_self]
      exact hholds
    · rw [if_neg ht, Function.update_of_ne fun hkey => ht (formatDayKey_inj.mp hkey)]
      exact h t

/-- The tokens that a call records for a tenant. -/
def BudgetCall.tokensFor (tenant : String) : BudgetCall → Nat
  | .currentUsage _ => 0
  | .record t _ tokens => if tenant = t then tokens.toNat else 0

/-- All tokens that are recorded for a tenant. -/
def tokensOf (tenant : String) : List (Nat × BudgetCall) → Nat
  | [] => 0
  | c :: calls => c.2.tokensFor tenant + tokensOf tenant calls

/-- The deadline of a record's key is a signed 64-bit integer. -/
def ExpiryFits (B : RedisBudgetBackend) : Nat × BudgetCall → Prop
  | (_, .currentUsage _) => True
  | (now, .record _ _ _) => B.ttlSecs.toNat * 1000 + now < 9223372036854775808

/-- Every tenant's tokens and every record's deadline are signed 64-bit integers. -/
def Room (B : RedisBudgetBackend) (calls : List (Nat × BudgetCall)) : Prop :=
  (∀ tenant, tokensOf tenant calls < 9223372036854775808) ∧ ∀ c ∈ calls, ExpiryFits B c

/-- The tokens after a record that fits. -/
theorem tokens_record {tenant : String} {now : Nat} {usd : Rat} {tokens : UInt64}
    (h : Fits B (now, .record tenant usd tokens) b) (t : String) :
    ((b.record tenant usd tokens).currentUsage t).tokensToday.toNat =
      (b.currentUsage t).tokensToday.toNat +
        (BudgetCall.record tenant usd tokens).tokensFor t := by
  rw [InMemoryBudgetBackend.currentUsage_record, BudgetCall.tokensFor]
  split
  · next ht =>
    subst ht
    exact toNat_saturatingAdd64 h.1
  · exact (Nat.add_zero _).symm

theorem along_fits_iff {calls : List (Nat × BudgetCall)}
    (hb : ∀ tenant, (b.currentUsage tenant).tokensToday.toNat < 9223372036854775808) :
    Along InMemoryBudgetBackend.serve (Fits B) calls b ↔
      (∀ tenant, (b.currentUsage tenant).tokensToday.toNat + tokensOf tenant calls <
        9223372036854775808) ∧ ∀ c ∈ calls, ExpiryFits B c := by
  induction calls generalizing b with
  | nil => exact iff_of_true trivial ⟨hb, fun _ h => by cases h⟩
  | cons c calls ih =>
    obtain ⟨now, call⟩ := c
    cases call with
    | currentUsage t =>
      simp only [Along, Fits, true_and, List.forall_mem_cons, ExpiryFits, tokensOf,
        BudgetCall.tokensFor, Nat.zero_add]
      exact ih hb
    | record t usd tokens =>
      rw [Along, List.forall_mem_cons]
      by_cases hfits : Fits B (now, .record t usd tokens) b
      · have hnext := tokens_record hfits
        have hb' (tenant : String) :
            ((b.record t usd tokens).currentUsage tenant).tokensToday.toNat <
              9223372036854775808 := by
          rw [hnext, BudgetCall.tokensFor]
          split
          · next ht => exact ht ▸ hfits.1
          · exact hb tenant
        rw [and_iff_right hfits]
        refine (ih hb').trans
          (and_congr (forall_congr' fun tenant => ?_) (and_iff_right hfits.2).symm)
        rw [hnext, tokensOf, Nat.add_assoc]
      · refine iff_of_false (fun h => hfits h.1) fun h => hfits ⟨?_, h.2.1⟩
        have ht := h.1 t
        rw [tokensOf, BudgetCall.tokensFor, if_pos rfl] at ht
        omega

/-- A record that fails leaves all usage as it was. -/
def Untorn (formatDay : Nat → String) (B : RedisBudgetBackend) (c : Nat × BudgetCall)
    (db : Redis.Db) : Prop :=
  ∀ e, (B.serve formatDay c db).1 = .recorded (.error e) → ∀ tenant,
    B.currentUsage formatDay c.1 tenant (B.serve formatDay c db).2 =
      B.currentUsage formatDay c.1 tenant db

def BudgetCall.isFor (tenant : String) (c : Nat × BudgetCall) : Bool := c.2.tenant == tenant

/-- The backends give the same answers, every tenant gets those that it would get alone, and no
record that fails is torn. -/
structure BudgetLaw (formatDay : Nat → String) (B : RedisBudgetBackend)
    (calls : List (Nat × BudgetCall)) : Prop where
  same : answers (B.serve formatDay) calls (fun _ => none) =
    answers InMemoryBudgetBackend.serve calls []
  apart : ∀ tenant,
    answersTo (B.serve formatDay) (BudgetCall.isFor tenant) calls (fun _ => none) =
      answers (B.serve formatDay) (calls.filter (BudgetCall.isFor tenant)) fun _ => none
  untorn : Along (B.serve formatDay) (Untorn formatDay B) calls fun _ => none

theorem agrees_nil (formatDay : Nat → String) (B : RedisBudgetBackend) (day : Nat) :
    Agrees formatDay B day (fun _ => none) [] := by
  intro tenant
  have hzero : 0 < 9223372036854775808 := by decide
  exact ⟨rfl, rfl, hzero, fun _ h => by cases h⟩

/-- The databases have the same key for a tenant. -/
def SameKey (formatDay : Nat → String) (B : RedisBudgetBackend) (day : Nat) (tenant : String)
    (db db' : Redis.Db) : Prop :=
  db (RedisBudgetBackend.formatDayKey formatDay B.keyPrefix tenant day) =
    db' (RedisBudgetBackend.formatDayKey formatDay B.keyPrefix tenant day)

/-- A call looks at its own tenant's key only. -/
theorem serve_sameKey {c : Nat × BudgetCall} {db' : Redis.Db} (hday : c.1 / 86400000 = day)
    (h : SameKey formatDay B day c.2.tenant db db') :
    (B.serve formatDay c db).1 = (B.serve formatDay c db').1 ∧
      SameKey formatDay B day c.2.tenant (B.serve formatDay c db).2
        (B.serve formatDay c db').2 := by
  obtain ⟨now, call⟩ := c
  subst hday
  cases call with
  | currentUsage tenant =>
    refine ⟨?_, h⟩
    exact congrArg (fun slot => BudgetAnswer.usage (.ok (RedisBudgetBackend.usageOf now slot))) h
  | record tenant usd tokens =>
    change db (RedisBudgetBackend.formatDayKey formatDay B.keyPrefix tenant (now / 86400000)) =
      db' (RedisBudgetBackend.formatDayKey formatDay B.keyPrefix tenant (now / 86400000)) at h
    simp only [RedisBudgetBackend.serve, RedisBudgetBackend.record, RedisBudgetBackend.dayKey,
      SameKey, BudgetCall.tenant, Function.update_self, h, and_self]

/-- It leaves the other tenants' keys alone. -/
theorem serve_frame {c : Nat × BudgetCall} (hday : c.1 / 86400000 = day) {tenant : String}
    (hne : c.2.tenant ≠ tenant) :
    SameKey formatDay B day tenant (B.serve formatDay c db).2 db := by
  obtain ⟨now, call⟩ := c
  subst hday
  cases call with
  | currentUsage t => rfl
  | record t usd tokens =>
    exact Function.update_of_ne (fun hkey => hne (formatDayKey_inj.mp hkey).symm) ..

/-- What a tenant sees is its key. -/
theorem serve_apart {calls : List (Nat × BudgetCall)} (hday : ∀ c ∈ calls, c.1 / 86400000 = day)
    (tenant : String) :
    answersTo (B.serve formatDay) (BudgetCall.isFor tenant) calls (fun _ => none) =
      answers (B.serve formatDay) (calls.filter (BudgetCall.isFor tenant)) fun _ => none := by
  refine answersTo_eq (V := SameKey formatDay B day tenant) rfl
    (fun c hc hown db db' h => ?_) fun c hc hown db db' h => ?_
  · obtain rfl : c.2.tenant = tenant := beq_iff_eq.mp hown
    exact serve_sameKey (hday c hc) h
  · exact (serve_frame (hday c hc) (ne_of_beq_false hown)).trans h

/-- The backends agree exactly as long as all counts are signed 64-bit integers. -/
theorem budgetLaw_iff (formatDay : Nat → String) (B : RedisBudgetBackend) (day : Nat)
    (calls : List (Nat × BudgetCall)) (hday : ∀ c ∈ calls, c.1 / 86400000 = day)
    (httl : 86400 ≤ B.ttlSecs.toNat) : BudgetLaw formatDay B calls ↔ Room B calls := by
  have hzero : 0 < 9223372036854775808 := by decide
  have hroom : Along InMemoryBudgetBackend.serve (Fits B) calls [] ↔ Room B calls := by
    refine (along_fits_iff (b := []) fun _ => hzero).trans
      (and_congr_left' (forall_congr' fun tenant => ?_))
    exact iff_of_eq (congrArg (· < 9223372036854775808) (Nat.zero_add _))
  have hsame := answers_eq_iff (agrees_nil formatDay B day)
    (fun c hc _ _ h => serve_answer_iff (c := c) (hday c hc) httl h)
    (fun c hc _ _ h hfits => serve_agrees (c := c) (hday c hc) httl h hfits)
  constructor
  · intro hlaw
    exact hroom.mp (hsame.mp hlaw.same)
  · intro h
    have halong := hroom.mpr h
    refine ⟨hsame.mpr halong, serve_apart hday, ?_⟩
    refine along_of_fits (agrees_nil formatDay B day) halong (fun c hc db b hagrees hfits => ?_)
      fun c hc _ _ hagrees hfits => serve_agrees (hday c hc) httl hagrees hfits
    intro e he
    rw [(serve_answer_iff (hday c hc) httl hagrees).mpr hfits] at he
    obtain ⟨now, call⟩ := c
    cases call <;> cases he

end

/-! ## A small day and a huge record -/

/-- A printer that prints one date. -/
def oneDay (_ : Nat) : String := "2026-04-29"

theorem budgetLaw_small : BudgetLaw oneDay {} [(0, .record "acme" (1 / 2) 5),
    (1, .record "acme" 1 7), (2, .currentUsage "acme"), (3, .currentUsage "other")] := by
  refine (budgetLaw_iff oneDay {} 0 _ (by decide) (by decide)).mpr ⟨fun tenant => ?_, ?_⟩
  · have hle : tokensOf tenant [(0, .record "acme" (1 / 2) 5), (1, .record "acme" 1 7),
        (2, .currentUsage "acme"), (3, .currentUsage "other")] ≤ 12 := by
      simp only [tokensOf, BudgetCall.tokensFor]
      split <;> decide
    exact hle.trans_lt (by decide)
  · simp [ExpiryFits]

/-- A record of 2^63 tokens. -/
def hugeRecord : Nat × BudgetCall := (0, .record "acme" 1 9223372036854775808)

/-- The dollars are counted and the call fails. -/
theorem not_budgetLaw_hugeRecord :
    ¬∀ (formatDay : Nat → String) (B : RedisBudgetBackend) (day : Nat)
      (calls : List (Nat × BudgetCall)), (∀ c ∈ calls, c.1 / 86400000 = day) →
      86400 ≤ B.ttlSecs.toNat → BudgetLaw formatDay B calls := by
  intro h
  have hlaw := h oneDay {} 0 [hugeRecord] (by decide) (by decide)
  have herror : (RedisBudgetBackend.serve oneDay {} hugeRecord fun _ => none).1 =
      .recorded (.error (.transport
        "redis eval: ERR value is not an integer or out of range")) := by
    rfl
  have hafter : TenantUsage.usdToday (RedisBudgetBackend.usageOf 0
      (recordLua 0 1 9223372036854775808 172800 none).2) = 1 := by decide +kernel
  have husage := Except.ok.inj (hlaw.untorn.1 _ herror "acme")
  have hone : (1 : Rat) = 0 := hafter.symm.trans (congrArg TenantUsage.usdToday husage)
  exact absurd hone one_ne_zero

end Tako.Runtime
