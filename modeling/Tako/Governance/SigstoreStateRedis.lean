import Mathlib.Data.Rat.Cast.Order
import Tako.Theory.FloatRounding
import Tako.Rust.Num
import Tako.Core.Error

/-!
# The Redis freshness store

`RedisStateStore` (`tako-governance/src/sigstore_state_redis.rs`). Its `SAVE_LUA` script runs
atomically on the server and compares the held mark with the new one as Lua numbers, which are
doubles. `Hidden` names the rollbacks that this comparison cannot see.
-/

namespace Tako.Sigstore.Redis

open FloatRounding Tako.Num

/-- What the server and the client library make of values other than decimal integers: `strtod` on
any other text, `tostring` of a number, the texts of an error reply and of a quoted string. -/
structure Server where
  strtod : String → Option ℚ
  tostring : ℚ → String
  showError : String → String
  debugStr : String → String

/-- The keys of the database. -/
abbrev Db := String → Option String

variable (S : Server)

/-! ## The script -/

/-- Lua's `tonumber`: a decimal integer becomes the nearest double. -/
def tonumber (s : String) : Option ℚ :=
  if IsDecimal s then some (round 53 (value s) : ℚ) else S.strtod s

/-- `SAVE_LUA`: the reply and the database afterwards. A missing key reads as `false`, which is no
number. -/
def saveLua (key arg : String) (db : Db) : Except String String × Db :=
  let raw := db key
  let cur := (raw.bind (tonumber S)).getD 0
  match tonumber S arg with
  | none => (.error "rekor_min_tree_size: ARGV[1] not an integer", db)
  | some new =>
    if cur ≤ new then (.ok arg, Function.update db key (some arg)) else (.ok (S.tostring cur), db)

/-! ## The store -/

structure RedisStateStore where
  key : String := "tako:sigstore:rekor_min_tree_size"

namespace RedisStateStore

variable (store : RedisStateStore)

def load (db : Db) : Result Nat :=
  match db store.key with
  | none => .ok 0
  | some s =>
    (parseU64 s).mapError fun e =>
      .invalid s!"sigstore_state_redis: parse {store.key} = {S.debugStr s}: {e}"

/-- `save`, with the database afterwards. -/
def save (n : UInt64) (db : Db) : Result Unit × Db :=
  match saveLua S store.key (display n) db with
  | (.error e, db) => (.error (.transport s!"redis eval: {S.showError e}"), db)
  | (.ok _, db) => (.ok (), db)

/-- The database after the saves of any number of replicas, in the order in which the server runs
their scripts. -/
def saveAll (db : Db) (saves : List UInt64) : Db :=
  saves.foldl (fun db n => (store.save S n db).2) db

end RedisStateStore

/-! ## The held mark -/

/-- The mark in a key, 0 when the key is missing. -/
def held (raw : Option String) : Nat := raw.elim 0 value

/-- The key is missing or holds the decimal text of a `u64`. -/
def IsMark (raw : Option String) : Prop := ∀ s ∈ raw, IsDecimal s ∧ value s < 2 ^ 64

@[simp] theorem held_none : held none = 0 := rfl

@[simp] theorem held_display (n : UInt64) : held (some (display n)) = n.toNat := value_display n

theorem isMark_display (n : UInt64) : IsMark (some (display n)) := by
  intro s hs
  obtain rfl := Option.some.inj hs
  exact ⟨isDecimal_display n, by rw [value_display]; exact n.toNat_lt⟩

/-- A submitted size below the held one that rounds to the same double. -/
def Hidden (held submitted : Nat) : Prop :=
  submitted < held ∧ round 53 submitted = round 53 held

instance (held submitted : Nat) : Decidable (Hidden held submitted) :=
  inferInstanceAs (Decidable (_ ∧ _))

/-- Sizes that a double represents exactly are told apart. -/
theorem Hidden.large {n m : Nat} (h : Hidden n m) : 2 ^ 53 < n := by
  obtain ⟨hlt, hr⟩ := h
  by_contra hle
  have hn : round 53 n = n := by
    rcases Nat.eq_or_lt_of_le (Nat.not_lt.1 hle) with rfl | hlt'
    · decide +kernel
    · exact round_of_lt (by decide) hlt'
  rw [round_of_lt (by decide) (by omega), hn] at hr
  omega

namespace RedisStateStore

variable {S} {store : RedisStateStore}

theorem load_eq (h : IsMark (db store.key)) : store.load S db = .ok (held (db store.key)) := by
  unfold load
  cases hraw : db store.key with
  | none => rfl
  | some s =>
    obtain ⟨hd, hv⟩ := h s hraw
    simp only [parseU64_of_isDecimal hd hv]
    rfl

theorem cur_eq (h : IsMark raw) : (raw.bind (tonumber S)).getD 0 = (round 53 (held raw) : ℚ) := by
  cases raw with
  | none => simp [round_of_lt]
  | some s => simp [held, tonumber, (h s rfl).1]

/-- What one save leaves in the key: the new size unless the held one rounds to more. -/
theorem save_snd (h : IsMark (db store.key)) (n : UInt64) :
    (store.save S n db).2 =
      if round 53 (held (db store.key)) ≤ round 53 n.toNat then
        Function.update db store.key (some (display n))
      else db := by
  have harg : tonumber S (display n) = some (round 53 n.toNat : ℚ) := by
    rw [tonumber, if_pos (isDecimal_display n), value_display]
  by_cases hle : round 53 (held (db store.key)) ≤ round 53 n.toNat
  · simp only [save, saveLua, harg, cur_eq h, Nat.cast_le, if_pos hle]
  · simp only [save, saveLua, harg, cur_eq h, Nat.cast_le, if_neg hle]

theorem isMark_save (h : IsMark (db store.key)) (n : UInt64) :
    IsMark ((store.save S n db).2 store.key) := by
  rw [save_snd h]
  split
  · rw [Function.update_self]
    exact isMark_display n
  · exact h

/-- One save leaves the larger size in the key exactly when it is not a hidden rollback. -/
theorem held_save_eq_max_iff (h : IsMark (db store.key)) (n : UInt64) :
    held ((store.save S n db).2 store.key) = max (held (db store.key)) n.toNat ↔
      ¬Hidden (held (db store.key)) n.toNat := by
  rw [save_snd h]
  generalize hm : held (db store.key) = m
  rcases Nat.lt_or_ge n.toNat m with hlt | hge
  · have hmono : round 53 n.toNat ≤ round 53 m := round_mono (by decide) hlt.le
    rw [max_eq_left hlt.le, Hidden, and_iff_right hlt]
    split
    · next hle => simpa [hmono.antisymm hle] using hlt.ne
    · next hgt => exact iff_of_true hm fun heq => hgt (heq ▸ le_rfl)
  · have hmono : round 53 m ≤ round 53 n.toNat := round_mono (by decide) hge
    have hvis : ¬Hidden m n.toNat := fun hh => hge.not_gt hh.1
    rw [if_pos hmono, Function.update_self, held_display, max_eq_right hge]
    exact iff_of_true rfl hvis

/-! ## Runs -/

theorem isMark_saveAll (h : IsMark (db store.key)) (saves : List UInt64) :
    IsMark (store.saveAll S db saves store.key) := by
  induction saves generalizing db with
  | nil => exact h
  | cons n saves ih => exact ih (isMark_save h n)

theorem saveAll_concat (saves : List UInt64) (n : UInt64) :
    store.saveAll S db (saves ++ [n]) = (store.save S n (store.saveAll S db saves)).2 := by
  simp [saveAll, List.foldl_append]

/-- The largest size among some saves. -/
def largest (saves : List UInt64) : Nat := saves.foldl (fun m n => max m n.toNat) 0

theorem largest_concat (saves : List UInt64) (n : UInt64) :
    largest (saves ++ [n]) = max (largest saves) n.toNat := by
  simp [largest, List.foldl_append]

/-- The save that comes after the first `k`. -/
theorem held_saveAll_succ_iff (h : IsMark (db store.key)) {saves : List UInt64}
    (hk : k < saves.length)
    (hmax : held (store.saveAll S db (saves.take k) store.key) = largest (saves.take k)) :
    held (store.saveAll S db (saves.take (k + 1)) store.key) = largest (saves.take (k + 1)) ↔
      ¬Hidden (held (store.saveAll S db (saves.take k) store.key)) saves[k].toNat := by
  rw [List.take_succ_eq_append_getElem hk, saveAll_concat, largest_concat, ← hmax]
  exact held_save_eq_max_iff (isMark_saveAll h _) _

/-- The key holds the largest size so far at every point of a run exactly when no save of the run
is a hidden rollback. -/
theorem held_saveAll_iff (h : IsMark (db store.key)) (h0 : held (db store.key) = 0)
    (saves : List UInt64) :
    (∀ k ≤ saves.length,
        held (store.saveAll S db (saves.take k) store.key) = largest (saves.take k)) ↔
      ∀ (k : Nat) (hk : k < saves.length),
        ¬Hidden (held (store.saveAll S db (saves.take k) store.key)) saves[k].toNat := by
  constructor
  · intro hmax k hk
    exact (held_saveAll_succ_iff h hk (hmax k hk.le)).1 (hmax (k + 1) hk)
  · intro hvis k
    induction k with
    | zero => exact fun _ => h0
    | succ k ih => exact fun hk => (held_saveAll_succ_iff h hk (ih (Nat.le_of_succ_le hk))).2 (hvis k hk)

end RedisStateStore

/-- A key that holds the decimal text of a `u64`. -/
structure Mark where
  text : String
  decimal : IsDecimal text
  fits : value text < 2 ^ 64

/-- The database with a mark in the key, or with no key. -/
def Db.holding (db : Db) (key : String) (mark : Option Mark) : Db :=
  Function.update db key (mark.map Mark.text)

theorem Db.isMark_holding (db : Db) (key : String) (mark : Option Mark) :
    IsMark (db.holding key mark key) := by
  rw [Db.holding, Function.update_self]
  intro s hs
  obtain ⟨mark, -, rfl⟩ := Option.map_eq_some_iff.1 hs
  exact ⟨mark.decimal, mark.fits⟩

namespace RedisStateStore

/-- One save leaves the larger of the two sizes, and a run of saves the largest, exactly when the
saves are no hidden rollbacks. -/
theorem save_keeps_max_iff (S : Server) (store : RedisStateStore) (db : Db) :
    (∀ (mark : Mark) (n : UInt64),
      store.load S (store.save S n (db.holding store.key mark)).2 =
          .ok (max (value mark.text) n.toNat) ↔
        ¬Hidden (value mark.text) n.toNat) ∧
    ∀ saves : List UInt64,
      (∀ k ≤ saves.length, store.load S (store.saveAll S (db.holding store.key none) (saves.take k)) =
          .ok (largest (saves.take k))) ↔
        ∀ (k : Nat) (hk : k < saves.length),
          ¬Hidden (held (store.saveAll S (db.holding store.key none) (saves.take k) store.key))
            saves[k].toNat := by
  constructor
  · intro mark n
    have hmark := db.isMark_holding store.key (some mark)
    have hheld : held (db.holding store.key (some mark) store.key) = value mark.text := by
      simp [Db.holding, held]
    rw [load_eq (isMark_save hmark n), Except.ok.injEq, ← hheld]
    exact held_save_eq_max_iff hmark n
  · intro saves
    have hmark := db.isMark_holding store.key none
    rw [← held_saveAll_iff hmark (by simp [Db.holding])]
    refine forall₂_congr fun k _ => ?_
    rw [load_eq (isMark_saveAll hmark _), Except.ok.injEq]

/-- A held `2^53 + 1` is rolled back to `2^53`. -/
theorem save_rolls_back :
    ¬∀ (S : Server) (store : RedisStateStore) (db : Db) (mark : Mark) (n : UInt64),
      store.load S (store.save S n (db.holding store.key mark)).2 =
        .ok (max (value mark.text) n.toNat) := by
  intro hmax
  let mark : Mark := ⟨"9007199254740993", by decide +kernel, by decide +kernel⟩
  let db := Db.holding (fun _ => none) "rekor" (some mark)
  have hmark : IsMark (db "rekor") := Db.isMark_holding _ _ _
  have h := hmax ⟨fun _ => none, fun _ => "", id, id⟩ ⟨"rekor"⟩ (fun _ => none) mark
    9007199254740992
  rw [load_eq (isMark_save hmark _), Except.ok.injEq] at h
  exact (held_save_eq_max_iff hmark _).1 h (by decide +kernel)

end RedisStateStore

end Tako.Sigstore.Redis
