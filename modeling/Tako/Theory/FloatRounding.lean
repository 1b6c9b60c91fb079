import Mathlib.Data.Nat.Log
import Mathlib.Tactic.Linarith
import Mathlib.Tactic.Ring

/-!
# Rounding naturals to a binary significand

`nearest u n` is the multiple of `u` nearest to `n`, the even one of two equally near. A natural
is rounded to `p` significant bits by `round p`, which is what a binary floating-point format of
precision `p` does while its exponent range lasts. Rounding keeps the order and is exact below
`2 ^ p`.
-/

namespace FloatRounding

/-! ## Multiples of a unit -/

/-- The multiple of `u` nearest to `n`; a tie goes to the even multiple. -/
def nearest (u n : Nat) : Nat :=
  let q := n / u
  let r := n % u
  if 2 * r < u then q * u
  else if u < 2 * r then (q + 1) * u
  else (q + q % 2) * u

theorem nearest_one (n : Nat) : nearest 1 n = n := by
  simp [nearest, Nat.mod_one]

theorem le_nearest (u n : Nat) : n / u * u ≤ nearest u n := by
  unfold nearest
  dsimp only
  split
  · exact le_rfl
  · split
    · exact Nat.mul_le_mul_right u (Nat.le_succ _)
    · exact Nat.mul_le_mul_right u (Nat.le_add_right _ _)

theorem nearest_le (u n : Nat) : nearest u n ≤ (n / u + 1) * u := by
  unfold nearest
  dsimp only
  split
  · exact Nat.mul_le_mul_right u (Nat.le_succ _)
  · split
    · exact le_rfl
    · have : n / u % 2 ≤ 1 := Nat.le_of_lt_succ (Nat.mod_lt _ (by decide))
      exact Nat.mul_le_mul_right u (by omega)

/-- Two naturals over the same multiple are rounded in their order. -/
theorem nearest_mono_of_div_eq (h : n ≤ m) (hq : n / u = m / u) : nearest u n ≤ nearest u m := by
  have hr : n % u ≤ m % u := by
    have hn := Nat.div_add_mod n u
    have hm := Nat.div_add_mod m u
    rw [hq] at hn
    omega
  have hp : m / u % 2 ≤ 1 := Nat.le_of_lt_succ (Nat.mod_lt _ (by decide))
  unfold nearest
  dsimp only
  rw [hq]
  split_ifs <;> first | omega | exact Nat.mul_le_mul_right u (by omega)

theorem nearest_mono (h : n ≤ m) : nearest u n ≤ nearest u m := by
  rcases Nat.eq_or_lt_of_le (Nat.div_le_div_right (c := u) h) with hq | hq
  · exact nearest_mono_of_div_eq h hq
  · calc
      nearest u n ≤ (n / u + 1) * u := nearest_le u n
      _ ≤ m / u * u := Nat.mul_le_mul_right u hq
      _ ≤ nearest u m := le_nearest u m

/-- A multiple of the unit that bounds a natural bounds its rounding. -/
theorem nearest_le_of_lt_mul (h : n < k * u) : nearest u n ≤ k * u :=
  (nearest_le u n).trans
    (Nat.mul_le_mul_right u (Nat.div_lt_of_lt_mul (by rwa [Nat.mul_comm] at h)))

theorem mul_le_nearest (hu : 0 < u) (h : k * u ≤ n) : k * u ≤ nearest u n :=
  (Nat.mul_le_mul_right u ((Nat.le_div_iff_mul_le hu).2 h)).trans (le_nearest u n)

/-! ## A significand of `p` bits -/

/-- The exponent of the last bit of a `p`-bit significand. -/
def exponent (p n : Nat) : Nat := n.log2 + 1 - p

def round (p n : Nat) : Nat := nearest (2 ^ exponent p n) n

theorem log2_lt_of_lt_two_pow (hp : 0 < p) (h : n < 2 ^ p) : n.log2 < p := by
  rcases Nat.eq_zero_or_pos n with rfl | hn
  · simpa using hp
  · exact (Nat.log2_lt (by omega)).2 h

/-- A natural that fits the significand is represented exactly. -/
theorem round_of_lt (hp : 0 < p) (h : n < 2 ^ p) : round p n = n := by
  have he : exponent p n = 0 := by
    have := log2_lt_of_lt_two_pow hp h
    unfold exponent
    omega
  rw [round, he, pow_zero, nearest_one]

theorem log2_mono {n m : Nat} (h : n ≤ m) : n.log2 ≤ m.log2 := by
  rw [Nat.log2_eq_log_two, Nat.log2_eq_log_two]
  exact Nat.log_mono_right h

/-- Rounding does not pass the next power of two. -/
theorem round_le_two_pow (p n : Nat) (hp : 0 < p) : round p n ≤ 2 ^ (n.log2 + 1) := by
  have hsplit : 2 ^ (n.log2 + 1) = 2 ^ (n.log2 + 1 - exponent p n) * 2 ^ exponent p n := by
    rw [← pow_add]
    congr 1
    unfold exponent
    omega
  rw [hsplit]
  apply nearest_le_of_lt_mul
  rw [← hsplit]
  exact Nat.lt_log2_self

/-- Rounding does not fall below the leading power of two. -/
theorem two_pow_le_round (hp : 0 < p) (h : n ≠ 0) : 2 ^ n.log2 ≤ round p n := by
  have hsplit : 2 ^ n.log2 = 2 ^ (n.log2 - exponent p n) * 2 ^ exponent p n := by
    rw [← pow_add]
    congr 1
    unfold exponent
    omega
  rw [hsplit]
  apply mul_le_nearest (by positivity)
  rw [← hsplit]
  exact Nat.log2_self_le h

theorem round_mono (hp : 0 < p) (h : n ≤ m) : round p n ≤ round p m := by
  rcases Nat.eq_or_lt_of_le (log2_mono h) with hl | hl
  · have he : exponent p n = exponent p m := by rw [exponent, exponent, hl]
    rw [round, round, he]
    exact nearest_mono h
  · have hm : m ≠ 0 := by
      rintro rfl
      simp at hl
    calc
      round p n ≤ 2 ^ (n.log2 + 1) := round_le_two_pow p n hp
      _ ≤ 2 ^ m.log2 := Nat.pow_le_pow_right (by decide) hl
      _ ≤ round p m := two_pow_le_round hp hm

end FloatRounding
