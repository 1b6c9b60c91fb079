import Mathlib.Data.Nat.Bitwise
import Mathlib.Tactic.IntervalCases
import Tako.Providers.UrlPrefetch

/-!
# Blocked ranges and allowed hosts

The tests of `is_blocked_ip` are ranges of addresses, each given by an address and the number of its
leading bits. A wildcard of the allow-list matches by its suffix, and so it also matches a host that
has nothing before the suffix.
-/

namespace Tako.Net

/-! ## Addresses as numbers -/

def Ipv4Addr.toNat (a : Ipv4Addr) : Nat :=
  ((a.o0.toNat * 2 ^ 8 + a.o1.toNat) * 2 ^ 8 + a.o2.toNat) * 2 ^ 8 + a.o3.toNat

def Ipv6Addr.toNat (a : Ipv6Addr) : Nat :=
  ((((((a.s0.toNat * 2 ^ 16 + a.s1.toNat) * 2 ^ 16 + a.s2.toNat) * 2 ^ 16 + a.s3.toNat) * 2 ^ 16 +
    a.s4.toNat) * 2 ^ 16 + a.s5.toNat) * 2 ^ 16 + a.s6.toNat) * 2 ^ 16 + a.s7.toNat

/-- Two numbers of `width` bits have the same `length` leading bits. -/
def SharesPrefix (width length a b : Nat) : Prop :=
  a / 2 ^ (width - length) = b / 2 ^ (width - length)

/-- A mask of leading bits keeps the leading part of a number. -/
theorem land_leadingMask {x n k : Nat} (hx : x < 2 ^ n) (hk : k ≤ n) :
    x &&& (2 ^ n - 2 ^ k) = x / 2 ^ k * 2 ^ k := by
  have hmask : 2 ^ n - 2 ^ k = 2 ^ k * (2 ^ (n - k) - 1) := by
    rw [Nat.mul_sub, ← Nat.pow_add, Nat.mul_one, Nat.add_sub_of_le hk]
  apply Nat.eq_of_testBit_eq
  intro i
  rw [Nat.testBit_and, hmask, Nat.testBit_two_pow_mul, Nat.mul_comm (x / 2 ^ k),
    Nat.testBit_two_pow_mul, Nat.testBit_two_pow_sub_one, Nat.testBit_div_two_pow]
  by_cases hki : k ≤ i
  · have hadd : i - k + k = i := Nat.sub_add_cancel hki
    by_cases hin : i < n
    · have hlt : i - k < n - k := by omega
      simp [hki, hlt]
    · have hbit : x.testBit i = false :=
        Nat.testBit_lt_two_pow (Nat.lt_of_lt_of_le hx (Nat.pow_le_pow_right (by decide) (by omega)))
      simp [hbit, hadd]
  · simp [hki]

/-- A test of the first segment's leading bits. -/
theorem and_leadingMask_iff {s mask value : UInt16} {k : Nat} (hk : k ≤ 16)
    (hmask : mask.toNat = 2 ^ 16 - 2 ^ k) (hvalue : value.toNat % 2 ^ k = 0) :
    s &&& mask = value ↔ s.toNat / 2 ^ k = value.toNat / 2 ^ k := by
  rw [← UInt16.toNat_inj, UInt16.toNat_and, hmask, land_leadingMask s.toNat_lt hk]
  have hsplit := Nat.div_add_mod value.toNat (2 ^ k)
  rw [hvalue, Nat.add_zero, Nat.mul_comm] at hsplit
  constructor
  · intro h
    rw [← h, Nat.mul_div_cancel _ (Nat.two_pow_pos k)]
  · intro h
    rw [h, hsplit]

namespace Ipv4Addr

variable {a b : Ipv4Addr} {length : Nat}

theorem sharesPrefix_first (h : length ≤ 8) :
    SharesPrefix 32 length a.toNat b.toNat ↔
      a.o0.toNat / 2 ^ (8 - length) = b.o0.toNat / 2 ^ (8 - length) := by
  have hdiv (a : Ipv4Addr) : a.toNat / 2 ^ 24 = a.o0.toNat := by
    have h1 := a.o1.toNat_lt
    have h2 := a.o2.toNat_lt
    have h3 := a.o3.toNat_lt
    unfold toNat
    omega
  have hpow : 2 ^ (32 - length) = 2 ^ 24 * 2 ^ (8 - length) := by
    rw [← Nat.pow_add]
    congr 1
    omega
  rw [SharesPrefix, hpow, ← Nat.div_div_eq_div_mul, ← Nat.div_div_eq_div_mul, hdiv, hdiv]

theorem sharesPrefix_second (h : length ≤ 8) :
    SharesPrefix 32 (8 + length) a.toNat b.toNat ↔ a.o0 = b.o0 ∧
      a.o1.toNat / 2 ^ (8 - length) = b.o1.toNat / 2 ^ (8 - length) := by
  have hdiv (a : Ipv4Addr) : a.toNat / 2 ^ 16 = a.o0.toNat * 2 ^ 8 + a.o1.toNat := by
    have h2 := a.o2.toNat_lt
    have h3 := a.o3.toNat_lt
    unfold toNat
    omega
  have hpow : 2 ^ (32 - (8 + length)) = 2 ^ 16 * 2 ^ (8 - length) := by
    rw [← Nat.pow_add]
    congr 1
    omega
  have ha := a.o1.toNat_lt
  have hb := b.o1.toNat_lt
  rw [SharesPrefix, hpow, ← Nat.div_div_eq_div_mul, ← Nat.div_div_eq_div_mul, hdiv, hdiv,
    ← UInt8.toNat_inj]
  interval_cases length <;> omega

theorem sharesPrefix_full : SharesPrefix 32 32 a.toNat b.toNat ↔ a = b := by
  rw [SharesPrefix, Nat.sub_self, Nat.pow_zero, Nat.div_one, Nat.div_one]
  refine ⟨fun h => ?_, fun h => by rw [h]⟩
  obtain ⟨o0, o1, o2, o3⟩ := a
  obtain ⟨q0, q1, q2, q3⟩ := b
  have ho (o : UInt8) : o.toNat < 2 ^ 8 := o.toNat_lt
  have hsplit {m n x y : Nat} (hx : x < 2 ^ 8) (hy : y < 2 ^ 8)
      (h : m * 2 ^ 8 + x = n * 2 ^ 8 + y) : m = n ∧ x = y := by omega
  obtain ⟨h, h3⟩ := hsplit (ho o3) (ho q3) h
  obtain ⟨h, h2⟩ := hsplit (ho o2) (ho q2) h
  obtain ⟨h0, h1⟩ := hsplit (ho o1) (ho q1) h
  simp only [UInt8.toNat_inj] at h0 h1 h2 h3
  rw [h0, h1, h2, h3]

end Ipv4Addr

namespace Ipv6Addr

theorem toNat_injective {a b : Ipv6Addr} (h : a.toNat = b.toNat) : a = b := by
  obtain ⟨s0, s1, s2, s3, s4, s5, s6, s7⟩ := a
  obtain ⟨t0, t1, t2, t3, t4, t5, t6, t7⟩ := b
  have hs (s : UInt16) : s.toNat < 2 ^ 16 := s.toNat_lt
  have hsplit {m n x y : Nat} (hx : x < 2 ^ 16) (hy : y < 2 ^ 16)
      (h : m * 2 ^ 16 + x = n * 2 ^ 16 + y) : m = n ∧ x = y := by omega
  obtain ⟨h, h7⟩ := hsplit (hs s7) (hs t7) h
  obtain ⟨h, h6⟩ := hsplit (hs s6) (hs t6) h
  obtain ⟨h, h5⟩ := hsplit (hs s5) (hs t5) h
  obtain ⟨h, h4⟩ := hsplit (hs s4) (hs t4) h
  obtain ⟨h, h3⟩ := hsplit (hs s3) (hs t3) h
  obtain ⟨h, h2⟩ := hsplit (hs s2) (hs t2) h
  obtain ⟨h0, h1⟩ := hsplit (hs s1) (hs t1) h
  simp only [UInt16.toNat_inj] at h0 h1 h2 h3 h4 h5 h6 h7
  rw [h0, h1, h2, h3, h4, h5, h6, h7]

theorem sharesPrefix_full {a b : Ipv6Addr} : SharesPrefix 128 128 a.toNat b.toNat ↔ a = b := by
  rw [SharesPrefix, Nat.sub_self, Nat.pow_zero, Nat.div_one, Nat.div_one]
  exact ⟨toNat_injective, fun h => by rw [h]⟩

theorem segments_lt (a : Ipv6Addr) : a.s1.toNat < 2 ^ 16 ∧ a.s2.toNat < 2 ^ 16 ∧
    a.s3.toNat < 2 ^ 16 ∧ a.s4.toNat < 2 ^ 16 ∧ a.s5.toNat < 2 ^ 16 ∧ a.s6.toNat < 2 ^ 16 ∧
    a.s7.toNat < 2 ^ 16 :=
  ⟨a.s1.toNat_lt, a.s2.toNat_lt, a.s3.toNat_lt, a.s4.toNat_lt, a.s5.toNat_lt, a.s6.toNat_lt,
    a.s7.toNat_lt⟩

/-- The first segment is the leading part of the address. -/
theorem toNat_div (a : Ipv6Addr) : a.toNat / 2 ^ 112 = a.s0.toNat := by
  have hlt := a.segments_lt
  unfold toNat
  omega

theorem sharesPrefix_first {a b : Ipv6Addr} {length : Nat} (h : length ≤ 16) :
    SharesPrefix 128 length a.toNat b.toNat ↔
      a.s0.toNat / 2 ^ (16 - length) = b.s0.toNat / 2 ^ (16 - length) := by
  have hpow : 2 ^ (128 - length) = 2 ^ 112 * 2 ^ (16 - length) := by
    rw [← Nat.pow_add]
    congr 1
    omega
  rw [SharesPrefix, hpow, ← Nat.div_div_eq_div_mul, ← Nat.div_div_eq_div_mul, toNat_div, toNat_div]

theorem sharesPrefix_mapped (a : Ipv6Addr) :
    SharesPrefix 128 96 a.toNat (toNat ⟨0, 0, 0, 0, 0, 0xffff, 0, 0⟩) ↔
      a.s0 = 0 ∧ a.s1 = 0 ∧ a.s2 = 0 ∧ a.s3 = 0 ∧ a.s4 = 0 ∧ a.s5 = 0xffff := by
  have hlt := a.segments_lt
  simp only [SharesPrefix, toNat, ← UInt16.toNat_inj]
  change _ / 2 ^ 32 = 0xffff ↔ a.s0.toNat = 0 ∧ a.s1.toNat = 0 ∧ a.s2.toNat = 0 ∧
    a.s3.toNat = 0 ∧ a.s4.toNat = 0 ∧ a.s5.toNat = 0xffff
  omega

/-- An IPv4-mapped address is in `::ffff:0:0/96`, and its last 32 bits are the IPv4 address. -/
theorem toIpv4Mapped_eq_some {a : Ipv6Addr} {v : Ipv4Addr} (h : a.toIpv4Mapped = some v) :
    SharesPrefix 128 96 a.toNat (toNat ⟨0, 0, 0, 0, 0, 0xffff, 0, 0⟩) ∧
      v.toNat = a.toNat % 2 ^ 32 := by
  unfold toIpv4Mapped at h
  split at h
  next hmapped =>
    refine ⟨a.sharesPrefix_mapped.2 hmapped, ?_⟩
    obtain rfl := Option.some.inj h
    have h6 := a.s6.toNat_lt
    have h7 := a.s7.toNat_lt
    simp [Ipv4Addr.toNat, toNat, Nat.shiftRight_eq_div_pow]
    omega
  next => cases h

theorem toIpv4Mapped_eq_none {a : Ipv6Addr} (h : a.toIpv4Mapped = none) :
    ¬SharesPrefix 128 96 a.toNat (toNat ⟨0, 0, 0, 0, 0, 0xffff, 0, 0⟩) := by
  intro hshared
  rw [toIpv4Mapped, if_pos (a.sharesPrefix_mapped.1 hshared)] at h
  cases h

end Ipv6Addr

end Tako.Net

namespace Tako.UrlPrefetch

open Except Net

variable {IpNet : Type}

/-! ## Ranges -/

/-- Loopback, the three private ranges, link-local, unspecified, multicast and reserved. -/
def blockedV4 : List (Ipv4Addr × Nat) :=
  [(⟨127, 0, 0, 0⟩, 8), (⟨10, 0, 0, 0⟩, 8), (⟨172, 16, 0, 0⟩, 12), (⟨192, 168, 0, 0⟩, 16),
    (⟨169, 254, 0, 0⟩, 16), (⟨0, 0, 0, 0⟩, 32), (⟨224, 0, 0, 0⟩, 4), (⟨240, 0, 0, 0⟩, 4)]

/-- Loopback, unspecified, multicast, unique-local and link-local. -/
def blockedV6 : List (Ipv6Addr × Nat) :=
  [(⟨0, 0, 0, 0, 0, 0, 0, 1⟩, 128), (⟨0, 0, 0, 0, 0, 0, 0, 0⟩, 128),
    (⟨0xff00, 0, 0, 0, 0, 0, 0, 0⟩, 8), (⟨0xfc00, 0, 0, 0, 0, 0, 0, 0⟩, 7),
    (⟨0xfe80, 0, 0, 0, 0, 0, 0, 0⟩, 10)]

def InBlockedV4 (n : Nat) : Prop := ∃ r ∈ blockedV4, SharesPrefix 32 r.2 n r.1.toNat

def InBlockedV6 (n : Nat) : Prop := ∃ r ∈ blockedV6, SharesPrefix 128 r.2 n r.1.toNat

theorem isBlockedV4_iff (a : Ipv4Addr) : isBlockedV4 a = true ↔ InBlockedV4 a.toNat := by
  have htop : 224 ≤ a.o0 ↔ a.o0.toNat / 2 ^ 4 = 224 / 2 ^ 4 ∨ a.o0.toNat / 2 ^ 4 = 240 / 2 ^ 4 := by
    have h := a.o0.toNat_lt
    rw [UInt8.le_iff_toNat_le]
    change 224 ≤ a.o0.toNat ↔ _
    omega
  have hsecond : 16 ≤ a.o1 ∧ a.o1 ≤ 31 ↔ a.o1.toNat / 2 ^ 4 = 16 / 2 ^ 4 := by
    rw [UInt8.le_iff_toNat_le, UInt8.le_iff_toNat_le]
    change 16 ≤ a.o1.toNat ∧ a.o1.toNat ≤ 31 ↔ _
    omega
  have hbroadcast : a.isBroadcast = true → 224 ≤ a.o0 := by
    intro h
    obtain rfl : a = ⟨255, 255, 255, 255⟩ := by simpa [Ipv4Addr.isBroadcast] using h
    decide
  have hranges : InBlockedV4 a.toNat ↔ a.isLoopback = true ∨ a.isPrivate = true ∨
      a.isLinkLocal = true ∨ a.isUnspecified = true ∨ 224 ≤ a.o0 := by
    unfold InBlockedV4 blockedV4
    simp only [List.mem_cons, List.not_mem_nil, or_false, exists_eq_or_imp, exists_eq_left,
      Ipv4Addr.sharesPrefix_full]
    have h12 (b : Ipv4Addr) := @Ipv4Addr.sharesPrefix_second a b 4 (by decide)
    have h16 (b : Ipv4Addr) := @Ipv4Addr.sharesPrefix_second a b 8 (by decide)
    rw [Ipv4Addr.sharesPrefix_first (by decide), Ipv4Addr.sharesPrefix_first (by decide), h12,
      h16, h16, Ipv4Addr.sharesPrefix_first (by decide), Ipv4Addr.sharesPrefix_first (by decide)]
    simp [Ipv4Addr.isLoopback, Ipv4Addr.isPrivate, Ipv4Addr.isLinkLocal, Ipv4Addr.isUnspecified,
      htop, hsecond, and_assoc, or_assoc, ← UInt8.toNat_inj]
  rw [hranges]
  simp only [isBlockedV4, Bool.or_eq_true, decide_eq_true_eq]
  rw [or_assoc, or_iff_right_of_imp hbroadcast, or_assoc, or_assoc, or_assoc]

theorem isBlockedV6_iff (a : Ipv6Addr) :
    isBlockedIp (.v6 a) = true ↔ InBlockedV6 a.toNat ∨ a.toIpv4Mapped.any isBlockedV4 = true := by
  have hmulticast : a.s0 &&& 0xff00 = 0xff00 ↔ a.s0.toNat / 2 ^ 8 = 0xff00 / 2 ^ 8 :=
    and_leadingMask_iff (by decide) rfl rfl
  have hlocal : a.s0 &&& 0xfe00 = 0xfc00 ↔ a.s0.toNat / 2 ^ 9 = 0xfc00 / 2 ^ 9 :=
    and_leadingMask_iff (by decide) rfl rfl
  have hlink : a.s0 &&& 0xffc0 = 0xfe80 ↔ a.s0.toNat / 2 ^ 6 = 0xfe80 / 2 ^ 6 :=
    and_leadingMask_iff (by decide) rfl rfl
  have hranges : InBlockedV6 a.toNat ↔ a.isLoopback = true ∨ a.isUnspecified = true ∨
      a.isMulticast = true ∨ a.s0 &&& 0xfe00 = 0xfc00 ∨ a.s0 &&& 0xffc0 = 0xfe80 := by
    unfold InBlockedV6 blockedV6
    simp only [List.mem_cons, List.not_mem_nil, or_false, exists_eq_or_imp, exists_eq_left,
      Ipv6Addr.sharesPrefix_full]
    rw [Ipv6Addr.sharesPrefix_first (by decide), Ipv6Addr.sharesPrefix_first (by decide),
      Ipv6Addr.sharesPrefix_first (by decide)]
    simp [Ipv6Addr.isLoopback, Ipv6Addr.isUnspecified, Ipv6Addr.isMulticast, hmulticast, hlocal,
      hlink]
  rw [hranges]
  simp [isBlockedIp, or_assoc]

/-- `::ffff:0:0/96`, the addresses that stand for an IPv4 address in their last 32 bits. -/
def IsMapped (n : Nat) : Prop :=
  SharesPrefix 128 96 n (Ipv6Addr.toNat ⟨0, 0, 0, 0, 0, 0xffff, 0, 0⟩)

theorem mapped_blocked_iff (a : Ipv6Addr) :
    a.toIpv4Mapped.any isBlockedV4 = true ↔ IsMapped a.toNat ∧ InBlockedV4 (a.toNat % 2 ^ 32) := by
  cases hmapped : a.toIpv4Mapped with
  | none =>
    have hnot := Ipv6Addr.toIpv4Mapped_eq_none hmapped
    exact iff_of_false (by simp) fun h => hnot h.1
  | some v =>
    obtain ⟨hshared, hv⟩ := Ipv6Addr.toIpv4Mapped_eq_some hmapped
    rw [Option.any_some, isBlockedV4_iff, hv]
    exact ⟨fun h => ⟨hshared, h⟩, fun h => h.2⟩

/-- An IPv4-mapped address is blocked when its IPv4 address is. -/
theorem isBlockedIp_mapped {a : Ipv4Addr} {b : Ipv6Addr}
    (h : b.toNat = 0xffff * 2 ^ 32 + a.toNat) : isBlockedIp (.v6 b) = isBlockedIp (.v4 a) := by
  have hlt : a.toNat < 2 ^ 32 := by
    have h0 := a.o0.toNat_lt
    have h1 := a.o1.toNat_lt
    have h2 := a.o2.toNat_lt
    have h3 := a.o3.toNat_lt
    unfold Ipv4Addr.toNat
    omega
  have hranges : ¬InBlockedV6 b.toNat := by
    rw [h]
    simp [InBlockedV6, blockedV6, SharesPrefix, Ipv6Addr.toNat]
    omega
  have hmapped : IsMapped b.toNat := by
    rw [h, IsMapped, SharesPrefix]
    change _ = 0xffff
    omega
  have hlow : b.toNat % 2 ^ 32 = a.toNat := by
    rw [h]
    omega
  rw [Bool.eq_iff_iff, isBlockedV6_iff, mapped_blocked_iff, or_iff_right hranges,
    and_iff_right hmapped, hlow]
  exact (isBlockedV4_iff a).symm

/-! ## Hosts of the allow-list -/

/-- What an entry matches. Anything may stand before the suffix of a wildcard. -/
inductive Matches : String → String → Prop
  | exact {entry : String} : (∀ d, entry ≠ "*." ++ d) → Matches entry entry
  | wildcard (d p : String) : Matches ("*." ++ d) (p ++ "." ++ d)

/-- Labels with dots between them, none of which is empty. -/
def LabelSequence (p : String) : Prop := ∀ label ∈ p.toList.splitOn '.', label ≠ []

theorem wildcard_injective {d d' : String} (h : "*." ++ d = "*." ++ d') : d = d' := by
  have hlist := congrArg String.toList h
  simp only [String.toList_append] at hlist
  exact String.toList_injective (List.append_cancel_left hlist)

theorem matches_wildcard_iff {d host : String} :
    Matches ("*." ++ d) host ↔ ∃ p, host = p ++ "." ++ d := by
  constructor
  · intro h
    generalize hentry : "*." ++ d = entry at h
    cases h with
    | exact hplain => exact absurd hentry.symm (hplain d)
    | wildcard d' p =>
      obtain rfl := wildcard_injective hentry
      exact ⟨p, rfl⟩
  · rintro ⟨p, rfl⟩
    exact .wildcard d p

theorem matches_plain_iff {entry host : String} (h : ∀ d, entry ≠ "*." ++ d) :
    Matches entry host ↔ host = entry := by
  constructor
  · intro hmatches
    cases hmatches with
    | exact => rfl
    | wildcard d p => exact absurd rfl (h d)
  · rintro rfl
    exact .exact h

/-- The domain itself is not matched. -/
theorem not_matches_self (d : String) : ¬Matches ("*." ++ d) d := by
  rw [matches_wildcard_iff]
  rintro ⟨p, h⟩
  have hlength := congrArg (·.toList.length) h
  simp at hlength
  omega

/-- A host that ends in the letters of the domain is matched only if a dot stands before them. -/
theorem matches_letters_iff {d q : String} : Matches ("*." ++ d) (q ++ d) ↔ ∃ p, q = p ++ "." := by
  rw [matches_wildcard_iff]
  refine exists_congr fun p => ⟨fun h => ?_, fun h => by rw [h]⟩
  have hlist := congrArg String.toList h
  simp only [String.toList_append] at hlist
  refine String.toList_injective ?_
  rw [String.toList_append]
  exact List.append_cancel_right hlist

theorem labelSequence_of_append {p d : String} (h : LabelSequence (p ++ "." ++ d)) :
    LabelSequence p := by
  intro label hlabel
  refine h label ?_
  have hsplit : (p ++ "." ++ d).toList.splitOn '.' =
      p.toList.splitOn '.' ++ d.toList.splitOn '.' := by
    have hlist : (p ++ "." ++ d).toList = p.toList ++ '.' :: d.toList := by
      simp [String.toList_append]
    rw [hlist]
    exact List.splitOnP_append_cons _ _ (by simp)
  rw [hsplit]
  exact List.mem_append_left _ hlabel

/-- Of the hosts without empty labels, a wildcard matches those with labels before its domain. -/
theorem matches_labels_iff {d host : String} (h : LabelSequence host) :
    Matches ("*." ++ d) host ↔ ∃ p, LabelSequence p ∧ host = p ++ "." ++ d := by
  rw [matches_wildcard_iff]
  constructor
  · rintro ⟨p, rfl⟩
    exact ⟨p, labelSequence_of_append h, rfl⟩
  · rintro ⟨p, -, rfl⟩
    exact ⟨p, rfl⟩

/-- What one entry adds to the hosts of the list. -/
theorem contains_addHost (allow : AllowList IpNet) (entry host : String) :
    (allow.addHost entry).contains host = true ↔
      allow.contains host = true ∨ Matches entry host := by
  unfold AllowList.addHost
  cases hstrip : Str.stripPrefix entry "*." with
  | some d =>
    obtain rfl := Str.stripPrefix_eq_some.1 hstrip
    have hdomain : Matches ("*." ++ d) host ↔ Str.endsWith host ("." ++ d) = true := by
      simp only [matches_wildcard_iff, Str.endsWith_iff, String.append_assoc]
    rw [hdomain]
    simp [AllowList.contains, or_assoc]
  | none =>
    have hplain (d : String) : entry ≠ "*." ++ d := by
      intro hentry
      rw [Str.stripPrefix_eq_some.2 hentry] at hstrip
      cases hstrip
    rw [matches_plain_iff hplain]
    simp [AllowList.contains, or_right_comm]

theorem contains_foldl_addHost (hosts : List String) (allow : AllowList IpNet) (host : String) :
    (hosts.foldl AllowList.addHost allow).contains host = true ↔
      allow.contains host = true ∨ ∃ entry ∈ hosts, Matches entry host := by
  induction hosts generalizing allow with
  | nil => simp
  | cons entry hosts ih =>
    rw [List.foldl_cons, ih, contains_addHost]
    simp [or_assoc]

/-- A list that was built from entries contains the hosts that one of them matches. -/
theorem contains_fromStringsAndCidrs {D : Deps IpNet} {provider : String}
    {hosts cidrs : List String} {allow : AllowList IpNet}
    (h : AllowList.fromStringsAndCidrs D provider hosts cidrs = .ok allow) (host : String) :
    allow.contains host = true ↔ ∃ entry ∈ hosts, Matches entry host := by
  obtain ⟨nets, -, h⟩ := bind_eq_ok.1 h
  obtain rfl := Except.ok.inj h
  refine (contains_foldl_addHost hosts {} host).trans (or_iff_right ?_)
  simp [AllowList.contains]

/-- The blocked addresses are those of the ranges, and a list that was built from entries contains
the hosts that one of them matches. The domain of a wildcard and the other hosts that end in its
letters are not among them. -/
theorem AllowList.guard_iff {D : Deps IpNet} {provider : String} {hosts cidrs : List String}
    {allow : AllowList IpNet} (h : fromStringsAndCidrs D provider hosts cidrs = .ok allow) :
    ((∀ a : Ipv4Addr, isBlockedIp (.v4 a) = true ↔ InBlockedV4 a.toNat) ∧
      (∀ a : Ipv6Addr, isBlockedIp (.v6 a) = true ↔
        InBlockedV6 a.toNat ∨ IsMapped a.toNat ∧ InBlockedV4 (a.toNat % 2 ^ 32)) ∧
      ∀ (a : Ipv4Addr) (b : Ipv6Addr), b.toNat = 0xffff * 2 ^ 32 + a.toNat →
        isBlockedIp (.v6 b) = isBlockedIp (.v4 a)) ∧
    (∀ host, allow.contains host = true ↔ ∃ entry ∈ hosts, Matches entry host) ∧
    ∀ d : String, (∀ host, Matches ("*." ++ d) host ↔ ∃ p, host = p ++ "." ++ d) ∧
      (∀ host, LabelSequence host →
        (Matches ("*." ++ d) host ↔ ∃ p, LabelSequence p ∧ host = p ++ "." ++ d)) ∧
      ¬Matches ("*." ++ d) d ∧ ∀ q, Matches ("*." ++ d) (q ++ d) ↔ ∃ p, q = p ++ "." := by
  have hv6 (a : Ipv6Addr) : isBlockedIp (.v6 a) = true ↔
      InBlockedV6 a.toNat ∨ IsMapped a.toNat ∧ InBlockedV4 (a.toNat % 2 ^ 32) :=
    (isBlockedV6_iff a).trans (or_congr_right (mapped_blocked_iff a))
  refine ⟨⟨isBlockedV4_iff, hv6, fun a b => isBlockedIp_mapped⟩,
    contains_fromStringsAndCidrs h, fun d => ?_⟩
  refine ⟨fun host => matches_wildcard_iff, fun host => matches_labels_iff, not_matches_self d, ?_⟩
  intro q
  exact matches_letters_iff

namespace Sample

def corpHosts : List String := ["*.internal.corp", "registry.corp"]

def corpAllow : AllowList Empty := { exact := ["registry.corp"], suffixes := [".internal.corp"] }

theorem corpAllow_guard :
    (isBlockedIp (.v4 ⟨169, 254, 169, 254⟩) = true ↔ InBlockedV4 (169 * 2 ^ 24 + 254 * 2 ^ 16 +
      169 * 2 ^ 8 + 254)) ∧
    (corpAllow.contains "a.internal.corp" = true ↔
      ∃ entry ∈ corpHosts, Matches entry "a.internal.corp") := by
  have hbuilt : AllowList.fromStringsAndCidrs deps "bedrock" corpHosts [] = .ok corpAllow := by
    rfl
  have hguard := AllowList.guard_iff hbuilt
  exact ⟨hguard.1.1 ⟨169, 254, 169, 254⟩, hguard.2.1 "a.internal.corp"⟩

/-- A host with nothing before the suffix is matched. -/
theorem suffix_alone_matched : ¬∀ (hosts : List String) (allow : AllowList Empty) (host : String),
    AllowList.fromStringsAndCidrs deps "bedrock" hosts [] = .ok allow →
    (allow.contains host = true ↔ ∃ entry ∈ hosts, (∃ d p, entry = "*." ++ d ∧ LabelSequence p ∧
      host = p ++ "." ++ d) ∨ (∀ d, entry ≠ "*." ++ d) ∧ host = entry) := by
  intro hclaim
  have hbuilt : AllowList.fromStringsAndCidrs deps "bedrock" ["*.internal.corp"] [] =
      .ok { suffixes := [".internal.corp"] } := by rfl
  have hcontains : (AllowList.mk [] [".internal.corp"] [] : AllowList Empty).contains
      ".internal.corp" = true := by decide +kernel
  obtain ⟨entry, hentry, hmatch⟩ := (hclaim _ _ _ hbuilt).1 hcontains
  obtain rfl := List.mem_singleton.1 hentry
  rcases hmatch with ⟨d, p, hd, hp, hhost⟩ | ⟨hplain, -⟩
  · obtain rfl : "internal.corp" = d := wildcard_injective hd
    have hnothing : "" = p := by
      apply String.toList_injective
      have hlist : ".internal.corp".toList = (p ++ "." ++ "internal.corp").toList := by rw [← hhost]
      rw [String.append_assoc, String.toList_append] at hlist
      exact List.append_cancel_right hlist
    subst hnothing
    exact hp [] (by simp) rfl
  · exact hplain "internal.corp" rfl

end Sample

end Tako.UrlPrefetch
