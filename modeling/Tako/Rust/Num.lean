import Mathlib.Tactic.Ring
import Tako.Theory.Result

/-!
# Decimal integers

`u64::to_string` and `str::parse::<u64>`.
-/

namespace Tako.Num

/-- `u64::to_string`. -/
def display (n : UInt64) : String := String.ofList (Nat.toDigits 10 n.toNat)

/-- The digit loop of `parse`: the first character that is no digit, or that overflows, fails it. -/
def parseDigits (acc : Nat) : List Char → Except String Nat
  | [] => .ok acc
  | c :: cs =>
    if c.isDigit then
      let acc := 10 * acc + (c.toNat - '0'.toNat)
      if acc < 2 ^ 64 then parseDigits acc cs
      else .error "number too large to fit in target type"
    else .error "invalid digit found in string"

/-- `str::parse::<u64>`, with the text of its `ParseIntError`. -/
def parseU64 (s : String) : Except String Nat :=
  match s.toList with
  | [] => .error "cannot parse integer from empty string"
  | ['+'] => .error "invalid digit found in string"
  | '+' :: cs => parseDigits 0 cs
  | cs => parseDigits 0 cs

/-- The digits of `parse::<u8>`. -/
def parseByteDigits (acc : Nat) : List Char → Option Nat
  | [] => some acc
  | c :: cs =>
    if c.isDigit then
      let acc := 10 * acc + (c.toNat - '0'.toNat)
      if acc < 256 then parseByteDigits acc cs else none
    else none

/-- `str::parse::<u8>().ok()`. -/
def parseU8 (s : String) : Option Nat :=
  match s.toList with
  | [] | ['+'] => none
  | '+' :: cs => parseByteDigits 0 cs
  | cs => parseByteDigits 0 cs

/-- A text of digits. -/
def IsDecimal (s : String) : Prop := s.toList ≠ [] ∧ ∀ c ∈ s.toList, c.isDigit = true

instance (s : String) : Decidable (IsDecimal s) :=
  @instDecidableAnd _ _ (inferInstanceAs (Decidable (s.toList ≠ []))) (List.decidableBAll _ _)

/-- The number that a text of digits writes. -/
def value (s : String) : Nat := Nat.ofDigitChars 10 s.toList 0

theorem isDecimal_display (n : UInt64) : IsDecimal (display n) := by
  rw [IsDecimal, display, String.toList_ofList]
  exact ⟨Nat.toDigits_ne_nil, fun c hc => Nat.isDigit_of_mem_toDigits (by decide) (by decide) hc⟩

theorem value_display (n : UInt64) : value (display n) = n.toNat := by
  rw [value, display, String.toList_ofList]
  exact Nat.ofDigitChars_toDigits (by decide) (by decide)

theorem le_ofDigitChars (cs : List Char) (acc : Nat) : acc ≤ Nat.ofDigitChars 10 cs acc := by
  induction cs generalizing acc with
  | nil => simp
  | cons c cs ih =>
    rw [Nat.ofDigitChars_cons]
    exact le_trans (by omega) (ih _)

theorem parseDigits_eq_ok (h : ∀ c ∈ cs, c.isDigit = true)
    (hv : Nat.ofDigitChars 10 cs acc < 2 ^ 64) :
    parseDigits acc cs = .ok (Nat.ofDigitChars 10 cs acc) := by
  induction cs generalizing acc with
  | nil => simp [parseDigits]
  | cons c cs ih =>
    rw [Nat.ofDigitChars_cons] at hv ⊢
    have hacc := (le_ofDigitChars cs _).trans_lt hv
    rw [parseDigits, if_pos (h c List.mem_cons_self)]
    dsimp only
    rw [if_pos hacc]
    exact ih (fun d hd => h d (List.mem_cons_of_mem _ hd)) hv

/-- Digits that write a `u64` are parsed to it. -/
theorem parseU64_of_isDecimal (h : IsDecimal s) (hv : value s < 2 ^ 64) :
    parseU64 s = .ok (value s) := by
  obtain ⟨hne, hd⟩ := h
  unfold parseU64
  split
  · next hs => exact absurd hs hne
  · next hs => simp [hs, Char.isDigit] at hd
  · next hs => simp [hs, Char.isDigit] at hd
  · exact parseDigits_eq_ok hd hv

theorem parseByteDigits_eq_some (h : ∀ c ∈ cs, c.isDigit = true)
    (hv : Nat.ofDigitChars 10 cs acc < 256) :
    parseByteDigits acc cs = some (Nat.ofDigitChars 10 cs acc) := by
  induction cs generalizing acc with
  | nil => simp [parseByteDigits]
  | cons c cs ih =>
    rw [Nat.ofDigitChars_cons] at hv ⊢
    have hacc := (le_ofDigitChars cs _).trans_lt hv
    rw [parseByteDigits, if_pos (h c List.mem_cons_self)]
    dsimp only
    rw [if_pos hacc]
    exact ih (fun d hd => h d (List.mem_cons_of_mem _ hd)) hv

theorem parseByteDigits_lt (h : parseByteDigits acc cs = some n) (hacc : acc < 256) : n < 256 := by
  induction cs generalizing acc with
  | nil =>
    cases h
    exact hacc
  | cons c cs ih =>
    rw [parseByteDigits] at h
    split at h
    · dsimp only at h
      split at h
      · next hlt => exact ih h hlt
      · cases h
    · cases h

theorem parseU8_lt (h : parseU8 s = some n) : n < 256 := by
  unfold parseU8 at h
  split at h
  · cases h
  · cases h
  · exact parseByteDigits_lt h (by decide)
  · exact parseByteDigits_lt h (by decide)

theorem parseU8_repr {n : Nat} (h : n < 256) : parseU8 n.repr = some n := by
  have hdigit : ∀ c ∈ Nat.toDigits 10 n, c.isDigit = true := fun c hc =>
    Nat.isDigit_of_mem_toDigits (by decide) (by decide) hc
  have hvalue : Nat.ofDigitChars 10 (Nat.toDigits 10 n) 0 = n :=
    Nat.ofDigitChars_toDigits (by decide) (by decide)
  unfold parseU8
  rw [Nat.toList_repr]
  split
  · next hs => exact absurd hs Nat.toDigits_ne_nil
  · next hs => simp [hs, Char.isDigit] at hdigit
  · next hs => simp [hs, Char.isDigit] at hdigit
  · rw [parseByteDigits_eq_some hdigit (by rwa [hvalue]), hvalue]

end Tako.Num
