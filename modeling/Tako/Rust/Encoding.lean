/-!
# Text encodings of bytes

`hex::encode` and `hex::decode`, and `base64`'s `STANDARD` in both directions: padded, with no other
characters between.
-/

namespace Tako.Encoding

def hexDigit? (c : Char) : Option Nat :=
  if '0' ≤ c ∧ c ≤ '9' then some (c.toNat - '0'.toNat)
  else if 'a' ≤ c ∧ c ≤ 'f' then some (c.toNat - 'a'.toNat + 10)
  else if 'A' ≤ c ∧ c ≤ 'F' then some (c.toNat - 'A'.toNat + 10)
  else none

def hexPairs (position : Nat) : List Char → Except String (List UInt8)
  | [] => .ok []
  | [_] => .error "Odd number of digits"
  | c :: d :: rest =>
    match hexDigit? c, hexDigit? d with
    | none, _ => .error s!"Invalid character {c} at position {position}"
    | _, none => .error s!"Invalid character {d} at position {position + 1}"
    | some x, some y => do
      let bytes ← hexPairs (position + 2) rest
      .ok (UInt8.ofNat (16 * x + y) :: bytes)

def hexDecode (s : String) : Except String (List UInt8) :=
  if s.toList.length % 2 = 1 then .error "Odd number of digits" else hexPairs 0 s.toList

/-- The value of a symbol of the standard alphabet. -/
def b64Symbol? (c : Char) : Option Nat :=
  if 'A' ≤ c ∧ c ≤ 'Z' then some (c.toNat - 'A'.toNat)
  else if 'a' ≤ c ∧ c ≤ 'z' then some (c.toNat - 'a'.toNat + 26)
  else if '0' ≤ c ∧ c ≤ '9' then some (c.toNat - '0'.toNat + 52)
  else if c = '+' then some 62
  else if c = '/' then some 63
  else none

/-- Groups of four symbols. Padding ends the text, and the bits that it leaves over are zero. -/
def b64Groups : List Char → Except String (List UInt8)
  | [] => .ok []
  | [a, b, '=', '='] =>
    match b64Symbol? a, b64Symbol? b with
    | some w, some x =>
      if x % 16 = 0 then .ok [UInt8.ofNat (4 * w + x / 16)] else .error "Invalid last symbol"
    | _, _ => .error "Invalid symbol"
  | [a, b, c, '='] =>
    match b64Symbol? a, b64Symbol? b, b64Symbol? c with
    | some w, some x, some y =>
      if y % 4 = 0 then
        .ok [UInt8.ofNat (4 * w + x / 16), UInt8.ofNat (x % 16 * 16 + y / 4)]
      else .error "Invalid last symbol"
    | _, _, _ => .error "Invalid symbol"
  | a :: b :: c :: d :: rest =>
    match b64Symbol? a, b64Symbol? b, b64Symbol? c, b64Symbol? d with
    | some w, some x, some y, some z => do
      let bytes ← b64Groups rest
      .ok (UInt8.ofNat (4 * w + x / 16) :: UInt8.ofNat (x % 16 * 16 + y / 4) ::
        UInt8.ofNat (y % 4 * 64 + z) :: bytes)
    | _, _, _, _ => .error "Invalid symbol"
  | _ => .error "Invalid padding"

def b64Decode (s : String) : Except String (List UInt8) := b64Groups s.toList

example : b64Decode "dGFrbw==" = .ok [0x74, 0x61, 0x6b, 0x6f] := rfl

/-! ## Encoding -/

/-- The symbol of a value below 64. -/
def b64Char (n : Nat) : Char :=
  if n < 26 then Char.ofNat ('A'.toNat + n)
  else if n < 52 then Char.ofNat ('a'.toNat + (n - 26))
  else if n < 62 then Char.ofNat ('0'.toNat + (n - 52))
  else if n = 62 then '+'
  else '/'

def b64EncodeGroups : List UInt8 → List Char
  | [] => []
  | [a] => [b64Char (a.toNat / 4), b64Char (a.toNat % 4 * 16), '=', '=']
  | [a, b] =>
    [b64Char (a.toNat / 4), b64Char (a.toNat % 4 * 16 + b.toNat / 16), b64Char (b.toNat % 16 * 4),
      '=']
  | a :: b :: c :: rest =>
    b64Char (a.toNat / 4) :: b64Char (a.toNat % 4 * 16 + b.toNat / 16) ::
      b64Char (b.toNat % 16 * 4 + c.toNat / 64) :: b64Char (c.toNat % 64) :: b64EncodeGroups rest

def b64Encode (bytes : List UInt8) : String := String.ofList (b64EncodeGroups bytes)

theorem b64Symbol?_b64Char {n : Nat} (h : n < 64) : b64Symbol? (b64Char n) = some n := by
  have hall : ∀ n < 64, b64Symbol? (b64Char n) = some n := by decide
  exact hall n h

theorem b64Char_ne_pad {n : Nat} (h : n < 64) : b64Char n ≠ '=' := by
  intro hpad
  have hsymbol := b64Symbol?_b64Char h
  rw [hpad] at hsymbol
  cases hsymbol

theorem b64Groups_cons {w x y z : Nat} (hw : w < 64) (hx : x < 64) (hy : y < 64) (hz : z < 64)
    (rest : List Char) :
    b64Groups (b64Char w :: b64Char x :: b64Char y :: b64Char z :: rest) =
      (b64Groups rest).map fun bytes =>
        UInt8.ofNat (4 * w + x / 16) :: UInt8.ofNat (x % 16 * 16 + y / 4) ::
          UInt8.ofNat (y % 4 * 64 + z) :: bytes := by
  rw [b64Groups]
  · simp only [b64Symbol?_b64Char hw, b64Symbol?_b64Char hx, b64Symbol?_b64Char hy,
      b64Symbol?_b64Char hz]
    cases b64Groups rest <;> rfl
  · intro _ hpad
    exact absurd hpad (b64Char_ne_pad hz)
  · intro hpad
    exact absurd hpad (b64Char_ne_pad hz)

theorem ofNat_eq {n : Nat} {b : UInt8} (h : n = b.toNat) : UInt8.ofNat n = b := by
  rw [h, UInt8.ofNat_toNat]

theorem b64Groups_b64EncodeGroups (bytes : List UInt8) :
    b64Groups (b64EncodeGroups bytes) = .ok bytes := by
  induction bytes using b64EncodeGroups.induct with
  | case1 => rfl
  | case2 a =>
    have ha := a.toNat_lt
    have hw := b64Symbol?_b64Char (n := a.toNat / 4) (by omega)
    have hx := b64Symbol?_b64Char (n := a.toNat % 4 * 16) (by omega)
    have hleft : a.toNat % 4 * 16 % 16 = 0 := by omega
    rw [b64EncodeGroups, b64Groups]
    simp only [hw, hx, hleft, if_true]
    rw [ofNat_eq (b := a) (by omega)]
  | case3 a b =>
    have ha := a.toNat_lt
    have hb := b.toNat_lt
    have hw := b64Symbol?_b64Char (n := a.toNat / 4) (by omega)
    have hx := b64Symbol?_b64Char (n := a.toNat % 4 * 16 + b.toNat / 16) (by omega)
    have hy := b64Symbol?_b64Char (n := b.toNat % 16 * 4) (by omega)
    have hne := b64Char_ne_pad (n := b.toNat % 16 * 4) (by omega)
    have hleft : b.toNat % 16 * 4 % 4 = 0 := by omega
    rw [b64EncodeGroups, b64Groups]
    · simp only [hw, hx, hy, hleft, if_true]
      rw [ofNat_eq (b := a) (by omega), ofNat_eq (b := b) (by omega)]
    · exact hne
  | case4 a b c rest ih =>
    have ha := a.toNat_lt
    have hb := b.toNat_lt
    have hc := c.toNat_lt
    rw [b64EncodeGroups, b64Groups_cons (by omega) (by omega) (by omega) (by omega), ih]
    rw [Except.map, ofNat_eq (b := a) (by omega), ofNat_eq (b := b) (by omega),
      ofNat_eq (b := c) (by omega)]

/-- What has been encoded is decoded. -/
theorem b64Decode_b64Encode (bytes : List UInt8) : b64Decode (b64Encode bytes) = .ok bytes := by
  rw [b64Decode, b64Encode, String.toList_ofList]
  exact b64Groups_b64EncodeGroups bytes

example : b64Encode [0x74, 0x61, 0x6b, 0x6f] = "dGFrbw==" := by decide

/-! ## Symbols -/

/-- The range of the symbols of both encodings, in which the hyphen is none. -/
def IsSymbol (c : Char) : Prop := (0x2b ≤ c.toNat ∧ c.toNat ≤ 0x7a) ∧ c ≠ '-'

instance (c : Char) : Decidable (IsSymbol c) := inferInstanceAs (Decidable (_ ∧ _))

theorem b64Char_isSymbol {n : Nat} (h : n < 64) : IsSymbol (b64Char n) := by
  have hall : ∀ n < 64, IsSymbol (b64Char n) := by decide
  exact hall n h

theorem isSymbol_of_mem_b64EncodeGroups {bytes : List UInt8} (h : c ∈ b64EncodeGroups bytes) :
    IsSymbol c := by
  have hpad : IsSymbol '=' := by decide
  induction bytes using b64EncodeGroups.induct with
  | case1 => cases h
  | case2 a =>
    have ha := a.toNat_lt
    simp only [b64EncodeGroups, List.mem_cons, List.not_mem_nil, or_false] at h
    rcases h with rfl | rfl | rfl | rfl
    · exact b64Char_isSymbol (by omega)
    · exact b64Char_isSymbol (by omega)
    · exact hpad
    · exact hpad
  | case3 a b =>
    have ha := a.toNat_lt
    have hb := b.toNat_lt
    simp only [b64EncodeGroups, List.mem_cons, List.not_mem_nil, or_false] at h
    rcases h with rfl | rfl | rfl | rfl
    · exact b64Char_isSymbol (by omega)
    · exact b64Char_isSymbol (by omega)
    · exact b64Char_isSymbol (by omega)
    · exact hpad
  | case4 a b d rest ih =>
    have ha := a.toNat_lt
    have hb := b.toNat_lt
    have hd := d.toNat_lt
    simp only [b64EncodeGroups, List.mem_cons] at h
    rcases h with rfl | rfl | rfl | rfl | h
    · exact b64Char_isSymbol (by omega)
    · exact b64Char_isSymbol (by omega)
    · exact b64Char_isSymbol (by omega)
    · exact b64Char_isSymbol (by omega)
    · exact ih h

theorem isSymbol_of_mem_b64Encode {bytes : List UInt8} (h : c ∈ (b64Encode bytes).toList) :
    IsSymbol c := by
  rw [b64Encode, String.toList_ofList] at h
  exact isSymbol_of_mem_b64EncodeGroups h

/-! ## Hexadecimal digits -/

def hexPair (b : UInt8) : List Char :=
  [Nat.digitChar (b.toNat / 16), Nat.digitChar (b.toNat % 16)]

/-- `hex::encode`. -/
def hexEncode (bytes : List UInt8) : String := String.ofList (bytes.flatMap hexPair)

theorem digitChar_spec {n : Nat} (h : n < 16) :
    hexDigit? (Nat.digitChar n) = some n ∧ IsSymbol (Nat.digitChar n) := by
  have hall : ∀ n < 16, hexDigit? (Nat.digitChar n) = some n ∧ IsSymbol (Nat.digitChar n) := by
    decide
  exact hall n h

theorem isSymbol_of_mem_hexEncode {bytes : List UInt8} (h : c ∈ (hexEncode bytes).toList) :
    IsSymbol c := by
  rw [hexEncode, String.toList_ofList, List.mem_flatMap] at h
  obtain ⟨b, -, h⟩ := h
  have hb := b.toNat_lt
  simp only [hexPair, List.mem_cons, List.not_mem_nil, or_false] at h
  rcases h with rfl | rfl
  · exact (digitChar_spec (by omega)).2
  · exact (digitChar_spec (by omega)).2

theorem hexPairs_flatMap (position : Nat) (bytes : List UInt8) :
    hexPairs position (bytes.flatMap hexPair) = .ok bytes := by
  induction bytes generalizing position with
  | nil => rfl
  | cons b bytes ih =>
    have hb := b.toNat_lt
    have hhigh := (digitChar_spec (n := b.toNat / 16) (by omega)).1
    have hlow := (digitChar_spec (n := b.toNat % 16) (by omega)).1
    have hbyte : UInt8.ofNat (16 * (b.toNat / 16) + b.toNat % 16) = b := ofNat_eq (by omega)
    rw [List.flatMap_cons, hexPair, List.cons_append, List.singleton_append, hexPairs]
    simp only [hhigh, hlow, ih, hbyte]
    rfl

theorem hexDecode_hexEncode (bytes : List UInt8) : hexDecode (hexEncode bytes) = .ok bytes := by
  have hlen : (bytes.flatMap hexPair).length = 2 * bytes.length := by
    induction bytes with
    | nil => rfl
    | cons b bytes ih =>
      rw [List.flatMap_cons, List.length_append, ih, List.length_cons, hexPair]
      simp only [List.length_cons, List.length_nil]
      omega
  rw [hexDecode, hexEncode, String.toList_ofList, hlen, if_neg (by omega), hexPairs_flatMap]

end Tako.Encoding
