import Tako.Mcp.JsonRpc
import Tako.Rust.Encoding
import Tako.Theory.SelfDelimiting

/-!
# The text of a JSON value has one reading

The compact text that `serde_json` writes is read off any text that begins with it and goes on with
a character that is not part of a number (`text_separates`). A float is not printed as another
number is.
-/

namespace Tako

open SelfDelimiting

/-! ## Numbers that there are -/

/-- The exponent is not all ones: the float is not infinite and not a NaN. -/
def isFinite (bits : UInt64) : Bool := (bits >>> 52) &&& 0x7ff != 0x7ff

/-- A `Number` is built in no other way: an integer has one form, and a float is finite. -/
def JsonNumber.Valid : JsonNumber → Prop
  | .posInt _ => True
  | .negInt n => n < 0
  | .float bits => isFinite bits = true

/-- All numbers in a value are valid. -/
inductive Json.Valid : Json → Prop
  | null : Valid .null
  | bool (b : Bool) : Valid (.bool b)
  | number (n : JsonNumber) (h : n.Valid) : Valid (.number n)
  | string (s : String) : Valid (.string s)
  | array (items : List Json) (h : ∀ v ∈ items, Valid v) : Valid (.array items)
  | object (members : List (String × Json)) (h : ∀ e ∈ members, Valid e.2) :
    Valid (.object members)

namespace Mcp.Serde

def numberChars : List Char :=
  ['0', '1', '2', '3', '4', '5', '6', '7', '8', '9', '+', '-', '.', 'e']

def isNumberChar (c : Char) : Bool := numberChars.contains c

/-- How finite floats are printed: with the characters of numbers, with a point or an exponent, and
no two alike. -/
structure FloatTexts (float : UInt64 → String) : Prop where
  chars : ∀ bits, isFinite bits = true → ∀ c ∈ (float bits).toList, isNumberChar c = true
  marked : ∀ bits, isFinite bits = true → ∃ c ∈ (float bits).toList, c = '.' ∨ c = 'e'
  injective : ∀ bits bits', isFinite bits = true → isFinite bits' = true →
    float bits = float bits' → bits = bits'

/-! ## Strings -/

/-- The character that an escape stands for, after the backslash. -/
def readEscape : List Char → Option (Char × List Char)
  | 'b' :: r => some (Char.ofNat 0x08, r)
  | 't' :: r => some (Char.ofNat 0x09, r)
  | 'n' :: r => some (Char.ofNat 0x0a, r)
  | 'f' :: r => some (Char.ofNat 0x0c, r)
  | 'r' :: r => some (Char.ofNat 0x0d, r)
  | 'u' :: '0' :: '0' :: h :: l :: r =>
    match Encoding.hexDigit? h, Encoding.hexDigit? l with
    | some h, some l => some (Char.ofNat (16 * h + l), r)
    | _, _ => none
  | c :: r => some (c, r)
  | [] => none

/-- The first character of a string literal's inside. -/
def readChar : List Char → Option (Char × List Char)
  | [] => none
  | c :: r => if c = '\\' then readEscape r else some (c, r)

theorem hexDigit?_digitChar {n : Nat} (h : n < 16) :
    Encoding.hexDigit? (Nat.digitChar n) = some n := by
  decide +revert

theorem eq_ofNat {c : Char} {n : Nat} (h : c.toNat = n) : c = Char.ofNat n := by
  rw [← h, Char.ofNat_toNat]

theorem readChar_escape (c : Char) (r : List Char) :
    readChar ((escape c).toList ++ r) = some (c, r) := by
  unfold escape
  split
  case isTrue h => rw [eq_ofNat h]; rfl
  split
  case isTrue h => rw [eq_ofNat h]; rfl
  split
  case isTrue h => rw [eq_ofNat h]; rfl
  split
  case isTrue h => rw [eq_ofNat h]; rfl
  split
  case isTrue h => rw [eq_ofNat h]; rfl
  split
  case isTrue h => rw [eq_ofNat h]; rfl
  split
  case isTrue h => rw [eq_ofNat h]; rfl
  split
  case isTrue hcontrol =>
    have hhigh := hexDigit?_digitChar (n := c.toNat / 16) (by omega)
    have hlow := hexDigit?_digitChar (n := c.toNat % 16) (by omega)
    have hnat : 16 * (c.toNat / 16) + c.toNat % 16 = c.toNat := by omega
    rw [String.toList_append, String.toList_ofList]
    simp [readChar, readEscape, hhigh, hlow, hnat]
  case isFalse hslash _ _ _ _ _ _ =>
    have hne : c ≠ '\\' := by
      rintro rfl
      exact hslash rfl
    rw [Char.toString_eq_singleton, String.toList_singleton]
    simp [readChar, hne]

/-- No character is written as a quotation mark first. -/
theorem escape_starts : Starts (· ≠ '"') (fun _ => True) fun c => (escape c).toList := by
  intro c _
  have hread := readChar_escape c []
  rw [List.append_nil] at hread
  cases hcode : (escape c).toList with
  | nil =>
    rw [hcode] at hread
    cases hread
  | cons d rest =>
    refine ⟨d, rest, hcode, ?_⟩
    rintro rfl
    -- a quotation mark reads as itself, and its own code begins with a backslash
    rw [hcode] at hread
    obtain rfl : '"' = c := (Prod.mk.inj (Option.some.inj hread)).1
    exact absurd hcode (by simp [escape])

theorem toList_quote (s : String) :
    (quote s).toList = '"' :: (s.toList.flatMap (fun c => (escape c).toList) ++ ['"']) := by
  simp [quote, List.flatMap_map]

/-- A string literal ends where it is closed. -/
theorem quote_separates (s : String) :
    Separates (fun _ => True) (fun _ => True) (fun s => (quote s).toList) s := by
  intro t r r' _ _ _ h
  have hends : ∀ u, Stops (fun c => True ∧ ¬c ≠ '"') ('"' :: u) := fun u => by simp
  simp only [toList_quote, List.cons_append, List.append_assoc, List.cons.injEq, true_and,
    List.nil_append] at h
  obtain ⟨hst, hrest⟩ := Separates.flatMap escape_starts (fun _ _ => trivial)
    (fun c _ => ⟨trivial, .of_read readChar readChar_escape c⟩) (fun _ _ => trivial)
    (hends r) (hends r') h
  exact ⟨String.toList_inj.1 hst, (List.cons.inj hrest).2⟩

/-! ## Numbers -/

variable {serde : Serde} {n n' : JsonNumber}

theorem isNumberChar_of_isDigit {c : Char} (h : c.isDigit = true) : isNumberChar c = true := by
  have hall : ∀ n < 58, 48 ≤ n → isNumberChar (Char.ofNat n) = true := by decide
  simp only [Char.isDigit, Bool.and_eq_true, decide_eq_true_eq, ge_iff_le, UInt32.le_iff_toNat_le]
    at h
  rw [← Char.ofNat_toNat c]
  exact hall c.toNat (Nat.lt_succ_of_le h.2) h.1

theorem repr_injective {n m : Nat} (h : n.repr = m.repr) : n = m := by
  have hdigits := congrArg String.toList h
  rw [Nat.toList_repr, Nat.toList_repr] at hdigits
  rw [← Nat.ofDigitChars_ten_toDigits (n := n), hdigits, Nat.ofDigitChars_ten_toDigits]

theorem mem_repr {n : Nat} {c : Char} (h : c ∈ n.repr.toList) : c.isDigit = true := by
  rw [Nat.toList_repr] at h
  exact Nat.isDigit_of_mem_toDigits (by decide) (by decide) h

theorem number_chars (hf : FloatTexts serde.float) (hn : n.Valid) :
    ∀ c ∈ (serde.number n).toList, isNumberChar c = true := by
  intro c hc
  cases n with
  | posInt n => exact isNumberChar_of_isDigit (mem_repr hc)
  | negInt n =>
    rw [number, String.toList_append] at hc
    rcases List.mem_append.1 hc with hc | hc
    · rw [List.mem_singleton.1 hc]
      rfl
    · exact isNumberChar_of_isDigit (mem_repr hc)
  | float bits => exact hf.chars bits hn c hc

/-- No integer is printed with a point or an exponent. -/
theorem repr_ne_float (hf : FloatTexts serde.float) (hbits : isFinite bits = true) (n : Nat) :
    serde.float bits ≠ n.repr ∧ serde.float bits ≠ "-" ++ n.repr := by
  obtain ⟨c, hc, hmark⟩ := hf.marked bits hbits
  have hdigit : c.isDigit = false := by
    rcases hmark with rfl | rfl
    · rfl
    · rfl
  have hminus : c ≠ '-' := by
    rcases hmark with rfl | rfl
    · decide
    · decide
  constructor
  · intro h
    rw [h] at hc
    rw [mem_repr hc] at hdigit
    cases hdigit
  · intro h
    rw [h, String.toList_append] at hc
    rcases List.mem_append.1 hc with hc | hc
    · exact hminus (List.mem_singleton.1 hc)
    · rw [mem_repr hc] at hdigit
      cases hdigit

theorem repr_ne_neg (n m : Nat) : n.repr ≠ "-" ++ m.repr := by
  intro h
  have hmem : '-' ∈ n.repr.toList := by simp [h]
  exact absurd (mem_repr hmem) (by decide)

theorem number_injective (hf : FloatTexts serde.float) (hn : n.Valid) (hn' : n'.Valid)
    (h : serde.number n = serde.number n') : n = n' := by
  cases n with
  | posInt n =>
    cases n' with
    | posInt m => rw [repr_injective h]
    | negInt m => exact absurd h (repr_ne_neg n _)
    | float bits => exact absurd h.symm (repr_ne_float hf hn' n).1
  | negInt n =>
    cases n' with
    | posInt m => exact absurd h.symm (repr_ne_neg m _)
    | negInt m =>
      have habs : n.natAbs = m.natAbs := repr_injective (String.append_right_inj _ |>.1 h)
      have hneg : n < 0 := hn
      have hneg' : m < 0 := hn'
      rw [show n = m by omega]
    | float bits => exact absurd h.symm (repr_ne_float hf hn' _).2
  | float bits =>
    cases n' with
    | posInt m => exact absurd h (repr_ne_float hf hn m).1
    | negInt m => exact absurd h (repr_ne_float hf hn _).2
    | float bits' => rw [hf.injective bits bits' hn hn' h]

theorem number_ne_empty (hf : FloatTexts serde.float) (hn : n.Valid) :
    (serde.number n).toList ≠ [] := by
  cases n with
  | posInt n => simp [number, Nat.toDigits_ne_nil]
  | negInt n => simp [number]
  | float bits =>
    obtain ⟨c, hc, -⟩ := hf.marked bits hn
    exact List.ne_nil_of_mem hc

/-! ## Values -/

/-- The characters of a value's text. -/
def code (serde : Serde) (v : Json) : List Char := (serde.text v).toList

def memberCode (serde : Serde) (e : String × Json) : List Char :=
  (quote e.1).toList ++ ':' :: serde.code e.2

theorem texts_eq_map (items : List Json) : serde.texts items = items.map serde.text := by
  induction items with
  | nil => rfl
  | cons v items ih => rw [texts, List.map_cons, ih]

theorem memberTexts_eq_map (members : List (String × Json)) :
    serde.memberTexts members = members.map fun e => quote e.1 ++ ":" ++ serde.text e.2 := by
  induction members with
  | nil => rfl
  | cons e members ih => rw [memberTexts, List.map_cons, ih]

theorem code_array (items : List Json) :
    serde.code (.array items) = '[' :: ([','].intercalate (items.map serde.code) ++ [']']) := by
  rw [code, text, texts_eq_map, String.toList_append, String.toList_append,
    String.toList_intercalate, List.map_map]
  rfl

theorem code_object (members : List (String × Json)) :
    serde.code (.object members) =
      '\x7b' :: ([','].intercalate (members.map serde.memberCode) ++ ['\x7d']) := by
  have hmember : (String.toList ∘ fun e : String × Json => quote e.1 ++ ":" ++ serde.text e.2) =
      serde.memberCode := by
    funext e
    simp [memberCode, code]
  rw [code, text, memberTexts_eq_map, String.toList_append, String.toList_append,
    String.toList_intercalate, List.map_map, hmember]
  rfl

inductive Kind where
  | null
  | bool
  | number
  | string
  | array
  | object
  deriving DecidableEq

def kind : Json → Kind
  | .null => .null
  | .bool _ => .bool
  | .number _ => .number
  | .string _ => .string
  | .array _ => .array
  | .object _ => .object

/-- The kind of the values whose text begins with a character. -/
def kindOf? (c : Char) : Option Kind :=
  if c = 'n' then some .null
  else if c = 't' ∨ c = 'f' then some .bool
  else if c = '"' then some .string
  else if c = '[' then some .array
  else if c = '\x7b' then some .object
  else if isNumberChar c then some .number
  else none

theorem code_starts (hf : FloatTexts serde.float) {v : Json} (hv : v.Valid) :
    ∃ c rest, serde.code v = c :: rest ∧ kindOf? c = some (kind v) := by
  cases hv with
  | null => exact ⟨'n', "ull".toList, by simp [code, text], rfl⟩
  | bool b =>
    cases b with
    | false => exact ⟨'f', "alse".toList, by simp [code, text], rfl⟩
    | true => exact ⟨'t', "rue".toList, by simp [code, text], rfl⟩
  | number n hn =>
    cases hcode : (serde.number n).toList with
    | nil => exact absurd hcode (number_ne_empty hf hn)
    | cons c rest =>
      refine ⟨c, rest, by rw [code, text, hcode], ?_⟩
      have hc : isNumberChar c = true := number_chars hf hn c (hcode ▸ List.mem_cons_self)
      have hall : ∀ c ∈ numberChars, kindOf? c = some .number := by
        simp [numberChars, kindOf?, isNumberChar]
      exact hall c (List.contains_iff_mem.1 hc)
  | string s =>
    have hquote : serde.code (.string s) = _ := toList_quote s
    exact ⟨_, _, hquote, rfl⟩
  | array items h => exact ⟨_, _, code_array items, rfl⟩
  | object members h => exact ⟨_, _, code_object members, rfl⟩

/-- Two values with texts at the front of one text are of one kind. -/
theorem kind_eq (hf : FloatTexts serde.float) {v w : Json} (hv : v.Valid) (hw : w.Valid)
    (h : serde.code v ++ r = serde.code w ++ s) : kind v = kind w := by
  obtain ⟨c, rest, hc, hkind⟩ := code_starts hf hv
  obtain ⟨d, rest', hd, hkind'⟩ := code_starts hf hw
  rw [hc, hd] at h
  rw [(List.cons.inj h).1, hkind'] at hkind
  exact (Option.some.inj hkind).symm

theorem code_starts_ne (hf : FloatTexts serde.float) {c : Char} (hc : kindOf? c = none) :
    Starts (· ≠ c) Json.Valid serde.code := by
  intro v hv
  obtain ⟨d, rest, hd, hkind⟩ := code_starts hf hv
  refine ⟨d, rest, hd, ?_⟩
  rintro rfl
  rw [hc] at hkind
  cases hkind

theorem memberCode_starts : Starts (· ≠ '\x7d') (Json.Valid ·.2) serde.memberCode := by
  intro e _
  refine ⟨'"', (e.1.toList.flatMap fun c => (escape c).toList) ++ ['"'] ++
    ':' :: serde.code e.2, ?_, by decide⟩
  rw [memberCode, toList_quote]
  rfl

theorem memberCode_separates {e : String × Json}
    (h : Separates (isNumberChar · = false) Json.Valid serde.code e.2) :
    Separates (isNumberChar · = false) (Json.Valid ·.2) serde.memberCode e := by
  intro e' r s he' hr hs heq
  rw [memberCode, memberCode, List.append_assoc, List.append_assoc] at heq
  obtain ⟨hkey, heq⟩ := quote_separates e.1 e'.1 _ _ trivial (fun _ _ => trivial)
    (fun _ _ => trivial) heq
  obtain ⟨hvalue, hrs⟩ := h e'.2 r s he' hr hs (List.cons.inj heq).2
  exact ⟨Prod.ext hkey hvalue, hrs⟩

/-- The text of a valid value has one reading, where it is not followed by a character of a
number. -/
theorem text_separates (hf : FloatTexts serde.float) {v : Json} (hv : v.Valid) :
    Separates (isNumberChar · = false) Json.Valid serde.code v := by
  induction hv with
  | null =>
    intro w r s hw hr hs h
    have hkind := kind_eq hf .null hw h
    cases hw <;> cases hkind
    exact ⟨rfl, List.append_cancel_left h⟩
  | bool b =>
    intro w r s hw hr hs h
    have hkind := kind_eq hf (.bool b) hw h
    cases hw <;> cases hkind
    case bool b' =>
      cases b <;> cases b' <;> simp [code, text] at h
      · exact ⟨rfl, h⟩
      · exact ⟨rfl, h⟩
  | number n hn =>
    intro w r s hw hr hs h
    have hkind := kind_eq hf (.number n hn) hw h
    cases hw <;> cases hkind
    case number n' hn' =>
      have hends : ∀ t, Stops (isNumberChar · = false) t → Stops (¬isNumberChar · = true) t :=
        fun t ht => ht.mono fun c hc => by simp [hc]
      obtain ⟨hcode, hrs⟩ := span_inj (number_chars hf hn) (number_chars hf hn') (hends r hr)
        (hends s hs) h
      rw [number_injective hf hn hn' (String.toList_inj.1 hcode)]
      exact ⟨rfl, hrs⟩
  | string str =>
    intro w r s hw hr hs h
    have hkind := kind_eq hf (.string str) hw h
    cases hw <;> cases hkind
    case string str' =>
      obtain ⟨rfl, hrs⟩ := quote_separates str str' r s trivial (fun _ _ => trivial)
        (fun _ _ => trivial) h
      exact ⟨rfl, hrs⟩
  | array items hitems ih =>
    intro w r s hw hr hs h
    have hkind := kind_eq hf (.array items hitems) hw h
    cases hw <;> cases hkind
    case array items' hitems' =>
      simp only [code_array, List.cons_append, List.append_assoc, List.cons.injEq, true_and,
        List.nil_append] at h
      obtain ⟨rfl, hrs⟩ := Separates.intercalate (by rfl) (by rfl) (by decide) (code_starts_ne hf rfl)
        (fun v hv => ⟨hitems v hv, ih v hv⟩) hitems' h
      exact ⟨rfl, hrs⟩
  | object members hmembers ih =>
    intro w r s hw hr hs h
    have hkind := kind_eq hf (.object members hmembers) hw h
    cases hw <;> cases hkind
    case object members' hmembers' =>
      simp only [code_object, List.cons_append, List.append_assoc, List.cons.injEq, true_and,
        List.nil_append] at h
      obtain ⟨rfl, hrs⟩ := Separates.intercalate (by rfl) (by rfl) (by decide) memberCode_starts
        (fun e he => ⟨hmembers e he, memberCode_separates (ih e he)⟩) hmembers' h
      exact ⟨rfl, hrs⟩

end Mcp.Serde

end Tako
