import Mathlib.Data.List.TakeWhile

/-!
# The standard library's `str`

The string methods that the modelled code calls, on lists of characters.
-/

namespace Tako.Str

/-- `char::is_whitespace`: the Unicode property `White_Space`. -/
def isWhitespace (c : Char) : Bool :=
  (0x09 ≤ c.toNat && c.toNat ≤ 0x0d) || (0x2000 ≤ c.toNat && c.toNat ≤ 0x200a) ||
    [0x20, 0x85, 0xa0, 0x1680, 0x2028, 0x2029, 0x202f, 0x205f, 0x3000].contains c.toNat

/-- `str::trim`. -/
def trim (s : String) : String :=
  String.ofList ((s.toList.dropWhile isWhitespace).reverse.dropWhile isWhitespace).reverse

/-- A text without whitespace is trimmed. -/
theorem trim_eq_self {s : String} (h : ∀ c ∈ s.toList, isWhitespace c = false) : trim s = s := by
  have hdrop (l : List Char) (hl : ∀ c ∈ l, isWhitespace c = false) :
      l.dropWhile isWhitespace = l := by
    cases l with
    | nil => rfl
    | cons c l => rw [List.dropWhile_cons, hl c List.mem_cons_self, if_neg Bool.false_ne_true]
  rw [trim, hdrop _ h, hdrop _ fun c hc => h c (List.mem_reverse.1 hc), List.reverse_reverse,
    String.ofList_toList]

/-- `str::as_bytes`. -/
def asBytes (s : String) : List UInt8 := s.toList.flatMap String.utf8EncodeChar

/-- `str::contains` of a string pattern. -/
def containsList (pat : List Char) : List Char → Bool
  | [] => pat.isEmpty
  | c :: s => pat.isPrefixOf (c :: s) || containsList pat s

def contains (s pat : String) : Bool := containsList pat.toList s.toList

theorem containsList_of_isPrefixOf {pat : List Char} (h : pat.isPrefixOf s = true) :
    containsList pat s = true := by
  cases s with
  | nil =>
    cases pat with
    | nil => rfl
    | cons c pat => cases h
  | cons c s => exact Bool.or_eq_true_iff.2 (.inl h)

/-- What is found in a text is found in a longer one. -/
theorem containsList_append {pat : List Char} (h : containsList pat s = true) (t : List Char) :
    containsList pat (s ++ t) = true := by
  induction s with
  | nil =>
    cases pat with
    | nil => exact containsList_of_isPrefixOf rfl
    | cons c pat => cases h
  | cons c s ih =>
    refine Bool.or_eq_true_iff.2 ((Bool.or_eq_true_iff.1 h).imp (fun hpre => ?_) ih)
    have hlonger : c :: s <+: (c :: s) ++ t := List.prefix_append _ t
    exact List.isPrefixOf_iff_prefix.2 ((List.isPrefixOf_iff_prefix.1 hpre).trans hlonger)

theorem contains_append {s pat : String} (h : contains s pat = true) (t : String) :
    contains (s ++ t) pat = true := by
  unfold contains at *
  rw [String.toList_append]
  exact containsList_append h _

theorem containsList_eq_false {pat s : List Char} {c : Char} (hc : c ∈ pat) (h : c ∉ s) :
    containsList pat s = false := by
  induction s with
  | nil =>
    cases pat with
    | nil => cases hc
    | cons d pat => rfl
  | cons d s ih =>
    refine Bool.or_eq_false_iff.2 ⟨Bool.eq_false_iff.2 fun hpre => h ?_, ih fun hs => h ?_⟩
    · exact (List.isPrefixOf_iff_prefix.1 hpre).subset hc
    · exact List.mem_cons_of_mem _ hs

/-- A text without a character of the pattern does not contain it. -/
theorem contains_eq_false {s pat : String} {c : Char} (hc : c ∈ pat.toList) (h : c ∉ s.toList) :
    contains s pat = false := containsList_eq_false hc h

/-- `str::ends_with` of a string pattern. -/
def endsWith (s pat : String) : Bool := pat.toList.isSuffixOf s.toList

theorem endsWith_iff {s pat : String} : endsWith s pat = true ↔ ∃ p, s = p ++ pat := by
  unfold endsWith
  rw [List.isSuffixOf_iff_suffix]
  constructor
  · rintro ⟨t, ht⟩
    refine ⟨String.ofList t, String.toList_injective ?_⟩
    simp [ht]
  · rintro ⟨p, rfl⟩
    rw [String.toList_append]
    exact List.suffix_append _ _

/-- `str::strip_prefix` of a string pattern. -/
def stripPrefix (s pat : String) : Option String :=
  if pat.toList.isPrefixOf s.toList then some (String.ofList (s.toList.drop pat.toList.length))
  else none

theorem stripPrefix_eq_some {s pat rest : String} :
    stripPrefix s pat = some rest ↔ s = pat ++ rest := by
  unfold stripPrefix
  rw [Option.ite_none_right_eq_some, List.isPrefixOf_iff_prefix, Option.some_inj]
  constructor
  · rintro ⟨⟨t, ht⟩, rfl⟩
    apply String.toList_injective
    simp [← ht]
  · rintro rfl
    rw [String.toList_append]
    refine ⟨List.prefix_append _ _, ?_⟩
    rw [List.drop_left, String.ofList_toList]

/-- `str::trim_start_matches` and `trim_end_matches` of a character. -/
def trimStartMatches (s : String) (c : Char) : String :=
  String.ofList (s.toList.dropWhile (· = c))

def trimEndMatches (s : String) (c : Char) : String :=
  String.ofList (s.toList.reverse.dropWhile (· = c)).reverse

/-- `str::trim_end_matches` of a string pattern, which is not empty. -/
def trimEndMatchesList (pat : List Char) : Nat → List Char → List Char
  | 0, s => s
  | n + 1, s =>
    if pat.isSuffixOf s then trimEndMatchesList pat n (s.take (s.length - pat.length)) else s

def trimEndMatchesStr (s pat : String) : String :=
  String.ofList (trimEndMatchesList pat.toList s.toList.length s.toList)

/-- The characters that take up the first `n` bytes. There are none if a character spans that
boundary. -/
def takeBytes : Nat → List Char → Option (List Char)
  | 0, _ => some []
  | _ + 1, [] => none
  | n + 1, c :: cs =>
    if c.utf8Size ≤ n + 1 then (takeBytes (n + 1 - c.utf8Size) cs).map (c :: ·) else none

/-- `&s[..n]`, which panics unless `n` is a character boundary. -/
def sliceTo (s : String) (n : Nat) : Option String := (takeBytes n s.toList).map String.ofList

example : sliceTo "aé" 2 = none := by decide

/-- The part of a text before the first `c`, which is the first item of `str::split`. -/
def beforeFirst (s : String) (c : Char) : String := String.ofList (s.toList.takeWhile (· ≠ c))

theorem beforeFirst_eq_self_iff {s : String} {c : Char} :
    beforeFirst s c = s ↔ c ∉ s.toList := by
  unfold beforeFirst
  rw [← String.toList_inj, String.toList_ofList, List.takeWhile_eq_self_iff]
  simp only [ne_eq, decide_not, Bool.not_eq_true', decide_eq_false_iff_not]
  exact ⟨fun h hc => h c hc rfl, fun h x hx hxc => h (hxc ▸ hx)⟩

theorem beforeFirst_eq_empty_iff {s : String} {c : Char} :
    beforeFirst s c = "" ↔ s = "" ∨ s.toList.head? = some c := by
  unfold beforeFirst
  rw [← String.toList_inj, String.toList_ofList, ← String.toList_inj]
  cases s.toList with
  | nil => simp
  | cons x xs => simp [List.takeWhile_cons]

/-- After the first occurrence of `c` nothing matters. -/
theorem beforeFirst_append {s : String} (c : Char) (t : String) :
    beforeFirst (s ++ String.singleton c ++ t) c = beforeFirst s c := by
  unfold beforeFirst
  have h : (s ++ String.singleton c ++ t).toList = s.toList ++ c :: t.toList := by simp
  rw [h]
  congr 1
  induction s.toList with
  | nil => simp
  | cons x xs ih => simp only [List.cons_append, List.takeWhile_cons, ih]

/-- What comes after the first occurrence of a character. -/
def afterFirst (s : String) (c : Char) : Option String :=
  (s.toList.dropWhile (· ≠ c)).tail?.map String.ofList

/-- A line's characters without the carriage return that precedes its line feed. -/
def stripCr (line : List Char) : List Char :=
  if line.getLast? = some '\r' then line.dropLast else line

/-- `str::lines`: each line feed ends a line, with the carriage return before it. What follows
the last line feed is a line when it is not empty. -/
def lines (s : String) : List String :=
  let pieces := s.toList.splitOn '\n'
  let last := pieces.getLast?.getD []
  (pieces.dropLast.map stripCr ++ if last.isEmpty then [] else [last]).map String.ofList

example : lines "a\r\n\nb\r" = ["a", "", "b\r"] := by decide

theorem stripCr_concat (line : List Char) : stripCr (line ++ ['\r']) = line := by
  rw [stripCr, if_pos List.getLast?_concat, List.dropLast_concat]

theorem stripCr_eq_self {line : List Char} (h : '\r' ∉ line) : stripCr line = line := by
  rw [stripCr, if_neg]
  exact fun hlast => h (List.mem_of_getLast? hlast)

theorem splitOn_join {ls : List String} {cr : List Char} (hcr : '\n' ∉ cr)
    (h : ∀ l ∈ ls, '\n' ∉ l.toList) :
    (String.join (ls.map (· ++ String.ofList (cr ++ ['\n'])))).toList.splitOn '\n' =
      ls.map (fun l => l.toList ++ cr) ++ [[]] := by
  induction ls with
  | nil => rfl
  | cons l ls ih =>
    rw [List.forall_mem_cons] at h
    have htext : (String.join ((l :: ls).map (· ++ String.ofList (cr ++ ['\n'])))).toList =
        (l.toList ++ cr) ++
          '\n' :: (String.join (ls.map (· ++ String.ofList (cr ++ ['\n'])))).toList := by
      simp [String.join_cons]
    have hline : '\n' ∉ l.toList ++ cr := by simpa using ⟨h.1, hcr⟩
    rw [htext, List.splitOn_append_cons_self_of_not_mem hline, ih h.2]
    rfl

/-- The lines that a text was joined from, whichever end it gives them. -/
theorem lines_join {ls : List String} {eol : String} (heol : eol ∈ ["\n", "\r\n"])
    (h : ∀ l ∈ ls, '\n' ∉ l.toList ∧ '\r' ∉ l.toList) :
    lines (String.join (ls.map (· ++ eol))) = ls := by
  have hnewline (l : String) (hl : l ∈ ls) : '\n' ∉ l.toList := (h l hl).1
  rw [List.mem_cons, List.mem_singleton] at heol
  rcases heol with rfl | rfl
  · have hlines (l : String) (hl : l ∈ ls) : String.ofList (stripCr (l.toList ++ [])) = l := by
      rw [List.append_nil, stripCr_eq_self (h l hl).2, String.ofList_toList]
    rw [lines, show "\n" = String.ofList ([] ++ ['\n']) from rfl, splitOn_join (by simp) hnewline]
    simpa [Function.comp_def] using List.map_congr_left hlines
  · have hlines (l : String) : String.ofList (stripCr (l.toList ++ ['\r'])) = l := by
      rw [stripCr_concat, String.ofList_toList]
    rw [lines, show "\r\n" = String.ofList (['\r'] ++ ['\n']) from rfl,
      splitOn_join (by decide) hnewline]
    simp [Function.comp_def, hlines]

/-! ## Bytes -/

/-- The bytes of a character beyond ASCII are beyond ASCII. -/
theorem le_of_mem_utf8EncodeChar (hc : 128 ≤ c.toNat) (hb : b ∈ String.utf8EncodeChar c) :
    128 ≤ b.toNat := by
  have hc' : ¬c.val.toNat ≤ 0x7f := Nat.not_le_of_gt (Nat.lt_of_lt_of_le (by decide) hc)
  unfold String.utf8EncodeChar at hb
  dsimp only at hb
  rw [if_neg hc'] at hb
  split at hb
  · simp only [List.mem_cons, List.not_mem_nil, or_false] at hb
    obtain rfl | rfl := hb <;> rw [UInt8.toNat_ofNat'] <;> omega
  · split at hb
    · simp only [List.mem_cons, List.not_mem_nil, or_false] at hb
      obtain rfl | rfl | rfl := hb <;> rw [UInt8.toNat_ofNat'] <;> omega
    · simp only [List.mem_cons, List.not_mem_nil, or_false] at hb
      obtain rfl | rfl | rfl | rfl := hb <;> rw [UInt8.toNat_ofNat'] <;> omega

theorem count_utf8EncodeChar {a : Char} (ha : a.toNat < 128) (c : Char) :
    (String.utf8EncodeChar c).count (UInt8.ofNat a.toNat) = if c == a then 1 else 0 := by
  by_cases hc : c.toNat < 128
  · have hsingle : String.utf8EncodeChar c = [UInt8.ofNat c.toNat] :=
      if_pos (Nat.le_of_lt_succ hc)
    have hinj : UInt8.ofNat c.toNat = UInt8.ofNat a.toNat ↔ c = a := by
      refine ⟨fun h => ?_, fun h => by rw [h]⟩
      have h' := congrArg UInt8.toNat h
      rw [UInt8.toNat_ofNat', UInt8.toNat_ofNat'] at h'
      exact Char.toNat_inj.1 (by omega)
    rw [hsingle, List.count_singleton]
    simp only [beq_iff_eq, hinj]
  · have hne : c ≠ a := fun h => hc (h ▸ ha)
    rw [if_neg (by simpa using hne), List.count_eq_zero]
    intro hb
    have := le_of_mem_utf8EncodeChar (Nat.not_lt.1 hc) hb
    rw [UInt8.toNat_ofNat'] at this
    omega

/-- An ASCII character is counted by its byte. -/
theorem count_asBytes {a : Char} (ha : a.toNat < 128) (s : String) :
    (asBytes s).count (UInt8.ofNat a.toNat) = s.toList.count a := by
  unfold asBytes
  induction s.toList with
  | nil => rfl
  | cons c text ih =>
    rw [List.flatMap_cons, List.count_append, ih, count_utf8EncodeChar ha, List.count_cons,
      Nat.add_comm]

/-! ## Lengths -/

theorem length_dropWhile_le (p : Char → Bool) (s : List Char) :
    (s.dropWhile p).length ≤ s.length := (List.dropWhile_suffix p).length_le

theorem length_trim_le (s : String) : (trim s).length ≤ s.length := by
  rw [trim, String.length_ofList, List.length_reverse]
  refine Nat.le_trans (length_dropWhile_le _ _) ?_
  rw [List.length_reverse]
  exact length_dropWhile_le _ _

theorem length_stripPrefix_le {s pat rest : String} (h : stripPrefix s pat = some rest) :
    rest.length ≤ s.length := by
  rw [stripPrefix_eq_some.1 h, String.length_append]
  exact Nat.le_add_left _ _

theorem length_trimEndMatchesStr_le (s pat : String) :
    (trimEndMatchesStr s pat).length ≤ s.length := by
  have hlist (n : Nat) (l : List Char) :
      (trimEndMatchesList pat.toList n l).length ≤ l.length := by
    induction n generalizing l with
    | zero => exact Nat.le_refl _
    | succ n ih =>
      unfold trimEndMatchesList
      split
      · exact Nat.le_trans (ih _) (List.length_take_le' _ _)
      · exact Nat.le_refl _
  rw [trimEndMatchesStr, String.length_ofList]
  exact hlist _ _

theorem join_eq_empty_iff {l : List String} : String.join l = "" ↔ ∀ s ∈ l, s = "" := by
  induction l with
  | nil => exact iff_of_true rfl (List.forall_mem_nil _)
  | cons s l ih => rw [String.join_cons, String.append_eq_empty_iff, ih, List.forall_mem_cons]

/-- A text that is no longer than the second part is the whole only if the first part is empty. -/
theorem append_eq_iff {s t u : String} (h : u.length ≤ t.length) : s ++ t = u ↔ s = "" ∧ t = u := by
  refine ⟨fun heq => ?_, ?_⟩
  · have hlen := congrArg String.length heq
    rw [String.length_append] at hlen
    have hs : s = "" := String.length_eq_zero_iff.1 (by omega)
    subst hs
    exact ⟨rfl, String.empty_append.symm.trans heq⟩
  · rintro ⟨rfl, rfl⟩
    exact String.empty_append

end Tako.Str
