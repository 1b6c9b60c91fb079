import Mathlib.Algebra.Order.Ring.Rat
import Mathlib.Data.List.Basic
import Tako.Rust.Str

/-!
# The two featurisers

`featurise_text` of `tako-orchestrator/src/features.rs`, and its mirror in
`python/tako/training/features.py`. Amounts are exact, and the logarithm is left as it stands. The
two differ in what is whitespace: Python also splits at the separators U+001C to U+001F. So words
are counted alike exactly if as many runs of separators join two words as stand alone
(`agree_iff`).
-/

namespace Tako.Orchestrator.Features

open Str (containsList isWhitespace)

inductive Feature where
  | log10 (n : Nat)
  | number (q : Rat)
  deriving DecidableEq

def flag (b : Bool) : Feature := .number (if b then 1 else 0)

/-- `(n / m).min(1.0)` -/
def saturated (n m : Nat) : Feature := .number (min ((n : Rat) / m) 1)

def density (n len : Nat) : Feature := .number (if len > 0 then (n : Rat) / len else 0)

/-- The amounts behind the features. -/
structure Counts where
  bytes : Nat
  words : Nat
  digits : Nat
  upper : Nat
  newlines : Nat
  punct : Nat
  opens : Nat
  closes : Nat
  deriving DecidableEq

/-- The parts of a text between runs of characters of a kind. -/
def splitRuns (space : Char → Bool) (text : List Char) : List (List Char) :=
  (text.splitOnP space).filter fun word => !word.isEmpty

def backtick : Char := Char.ofNat 0x60

/-- `as_bytes`, and `encode("utf-8")` -/
def encode (text : List Char) : List UInt8 := Str.asBytes (String.ofList text)

def codeKeywords : List String :=
  ["fn ", "def ", "class ", "import ", "function ", "return ", "let ", "const "]

/-! ## In Rust -/

namespace Rust

def isAsciiDigit (b : UInt8) : Bool := 0x30 ≤ b && b ≤ 0x39

def isAsciiUppercase (b : UInt8) : Bool := 0x41 ≤ b && b ≤ 0x5a

/-- `matches!(**b, b'.' | b',' | b';' | b':' | b'!')` -/
def isPunct (b : UInt8) : Bool := [0x2e, 0x2c, 0x3b, 0x3a, 0x21].contains b

def counts (text : List Char) : Counts where
  bytes := (encode text).length
  words := (splitRuns isWhitespace text).length
  digits := (encode text).countP isAsciiDigit
  upper := (encode text).countP isAsciiUppercase
  newlines := (encode text).count 0x0a
  punct := (encode text).countP isPunct
  opens := (encode text).count 0x28
  closes := (encode text).count 0x29

def mathChars : List Char := ['=', '+', '*', '/', '^', '∫', '∑', '√']

def featuriseText (toLowercase : List Char → List Char) (text : List Char) : List Feature :=
  let lower := toLowercase text
  let n := counts text
  let has (kw : String) := containsList kw.toList lower
  [ .log10 (1 + n.bytes),
    saturated n.words 100,
    flag (text.contains '?'),
    flag (containsList "```".toList text || text.contains backtick),
    flag (codeKeywords.any has),
    flag (text.any mathChars.contains),
    density n.digits n.bytes,
    density n.upper n.bytes,
    flag (has "code"),
    flag (has "math" || has "solve"),
    flag (has "explain" || has "describe"),
    flag (has "verify" || has "check" || has "prove"),
    saturated n.newlines 20,
    density n.punct n.bytes,
    flag (decide (n.opens > 0) && n.opens == n.closes),
    .number 1 ]

end Rust

/-! ## In Python -/

namespace Python

/-- `str.isspace` of a character. -/
def isSpace (c : Char) : Bool :=
  (0x09 ≤ c.toNat && c.toNat ≤ 0x0d) || (0x1c ≤ c.toNat && c.toNat ≤ 0x20) ||
    (0x2000 ≤ c.toNat && c.toNat ≤ 0x200a) ||
    [0x85, 0xa0, 0x1680, 0x2028, 0x2029, 0x202f, 0x205f, 0x3000].contains c.toNat

def counts (text : List Char) : Counts where
  bytes := (encode text).length
  words := (splitRuns isSpace text).length
  digits := (encode text).countP fun c => 0x30 ≤ c && c ≤ 0x39
  upper := (encode text).countP fun c => 0x41 ≤ c && c ≤ 0x5a
  newlines := text.count '\n'
  punct := (encode text).countP [0x2e, 0x2c, 0x3b, 0x3a, 0x21].contains
  opens := text.count '('
  closes := text.count ')'

def mathChars : List Char := "=+*/^∫∑√".toList

def featuriseText (toLower : List Char → List Char) (text : List Char) : List Feature :=
  let lower := toLower text
  let n := counts text
  let isIn (kw : String) := containsList kw.toList
  [ .log10 (1 + n.bytes),
    saturated n.words 100,
    flag (isIn "?" text),
    flag (isIn "```" text || isIn "`" text),
    flag (codeKeywords.any fun kw => isIn kw lower),
    flag (text.any mathChars.contains),
    if n.bytes > 0 then .number ((n.digits : Rat) / n.bytes) else .number 0,
    if n.bytes > 0 then .number ((n.upper : Rat) / n.bytes) else .number 0,
    flag (isIn "code" lower),
    flag (isIn "math" lower || isIn "solve" lower),
    flag (isIn "explain" lower || isIn "describe" lower),
    flag (isIn "verify" lower || isIn "check" lower || isIn "prove" lower),
    saturated n.newlines 20,
    if n.bytes > 0 then .number ((n.punct : Rat) / n.bytes) else .number 0,
    flag (decide (n.opens > 0) && n.opens == n.closes),
    .number 1 ]

end Python

/-- The featurisers count the same, and compute the same features. -/
structure Agree (lower : List Char → List Char) (text : List Char) : Prop where
  counts : Rust.counts text = Python.counts text
  features : Rust.featuriseText lower text = Python.featuriseText lower text

/-! ## Runs of separators -/

/-- U+001C to U+001F -/
def isSeparator (c : Char) : Bool := 0x1c ≤ c.toNat && c.toNat ≤ 0x1f

/-- The runs of separators in a text, with whether a word stands right before and right after
them. `word` is whether one stands before this place, or before the run it is in. -/
def separatorRuns (word : Bool) : (inRun : Bool) → List Char → List (Bool × Bool)
  | true, [] => [(word, false)]
  | false, [] => []
  | inRun, c :: text =>
    if isSeparator c then separatorRuns word true text
    else (if inRun then [(word, !isWhitespace c)] else []) ++
      separatorRuns (!isWhitespace c) false text

/-- The runs of a whole text. -/
def runs (text : List Char) : List (Bool × Bool) := separatorRuns false false text

example : runs "\x1c a\x1d\x1eb".toList = [(false, false), (true, true)] := by decide

/-! ## Words -/

/-- The words that begin in a text, after a word or not. -/
def wordsFrom (space : Char → Bool) : (inWord : Bool) → List Char → Nat
  | _, [] => 0
  | inWord, c :: text =>
    if space c then wordsFrom space false text
    else (if inWord then 0 else 1) + wordsFrom space true text

theorem length_splitRuns (space : Char → Bool) (text : List Char) :
    (splitRuns space text).length = wordsFrom space false text ∧
      ((text.splitOnP space).tail.filter fun word => !word.isEmpty).length =
        wordsFrom space true text := by
  unfold splitRuns
  induction text with
  | nil => exact ⟨rfl, rfl⟩
  | cons c text ih =>
    obtain ⟨word, words, hsplit⟩ := List.exists_cons_of_ne_nil (List.splitOnP_ne_nil space text)
    rw [List.splitOnP_cons_eq_if_modifyHead]
    unfold wordsFrom
    rw [hsplit] at ih ⊢
    obtain ⟨ih, ih'⟩ := ih
    split
    · exact ⟨ih, ih⟩
    · refine ⟨?_, ?_⟩
      · rw [List.modifyHead_cons, List.filter_cons_of_pos rfl, List.length_cons, Nat.add_comm]
        exact congrArg (1 + ·) ih'
      · rw [List.modifyHead_cons, if_pos rfl, Nat.zero_add]
        exact ih'

theorem isSpace_eq (c : Char) : Python.isSpace c = (isWhitespace c || isSeparator c) := by
  rw [Bool.eq_iff_iff]
  simp only [Python.isSpace, isWhitespace, isSeparator, Bool.or_eq_true, Bool.and_eq_true,
    decide_eq_true_eq, List.contains_cons, List.contains_nil, beq_iff_eq, Bool.false_eq_true,
    or_false]
  omega

theorem not_isWhitespace_of_isSeparator (h : isSeparator c = true) : isWhitespace c = false := by
  rw [Bool.eq_false_iff]
  intro hw
  simp only [isWhitespace, isSeparator, Bool.or_eq_true, Bool.and_eq_true, decide_eq_true_eq,
    List.contains_cons, List.contains_nil, beq_iff_eq, Bool.false_eq_true, or_false] at h hw
  omega

theorem separatorRuns_separator (h : isSeparator c = true) (word inRun : Bool)
    (text : List Char) :
    separatorRuns word inRun (c :: text) = separatorRuns word true text := by
  cases inRun <;> exact if_pos h

theorem separatorRuns_other (h : isSeparator c = false) (word inRun : Bool) (text : List Char) :
    separatorRuns word inRun (c :: text) =
      (if inRun then [(word, !isWhitespace c)] else []) ++
        separatorRuns (!isWhitespace c) false text := by
  rw [Bool.eq_false_iff] at h
  cases inRun <;> exact if_neg h

/-- A run that stands alone is a word of Rust, and one between two words makes them one. -/
theorem wordsFrom_add_count (word inRun : Bool) (text : List Char) :
    wordsFrom isWhitespace (word || inRun) text + (if inRun && !word then 1 else 0) +
        (separatorRuns word inRun text).count (true, true) =
      wordsFrom Python.isSpace (word && !inRun) text +
        (separatorRuns word inRun text).count (false, false) := by
  induction text generalizing word inRun with
  | nil => cases word <;> cases inRun <;> rfl
  | cons c text ih =>
    unfold wordsFrom
    rw [isSpace_eq]
    cases hsep : isSeparator c with
    | true =>
      have hrest := ih word true
      rw [separatorRuns_separator hsep, not_isWhitespace_of_isSeparator hsep]
      cases word <;> cases inRun <;> simp at hrest ⊢ <;> omega
    | false =>
      have hrest := ih (!isWhitespace c) false
      rw [separatorRuns_other hsep]
      cases hspace : isWhitespace c <;> rw [hspace] at hrest <;> cases word <;> cases inRun <;>
        simp at hrest ⊢ <;> omega

theorem words_iff (text : List Char) :
    (Rust.counts text).words = (Python.counts text).words ↔
      (runs text).count (true, true) = (runs text).count (false, false) := by
  have h := wordsFrom_add_count false false text
  have hrust : (Rust.counts text).words = wordsFrom isWhitespace false text :=
    (length_splitRuns _ _).1
  have hpython : (Python.counts text).words = wordsFrom Python.isSpace false text :=
    (length_splitRuns _ _).1
  rw [hrust, hpython]
  change wordsFrom isWhitespace false text + 0 + (runs text).count (true, true) =
    wordsFrom Python.isSpace false text + (runs text).count (false, false) at h
  omega

/-! ## All the other amounts -/

theorem count_encode {a : Char} (ha : a.toNat < 128) (text : List Char) :
    (encode text).count (UInt8.ofNat a.toNat) = text.count a := by
  rw [encode, Str.count_asBytes ha, String.toList_ofList]

theorem containsList_singleton (c : Char) (text : List Char) :
    containsList [c] text = text.contains c := by
  induction text with
  | nil => rfl
  | cons d text ih =>
    unfold containsList
    rw [ih, List.contains_cons, List.isPrefixOf_cons_cons, List.isPrefixOf_nil_left, Bool.and_true]

theorem any_mathChars (text : List Char) :
    text.any Rust.mathChars.contains = text.any Python.mathChars.contains := rfl

/-- Only the words may be counted in another way. -/
theorem counts_eq (text : List Char) :
    Rust.counts text = { Python.counts text with words := (Rust.counts text).words } := by
  unfold Rust.counts Python.counts
  congr 1
  · exact count_encode (a := '\n') (by decide) text
  · exact count_encode (a := '(') (by decide) text
  · exact count_encode (a := ')') (by decide) text

theorem features_eq_of_counts (lower : List Char → List Char)
    (h : Rust.counts text = Python.counts text) :
    Rust.featuriseText lower text = Python.featuriseText lower text := by
  unfold Rust.featuriseText Python.featuriseText
  have hquestion : containsList "?".toList text = text.contains '?' :=
    containsList_singleton '?' text
  have htick : containsList "`".toList text = text.contains backtick :=
    containsList_singleton backtick text
  have hdensity (n : Nat) : density n (Python.counts text).bytes =
      if (Python.counts text).bytes > 0 then .number ((n : Rat) / (Python.counts text).bytes)
      else .number 0 := by
    unfold density
    split <;> rfl
  dsimp only
  rw [h, hquestion, htick, any_mathChars, hdensity, hdensity, hdensity]

/-- The two agree on a text exactly if as many runs of separators join two words as stand
alone. -/
theorem agree_iff (lower : List Char → List Char) (text : List Char) :
    Agree lower text ↔ (runs text).count (true, true) = (runs text).count (false, false) := by
  rw [← words_iff]
  constructor
  · exact fun h => congrArg Counts.words h.counts
  · intro h
    have hcounts : Rust.counts text = Python.counts text := by
      rw [counts_eq, h]
    exact ⟨hcounts, features_eq_of_counts lower hcounts⟩

/-- Two words of Python that are one of Rust. -/
theorem not_agree_separator :
    ¬∀ (lower : List Char → List Char) (text : List Char), Agree lower text := by
  intro h
  have hwords : 1 = 2 := congrArg Counts.words (h id "a\x1cb".toList).counts
  exact absurd hwords (by decide)

end Tako.Orchestrator.Features
