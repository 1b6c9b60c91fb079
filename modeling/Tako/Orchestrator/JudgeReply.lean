import Mathlib.Algebra.Order.Ring.Rat
import Mathlib.Data.List.Induction
import Mathlib.Tactic.Linarith
import Tako.Orchestrator.Trinity

/-!
# The number in a judge's reply

`parse_confidence` of `tako-orchestrator/src/self_caller.rs` and `parse_score` of `verifiers.rs` are
copies of each other. They cut the reply at everything but digits, points and minus signs, and take
the first piece that is a number. Punctuation of these two kinds stays with the number: a reply with
one number is read exactly if none stands next to it, except for one full stop after a whole number
(`parse_eq_iff`).
-/

namespace Tako.Orchestrator

/-! ## Reading a number -/

/-- What is computed of an `f32`: the nearest one, and no infinity among the values at hand. -/
structure F32Rounding (round : Rat → Rat) : Prop where
  mono : ∀ x y, x ≤ y → round x ≤ round y
  zero : round 0 = 0
  one : round 1 = 1

/-- The value of a decimal with these digits before and after the point. -/
def decimalValue (whole frac : List Char) : Rat :=
  Nat.ofDigitChars 10 whole 0 + (Nat.ofDigitChars 10 frac 0 : Rat) / 10 ^ frac.length

/-- What follows the first digits: nothing, or a point and digits. A digit is needed on one side. -/
def readFraction (whole : List Char) : List Char → Option Rat
  | [] => if whole = [] then none else some (decimalValue whole [])
  | c :: frac =>
    if c = '.' ∧ frac.all Char.isDigit = true ∧ ¬(whole = [] ∧ frac = []) then
      some (decimalValue whole frac)
    else none

def parseUnsigned (cs : List Char) : Option Rat :=
  readFraction (cs.takeWhile Char.isDigit) (cs.dropWhile Char.isDigit)

/-- `str::parse::<f32>` before rounding, of a text of digits, points and minus signs. -/
def parseDecimal : List Char → Option Rat
  | '-' :: cs => (parseUnsigned cs).map (- ·)
  | cs => parseUnsigned cs

def isTokenChar (c : Char) : Bool := c.isDigit || c == '.' || c == '-'

/-- The pieces of a reply that may be numbers. -/
def tokens (text : List Char) : List (List Char) :=
  (text.splitOnP fun c => !isTokenChar c).filter fun s => !s.isEmpty

variable (round : Rat → Rat)

/-- The first piece that is a number, clamped. -/
def firstNumber (text : String) : Option Rat :=
  ((tokens text.toList).findSome? fun s => (parseDecimal s).map round).map clampUnit

def parseConfidence (text : String) : Option Rat := firstNumber round text

def parseScore (text : String) : Option Rat := firstNumber round text

/-- What `LlmJudgeGuard::run_judge` and `LlmJudgeVerifier::score` make of the judge's response, with
`parse` from their module. -/
def judged (parse : String → Option Rat) (resp : ChatResponse) : Rat :=
  if resp.finishReason = .stop ∨ resp.finishReason = .length ∨ resp.finishReason = .toolCalls then
    (parse resp.message.text).getD (1 / 2)
  else 1 / 2

/-! ## Replies with one number -/

/-- A decimal numeral: digits, or a point with digits after it and possibly before it. -/
structure Numeral where
  whole : List Char
  frac : List Char
  whole_digits : ∀ c ∈ whole, c.isDigit = true
  frac_digits : ∀ c ∈ frac, c.isDigit = true
  nonempty : ¬(whole = [] ∧ frac = [])

namespace Numeral

def chars (n : Numeral) : List Char :=
  n.whole ++ if n.frac = [] then [] else '.' :: n.frac

def value (n : Numeral) : Rat := decimalValue n.whole n.frac

end Numeral

/-- Points and minus signs. -/
def IsMark (c : Char) : Prop := c = '.' ∨ c = '-'

/-- A text with one decimal number, which is between 0 and 1. A minus sign right before the digits
is the number's, and so is a point. -/
structure JudgeReply where
  before : List Char
  negative : Bool
  numeral : Numeral
  after : List Char
  before_noDigit : ∀ c ∈ before, c.isDigit = false
  after_noDigit : ∀ c ∈ after, c.isDigit = false
  sign : negative = false → before.getLast? ≠ some '-'
  point : negative = false → numeral.frac = [] → before.getLast? ≠ some '.'
  inRange : 0 ≤ (if negative then -numeral.value else numeral.value) ∧
    (if negative then -numeral.value else numeral.value) ≤ 1

namespace JudgeReply

def signChars (r : JudgeReply) : List Char := if r.negative then ['-'] else []

def text (r : JudgeReply) : String :=
  String.ofList (r.before ++ (r.signChars ++ r.numeral.chars) ++ r.after)

def value (r : JudgeReply) : Rat := if r.negative then -r.numeral.value else r.numeral.value

/-- No point or minus sign stands right before the number or right after it. One point may follow a
whole number, if none follows it in turn. -/
structure Clear (r : JudgeReply) : Prop where
  before : ∀ c ∈ r.before.getLast?, ¬IsMark c
  after : (∀ c ∈ r.after.head?, ¬IsMark c) ∨
    r.numeral.frac = [] ∧ ∃ rest, r.after = '.' :: rest ∧ ∀ c ∈ rest.head?, ¬IsMark c

end JudgeReply

/-! ## Pieces -/

theorem mem_of_mem_splitOnP {p : Char → Bool} {cs s : List Char} {c : Char}
    (hs : s ∈ cs.splitOnP p) (hc : c ∈ s) : c ∈ cs := by
  induction cs generalizing s with
  | nil =>
    rw [List.splitOnP_nil, List.mem_singleton] at hs
    exact hs ▸ hc
  | cons d cs ih =>
    obtain ⟨t, ts, hsplit⟩ := List.exists_cons_of_ne_nil (List.splitOnP_ne_nil p cs)
    rw [List.splitOnP_cons_eq_if_modifyHead, hsplit] at hs
    rw [hsplit] at ih
    split at hs
    · rcases List.mem_cons.1 hs with rfl | hs
      · cases hc
      · exact List.mem_cons_of_mem _ (ih hs hc)
    · rw [List.modifyHead_cons] at hs
      rcases List.mem_cons.1 hs with rfl | hs
      · rcases List.mem_cons.1 hc with rfl | hc
        · exact List.mem_cons_self
        · exact List.mem_cons_of_mem _ (ih List.mem_cons_self hc)
      · exact List.mem_cons_of_mem _ (ih (List.mem_cons_of_mem _ hs) hc)

theorem tokens_append (a b : List Char) {c : Char} (hc : isTokenChar c = false) :
    tokens (a ++ c :: b) = tokens a ++ tokens b := by
  have hsep : (fun c => !isTokenChar c) c = true := by simp [hc]
  rw [tokens, List.splitOnP_append_cons a b hsep, List.filter_append]
  rfl

theorem tokens_self {s : List Char} (hs : ∀ c ∈ s, isTokenChar c = true) (hne : s ≠ []) :
    tokens s = [s] := by
  rw [tokens, List.splitOnP_eq_singleton fun c hc => by simp [hs c hc]]
  simp [hne]

@[simp] theorem tokens_nil : tokens [] = [] := rfl

/-- A run of characters that may be in a number, with others around it, is a piece. -/
theorem tokens_between {a s b : List Char} (ha : ∀ c ∈ a.getLast?, isTokenChar c = false)
    (hs : ∀ c ∈ s, isTokenChar c = true) (hne : s ≠ [])
    (hb : ∀ c ∈ b.head?, isTokenChar c = false) :
    tokens (a ++ s ++ b) = tokens a ++ s :: tokens b := by
  have hright : tokens (s ++ b) = s :: tokens b := by
    cases b with
    | nil => rw [List.append_nil, tokens_self hs hne, tokens_nil]
    | cons c b =>
      have hc := hb c rfl
      have hskip : tokens (c :: b) = tokens b := tokens_append [] b hc
      rw [tokens_append s b hc, tokens_self hs hne, hskip, List.singleton_append]
  rcases List.eq_nil_or_concat a with rfl | ⟨a, c, rfl⟩
  · exact hright
  · rw [List.concat_eq_append] at ha ⊢
    have hc := ha c (by simp)
    rw [tokens_append a [] hc, tokens_nil, List.append_nil, List.append_assoc, List.append_assoc,
      List.singleton_append, tokens_append a _ hc, hright]

theorem isTokenChar_eq_false {c : Char} (hdigit : c.isDigit = false) (hc : ¬IsMark c) :
    isTokenChar c = false := by
  simpa [isTokenChar, hdigit, IsMark] using hc

/-- The marks at the end of a text. -/
theorem exists_marks_before (a : List Char) (ha : ∀ c ∈ a, c.isDigit = false) :
    ∃ a' l, a = a' ++ l ∧ (∀ c ∈ l, IsMark c) ∧ ∀ c ∈ a'.getLast?, isTokenChar c = false := by
  induction a using List.reverseRecOn with
  | nil => exact ⟨[], [], rfl, by simp, by simp⟩
  | append_singleton a c ih =>
    by_cases hc : IsMark c
    · obtain ⟨a', l, rfl, hl, ha'⟩ := ih fun d hd => ha d (List.mem_append_left _ hd)
      refine ⟨a', l ++ [c], by simp, fun d hd => ?_, ha'⟩
      rcases List.mem_append.1 hd with hd | hd
      · exact hl d hd
      · exact List.mem_singleton.1 hd ▸ hc
    · refine ⟨a ++ [c], [], by simp, by simp, fun d hd => ?_⟩
      obtain rfl : c = d := by simpa using hd
      exact isTokenChar_eq_false (ha c (by simp)) hc

/-- The marks at the start of a text. -/
theorem exists_marks_after (b : List Char) (hb : ∀ c ∈ b, c.isDigit = false) :
    ∃ r b', b = r ++ b' ∧ (∀ c ∈ r, IsMark c) ∧ ∀ c ∈ b'.head?, isTokenChar c = false := by
  induction b with
  | nil => exact ⟨[], [], rfl, by simp, by simp⟩
  | cons c b ih =>
    by_cases hc : IsMark c
    · obtain ⟨r, b', rfl, hr, hb'⟩ := ih fun d hd => hb d (List.mem_cons_of_mem _ hd)
      refine ⟨c :: r, b', rfl, fun d hd => ?_, hb'⟩
      rcases List.mem_cons.1 hd with rfl | hd
      · exact hc
      · exact hr d hd
    · refine ⟨[], c :: b, rfl, by simp, fun d hd => ?_⟩
      obtain rfl : c = d := by simpa using hd
      exact isTokenChar_eq_false (hb c List.mem_cons_self) hc

/-! ## One piece -/

theorem IsMark.isDigit {c : Char} (h : IsMark c) : c.isDigit = false := by
  rcases h with rfl | rfl
  · rfl
  · rfl

theorem IsMark.isTokenChar {c : Char} (h : IsMark c) : isTokenChar c = true := by
  rcases h with rfl | rfl
  · rfl
  · rfl

theorem parseUnsigned_digits {w x : List Char} (hw : ∀ c ∈ w, c.isDigit = true)
    (hx : ∀ c ∈ x.head?, c.isDigit = false) : parseUnsigned (w ++ x) = readFraction w x := by
  have htake : (w ++ x).takeWhile Char.isDigit = w := by
    rw [List.takeWhile_append_of_pos hw]
    cases x with
    | nil => simp
    | cons c x => simp [hx c rfl]
  have hdrop : (w ++ x).dropWhile Char.isDigit = x := by
    rw [List.dropWhile_append_of_pos hw]
    cases x with
    | nil => rfl
    | cons c x => simp [hx c rfl]
  rw [parseUnsigned, htake, hdrop]

/-- After a mark there are only digits, and the mark is a point. -/
theorem parseUnsigned_mark {c : Char} {cs : List Char} {q : Rat} (hc : IsMark c)
    (h : parseUnsigned (c :: cs) = some q) : c = '.' ∧ ∀ d ∈ cs, d.isDigit = true := by
  have hsplit := parseUnsigned_digits (w := []) (x := c :: cs) (by simp) (by simp [hc.isDigit])
  rw [List.nil_append, h, readFraction] at hsplit
  split at hsplit
  case isTrue hcond => exact ⟨hcond.1, fun d hd => List.all_eq_true.1 hcond.2.1 d hd⟩
  case isFalse => cases hsplit

/-- No number begins with marks, but for a sign and a point before digits. -/
theorem parseDecimal_marks {l y : List Char} (hl : ∀ c ∈ l, IsMark c) (hne : l ≠ [])
    (hy : ∃ c ∈ y, c.isDigit = false) (hminus : l.getLast? = some '-' → y.head? = some '-') :
    parseDecimal (l ++ y) = none := by
  obtain ⟨d, hd, hdigit⟩ := hy
  -- whatever is read after a first mark would consist of digits
  have hnone : ∀ c l', IsMark c → parseUnsigned (c :: (l' ++ y)) = none := by
    intro c l' hc
    cases hparse : parseUnsigned (c :: (l' ++ y)) with
    | none => rfl
    | some q =>
      have hd' := (parseUnsigned_mark hc hparse).2 d (List.mem_append_right _ hd)
      rw [hdigit] at hd'
      cases hd'
  obtain ⟨c, l, rfl⟩ := List.exists_cons_of_ne_nil hne
  rw [List.forall_mem_cons] at hl
  rcases hl.1 with rfl | rfl
  · exact hnone '.' l (.inl rfl)
  · rw [List.cons_append, parseDecimal, Option.map_eq_none_iff]
    cases l with
    | cons c l => exact hnone c l (hl.2 c List.mem_cons_self)
    | nil =>
      obtain ⟨y, rfl⟩ : ∃ y', y = '-' :: y' := by
        have hhead := hminus rfl
        cases y with
        | nil => cases hhead
        | cons c y => exact ⟨y, by rw [Option.some.inj hhead]⟩
      rw [List.nil_append]
      cases hparse : parseUnsigned ('-' :: y) with
      | none => rfl
      | some q => exact absurd (parseUnsigned_mark (.inr rfl) hparse).1 (by decide)

theorem parseUnsigned_noDigit {cs : List Char} (h : ∀ c ∈ cs, c.isDigit = false) :
    parseUnsigned cs = none := by
  have hsplit := parseUnsigned_digits (w := []) (x := cs) (by simp)
    fun c hc => h c (List.mem_of_mem_head? hc)
  rw [List.nil_append] at hsplit
  rw [hsplit]
  cases cs with
  | nil => rfl
  | cons c cs =>
    rw [List.forall_mem_cons] at h
    cases cs with
    | nil => simp [readFraction]
    | cons d cs => simp [readFraction, h.2 d List.mem_cons_self]

theorem parseDecimal_noDigit {cs : List Char} (h : ∀ c ∈ cs, c.isDigit = false) :
    parseDecimal cs = none := by
  unfold parseDecimal
  split
  · rw [parseUnsigned_noDigit fun c hc => h c (List.mem_cons_of_mem _ hc)]
    rfl
  · exact parseUnsigned_noDigit h

theorem parseDecimal_unsigned {cs : List Char} (h : cs.head? ≠ some '-') :
    parseDecimal cs = parseUnsigned cs := by
  unfold parseDecimal
  split
  · exact absurd rfl h
  · rfl

namespace Numeral

variable (n : Numeral)

theorem chars_of_frac_eq_nil (h : n.frac = []) : n.chars = n.whole := by
  rw [chars, if_pos h, List.append_nil]

theorem chars_of_frac_ne_nil (h : n.frac ≠ []) : n.chars = n.whole ++ '.' :: n.frac := by
  rw [chars, if_neg h]

theorem isTokenChar_chars : ∀ c ∈ n.chars, isTokenChar c = true := by
  intro c hc
  have hdigit : ∀ {c}, c.isDigit = true → isTokenChar c = true := fun h => by simp [isTokenChar, h]
  by_cases hfrac : n.frac = []
  · rw [n.chars_of_frac_eq_nil hfrac] at hc
    exact hdigit (n.whole_digits c hc)
  · rw [n.chars_of_frac_ne_nil hfrac] at hc
    rcases List.mem_append.1 hc with hc | hc
    · exact hdigit (n.whole_digits c hc)
    · rcases List.mem_cons.1 hc with rfl | hc
      · rfl
      · exact hdigit (n.frac_digits c hc)

theorem chars_ne_nil : n.chars ≠ [] := by
  by_cases hfrac : n.frac = []
  · rw [n.chars_of_frac_eq_nil hfrac]
    exact fun h => n.nonempty ⟨h, hfrac⟩
  · simp [n.chars_of_frac_ne_nil hfrac]

theorem head?_chars_ne : (n.chars ++ s).head? ≠ some '-' := by
  intro h
  cases hwhole : n.whole with
  | nil =>
    have hfrac : n.frac ≠ [] := fun hfrac => n.nonempty ⟨hwhole, hfrac⟩
    simp [chars, hwhole, hfrac] at h
  | cons c whole =>
    obtain rfl : c = '-' := by simpa [chars, hwhole] using h
    exact absurd (n.whole_digits '-' (by simp [hwhole])) (by decide)

/-- With marks behind it, a numeral is read if there are none, or one point behind a whole number.
-/
theorem parseUnsigned_chars {r : List Char} (hr : ∀ c ∈ r, IsMark c) :
    parseUnsigned (n.chars ++ r) =
      if r = [] ∨ n.frac = [] ∧ r = ['.'] then some n.value else none := by
  by_cases hfrac : n.frac = []
  · have hhead : ∀ c ∈ r.head?, c.isDigit = false := fun c hc =>
      (hr c (List.mem_of_mem_head? hc)).isDigit
    have hwhole : n.whole ≠ [] := fun h => n.nonempty ⟨h, hfrac⟩
    rw [n.chars_of_frac_eq_nil hfrac, parseUnsigned_digits n.whole_digits hhead, value, hfrac]
    rcases r with _ | ⟨c, _ | ⟨d, r⟩⟩
    · simp [readFraction, hwhole]
    · simp [readFraction, hwhole]
    · have hd : d.isDigit = false := (hr d (by simp)).isDigit
      simp [readFraction, hd]
  · have hpoint : ∀ c ∈ ('.' :: (n.frac ++ r)).head?, c.isDigit = false := by simp
    rw [n.chars_of_frac_ne_nil hfrac, List.append_assoc, List.cons_append,
      parseUnsigned_digits n.whole_digits hpoint, value]
    cases r with
    | nil => simpa [readFraction, hfrac] using n.frac_digits
    | cons c r =>
      have hc : c.isDigit = false := (hr c List.mem_cons_self).isDigit
      simp [readFraction, hfrac, hc]

end Numeral

/-! ## A whole reply -/

theorem findSome?_tokens_noDigit {cs : List Char} (h : ∀ c ∈ cs, c.isDigit = false) :
    ((tokens cs).findSome? fun s => (parseDecimal s).map round) = none := by
  rw [List.findSome?_eq_none_iff]
  intro s hs
  rw [parseDecimal_noDigit fun c hc => h c (mem_of_mem_splitOnP (List.mem_filter.1 hs).1 hc)]
  rfl

namespace JudgeReply

variable (r : JudgeReply)

theorem getLast?_append_eq {a l : List Char} (hl : l ≠ []) : (a ++ l).getLast? = l.getLast? := by
  rw [List.getLast?_append]
  obtain ⟨c, hc⟩ := Option.ne_none_iff_exists'.1 (mt List.getLast?_eq_none_iff.1 hl)
  rw [hc, Option.some_or]

/-- The piece with the number, with the marks on both sides of it. -/
theorem parseDecimal_piece {a l s : List Char} (hbefore : r.before = a ++ l)
    (hl : ∀ c ∈ l, IsMark c) (hs : ∀ c ∈ s, IsMark c) :
    parseDecimal (l ++ (r.signChars ++ r.numeral.chars) ++ s) =
      if l = [] ∧ (s = [] ∨ r.numeral.frac = [] ∧ s = ['.']) then some r.value else none := by
  by_cases hne : l = []
  · subst hne
    have hchars := r.numeral.parseUnsigned_chars hs
    rw [List.nil_append, signChars, value]
    cases r.negative with
    | false =>
      rw [if_neg Bool.false_ne_true, List.nil_append,
        parseDecimal_unsigned r.numeral.head?_chars_ne, hchars]
      simp
    | true =>
      rw [if_pos rfl, List.singleton_append, List.cons_append, parseDecimal, hchars]
      split
      case isTrue h => simp [h]
      case isFalse h => simp [h]
  · rw [if_neg fun h => hne h.1, List.append_assoc]
    have hlast : r.before.getLast? = l.getLast? := by rw [hbefore, getLast?_append_eq hne]
    cases hneg : r.negative with
    | true =>
      refine parseDecimal_marks hl hne ⟨'-', ?_, rfl⟩ fun _ => ?_
      · simp [signChars, hneg]
      · simp [signChars, hneg]
    | false =>
      have hminus : l.getLast? ≠ some '-' := hlast ▸ r.sign hneg
      have hpoint : r.numeral.frac = [] → l.getLast? ≠ some '.' := hlast ▸ r.point hneg
      obtain ⟨c, hc⟩ := Option.ne_none_iff_exists'.1 (mt List.getLast?_eq_none_iff.1 hne)
      -- the last mark before the number is a point, so that there is another one in it
      have hfrac : r.numeral.frac ≠ [] := by
        intro hfrac
        rcases hl c (List.mem_of_getLast? hc) with rfl | rfl
        · exact hpoint hfrac hc
        · exact hminus hc
      refine parseDecimal_marks hl hne ⟨'.', ?_, rfl⟩ fun h => absurd h hminus
      simp [signChars, hneg, r.numeral.chars_of_frac_ne_nil hfrac]

theorem clear_iff {a l s b : List Char} (hbefore : r.before = a ++ l) (hafter : r.after = s ++ b)
    (hl : ∀ c ∈ l, IsMark c) (hs : ∀ c ∈ s, IsMark c)
    (ha : ∀ c ∈ a.getLast?, isTokenChar c = false) (hb : ∀ c ∈ b.head?, isTokenChar c = false) :
    r.Clear ↔ l = [] ∧ (s = [] ∨ r.numeral.frac = [] ∧ s = ['.']) := by
  have hother : ∀ c, isTokenChar c = false → ¬IsMark c := by
    intro c hc hmark
    rw [hmark.isTokenChar] at hc
    cases hc
  constructor
  · rintro ⟨hclear, hclear'⟩
    constructor
    · by_contra hne
      rw [hbefore, getLast?_append_eq hne] at hclear
      obtain ⟨c, hc⟩ := Option.ne_none_iff_exists'.1 (mt List.getLast?_eq_none_iff.1 hne)
      exact hclear c hc (hl c (List.mem_of_getLast? hc))
    · rw [hafter] at hclear'
      rcases s with _ | ⟨c, s⟩
      · exact .inl rfl
      right
      rcases hclear' with hclear' | ⟨hfrac, rest, hrest, hclear'⟩
      · exact absurd (hs c List.mem_cons_self) (hclear' c rfl)
      · rw [List.cons_append, List.cons.injEq] at hrest
        obtain ⟨rfl, rfl⟩ := hrest
        rcases s with _ | ⟨d, s⟩
        · exact ⟨hfrac, rfl⟩
        · exact absurd (hs d (by simp)) (hclear' d rfl)
  · rintro ⟨rfl, hafter'⟩
    constructor
    · rw [hbefore, List.append_nil]
      exact fun c hc => hother c (ha c hc)
    · rw [hafter]
      rcases hafter' with rfl | ⟨hfrac, rfl⟩
      · exact .inl fun c hc => hother c (hb c hc)
      · exact .inr ⟨hfrac, b, rfl, fun c hc => hother c (hb c hc)⟩

/-- The number, with its sign and the marks around it, is one piece. -/
theorem isTokenChar_piece {l s : List Char} (hl : ∀ c ∈ l, IsMark c) (hs : ∀ c ∈ s, IsMark c) :
    ∀ c ∈ l ++ (r.signChars ++ r.numeral.chars) ++ s, isTokenChar c = true := by
  intro c hc
  simp only [List.mem_append] at hc
  rcases hc with (hc | hc | hc) | hc
  · exact (hl c hc).isTokenChar
  · have hsign : c = '-' := by
      unfold signChars at hc
      split at hc
      · exact List.mem_singleton.1 hc
      · cases hc
    rw [hsign]
    rfl
  · exact r.numeral.isTokenChar_chars c hc
  · exact (hs c hc).isTokenChar

/-- A reply is read as its number, or as none. -/
theorem firstNumber_eq [Decidable r.Clear] :
    firstNumber round r.text = if r.Clear then some (clampUnit (round r.value)) else none := by
  obtain ⟨a, l, hbefore, hl, ha⟩ := exists_marks_before r.before r.before_noDigit
  obtain ⟨s, b, hafter, hs, hb⟩ := exists_marks_after r.after r.after_noDigit
  have htoken := r.isTokenChar_piece hl hs
  have hne : l ++ (r.signChars ++ r.numeral.chars) ++ s ≠ [] := by
    simp [r.numeral.chars_ne_nil]
  have htext : r.text.toList = a ++ (l ++ (r.signChars ++ r.numeral.chars) ++ s) ++ b := by
    simp [text, hbefore, hafter]
  have hnoDigit : ∀ c ∈ a, c.isDigit = false := fun c hc =>
    r.before_noDigit c (hbefore ▸ List.mem_append_left _ hc)
  have hnoDigit' : ∀ c ∈ b, c.isDigit = false := fun c hc =>
    r.after_noDigit c (hafter ▸ List.mem_append_right _ hc)
  rw [firstNumber, htext, tokens_between ha htoken hne hb, List.findSome?_append,
    findSome?_tokens_noDigit round hnoDigit, Option.none_or, List.findSome?_cons,
    r.parseDecimal_piece hbefore hl hs, findSome?_tokens_noDigit round hnoDigit']
  have hclear := r.clear_iff hbefore hafter hl hs ha hb
  by_cases hc : r.Clear
  · rw [if_pos hc, if_pos (hclear.1 hc)]
    rfl
  · rw [if_neg hc, if_neg (mt hclear.2 hc)]
    rfl

end JudgeReply

variable {round}

theorem clampUnit_round (h : F32Rounding round) {q : Rat} (h0 : 0 ≤ q) (h1 : q ≤ 1) :
    clampUnit (round q) = round q := by
  have hlow := h.mono 0 q h0
  have hhigh := h.mono q 1 h1
  rw [h.zero] at hlow
  rw [h.one] at hhigh
  rw [clampUnit, if_neg (not_lt.2 hlow), if_neg (not_lt.2 hhigh)]

/-- Both parsers return the number of a reply exactly if it stands clear of points and minus
signs. -/
theorem parse_eq_iff (h : F32Rounding round) (r : JudgeReply) :
    (parseConfidence round r.text = some (round r.value) ∧
      parseScore round r.text = some (round r.value)) ↔ r.Clear := by
  classical
  have hclamp : clampUnit (round r.value) = round r.value :=
    clampUnit_round h r.inRange.1 r.inRange.2
  rw [parseConfidence, parseScore, and_self, r.firstNumber_eq, hclamp]
  by_cases hc : r.Clear
  · rw [if_pos hc]
    exact iff_of_true rfl hc
  · rw [if_neg hc]
    exact iff_of_false (fun h => nomatch h) hc

/-- A number that does not stand clear counts as one half. -/
theorem judged_eq (h : F32Rounding round) (r : JudgeReply) (resp : ChatResponse)
    (hstop : resp.finishReason = .stop) (htext : resp.message.text = r.text) [Decidable r.Clear] :
    judged (parseConfidence round) resp = if r.Clear then round r.value else 1 / 2 := by
  have hclamp : clampUnit (round r.value) = round r.value :=
    clampUnit_round h r.inRange.1 r.inRange.2
  rw [judged, if_pos (.inl hstop), htext, parseConfidence, r.firstNumber_eq, hclamp]
  by_cases hc : r.Clear
  · rw [if_pos hc, if_pos hc, Option.getD_some]
  · rw [if_neg hc, if_neg hc, Option.getD_none]

/-! ## Samples -/

/-- `It is 0.5` and what comes after it. -/
def half (after : List Char) (h : ∀ c ∈ after, c.isDigit = false) : JudgeReply where
  before := "It is ".toList
  negative := false
  numeral := ⟨['0'], ['5'], by simp, by simp, by simp⟩
  after
  before_noDigit := by simp
  after_noDigit := h
  sign _ := by simp
  point _ h := absurd h (by simp)
  inRange := by decide +kernel

def plainHalf : JudgeReply := half "%, I think".toList (by simp)

def endingHalf : JudgeReply := half ['.'] (by simp)

theorem id_f32Rounding : F32Rounding id := ⟨fun _ _ h => h, rfl, rfl⟩

theorem parse_plainHalf :
    parseConfidence id plainHalf.text = some (id plainHalf.value) ∧
      parseScore id plainHalf.text = some (id plainHalf.value) := by
  refine (parse_eq_iff id_f32Rounding plainHalf).2 ⟨?_, .inl ?_⟩
  · intro c hc
    obtain rfl : ' ' = c := Option.some.inj hc
    simp [IsMark]
  · intro c hc
    obtain rfl : '%' = c := Option.some.inj hc
    simp [IsMark]

/-- At the end of a sentence the number is not read. -/
theorem not_parse_endingHalf :
    ¬(parseConfidence id endingHalf.text = some (id endingHalf.value) ∧
      parseScore id endingHalf.text = some (id endingHalf.value)) := by
  have hnone : parseConfidence id endingHalf.text = none := by decide +kernel
  rintro ⟨h, -⟩
  rw [hnone] at h
  cases h

end Tako.Orchestrator
